import Ghos.Program.Registry

/-!
# `create_burner` and `destroy_burner`
-/

namespace Ghos

variable {Pubkey Digest World : Type} [DecidableEq Pubkey]

/-- The seeds of the burner entry of an owner with a given nonce. -/
def burnerSeeds (owner : Pubkey) (nonce : UInt64) : List (Seed Pubkey) :=
  [.bytes burnerSeed, .key owner, .bytes nonce.toLeBytes]

/-! ### `create_burner` -/

/-- Accounts of `create_burner`. -/
structure CreateBurner (Pubkey : Type) where
  config : Pubkey
  owner : Pubkey
  burnerPubkey : Pubkey
  burnerEntry : Pubkey
  systemProgram : Pubkey
  deriving DecidableEq

omit [DecidableEq Pubkey] in
/-- The handler of `create_burner`. -/
def CreateBurner.handler (accounts : CreateBurner Pubkey) (config : GhosConfig Pubkey)
    (bump : UInt8) (now : Int64) (nonce : UInt64) (ttlSeconds : Int64) :
    Result (BurnerAccount Pubkey × RegistryEvent Pubkey) := do
  assertNotPaused config
  validateBurnerTtl ttlSeconds
  let entry : BurnerAccount Pubkey :=
    { owner := accounts.owner
      burnerPubkey := accounts.burnerPubkey
      createdAt := now
      expiresAt := now.saturatingAdd ttlSeconds
      nonce
      revoked := false
      usageCount := 0
      bump
      reserved := .replicate 16 0 }
  return (entry, .burnerCreated entry.owner entry.burnerPubkey ttlSeconds entry.expiresAt)

/-- Register an ephemeral keypair. -/
def createBurner [AddressSpace Pubkey] (c : Chain Pubkey Digest) (now : Int64)
    (signers : List Pubkey) (accounts : CreateBurner Pubkey) (nonce : UInt64)
    (ttlSeconds : Int64) : Result (Chain Pubkey Digest × RegistryEvent Pubkey) := do
  let config ← loadAccount Account.asConfig c.ledger accounts.config
  checkSigner signers accounts.owner
  checkSystemProgram accounts.systemProgram
  let bump ← c.initAccount accounts.burnerEntry (burnerSeeds accounts.owner nonce)
  checkSeeds accounts.config configSeeds config.bump
  let (entry, event) ← accounts.handler config bump now nonce ttlSeconds
  return ({ c with burners := c.burners.set accounts.burnerEntry entry }, event)

/-! ### `destroy_burner` -/

/-- Accounts of `destroy_burner`. -/
structure DestroyBurner (Pubkey : Type) where
  config : Pubkey
  owner : Pubkey
  burnerEntry : Pubkey
  zkProofProgram : Pubkey
  proofContext : Pubkey
  systemProgram : Pubkey
  deriving DecidableEq

variable [External Pubkey World]

/-- The handler of `destroy_burner`. -/
def DestroyBurner.handler (accounts : DestroyBurner Pubkey) (config : GhosConfig Pubkey)
    (entry : BurnerAccount Pubkey) (world : World) (now : Int64) (zeroProofBytes : List UInt8) :
    Result (BurnerAccount Pubkey × RegistryEvent Pubkey × World) := do
  assertNotPaused config
  require (!entry.revoked) (.ghos .burnerExpired)
  let entry := { entry with revoked := true }
  let world ← verifyZeroBalance world accounts.zkProofProgram accounts.proofContext accounts.owner
    accounts.systemProgram zeroProofBytes
  return (entry, .burnerDestroyed entry.owner entry.burnerPubkey now, world)

/-- Revoke a burner entry and close its account. -/
def destroyBurner [AddressSpace Pubkey] (c : Chain Pubkey Digest) (world : World) (now : Int64)
    (signers : List Pubkey) (accounts : DestroyBurner Pubkey) (zeroProofBytes : List UInt8) :
    Result (Chain Pubkey Digest × RegistryEvent Pubkey × World) := do
  let config ← loadAccount Account.asConfig c.ledger accounts.config
  checkSigner signers accounts.owner
  let entry ← c.load c.burners accounts.burnerEntry
  checkSystemProgram accounts.systemProgram
  checkSeeds accounts.config configSeeds config.bump
  checkSeeds accounts.burnerEntry (burnerSeeds accounts.owner entry.nonce) entry.bump
  checkKeysEq entry.owner accounts.owner (.anchor .constraintHasOne)
  let (_, event, world) ← accounts.handler config entry world now zeroProofBytes
  -- `close = owner`: the entry is gone, whatever the handler wrote to it
  return ({ c with burners := c.burners.erase accounts.burnerEntry }, event, world)

end Ghos
