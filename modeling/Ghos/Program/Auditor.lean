import Ghos.Program.Registry

/-!
# `auditor_register` and `auditor_rotate`

As for the mix instructions: the struct of the accounts, the handler over the loaded accounts, and
the instruction, which validates the accounts and writes the entry back.  Both instructions call the
zk-token-proof program, so they also map a state of the other programs to the next.
-/

namespace Ghos

variable {Pubkey Digest World : Type} [DecidableEq Pubkey] [External Pubkey World]

/-- The seeds of the auditor entry of a mint. -/
def auditorSeeds (mint : Pubkey) : List (Seed Pubkey) := [.bytes auditorSeed, .key mint]

/-! ### `auditor_register` -/

/-- Accounts of `auditor_register`. -/
structure AuditorRegister (Pubkey : Type) where
  config : Pubkey
  admin : Pubkey
  mint : Pubkey
  auditorEntry : Pubkey
  zkProofProgram : Pubkey
  proofContext : Pubkey
  systemProgram : Pubkey
  deriving DecidableEq

/-- The handler of `auditor_register`. -/
def AuditorRegister.handler (accounts : AuditorRegister Pubkey) (config : GhosConfig Pubkey)
    (bump : UInt8) (world : World) (now : Int64) (auditorPubkey : Vector UInt8 32)
    (pubkeyValidityProof : List UInt8) (rotationCooldown : Int64) :
    Result (AuditorEntry Pubkey × RegistryEvent Pubkey × World) := do
  assertNotPaused config
  assertAdmin config accounts.admin
  let world ← verifyAuditorPubkey world accounts.zkProofProgram accounts.proofContext
    accounts.admin accounts.systemProgram pubkeyValidityProof
  let entry : AuditorEntry Pubkey :=
    { mint := accounts.mint
      auditorPubkey
      registeredAt := now
      lastRotatedAt := now
      rotationCooldown
      admin := accounts.admin
      bump
      reserved := .replicate 16 0 }
  return (entry, .auditorRegistered entry.mint auditorPubkey entry.admin now, world)

/-- Add a per-mint auditor entry. -/
def auditorRegister [AddressSpace Pubkey] (c : Chain Pubkey Digest) (world : World) (now : Int64)
    (signers : List Pubkey) (accounts : AuditorRegister Pubkey) (auditorPubkey : Vector UInt8 32)
    (pubkeyValidityProof : List UInt8) (rotationCooldown : Int64) :
    Result (Chain Pubkey Digest × RegistryEvent Pubkey × World) := do
  let config ← loadAccount Account.asConfig c.ledger accounts.config
  checkSigner signers accounts.admin
  checkSystemProgram accounts.systemProgram
  let bump ← c.initAccount accounts.auditorEntry (auditorSeeds accounts.mint)
  checkSeeds accounts.config configSeeds config.bump
  let (entry, event, world) ← accounts.handler config bump world now auditorPubkey
    pubkeyValidityProof rotationCooldown
  return ({ c with auditors := c.auditors.set accounts.auditorEntry entry }, event, world)

/-! ### `auditor_rotate` -/

/-- Accounts of `auditor_rotate`. -/
structure AuditorRotate (Pubkey : Type) where
  config : Pubkey
  admin : Pubkey
  mint : Pubkey
  auditorEntry : Pubkey
  zkProofProgram : Pubkey
  proofContext : Pubkey
  systemProgram : Pubkey
  deriving DecidableEq

/-- The handler of `auditor_rotate`. -/
def AuditorRotate.handler (accounts : AuditorRotate Pubkey) (config : GhosConfig Pubkey)
    (entry : AuditorEntry Pubkey) (world : World) (now : Int64)
    (newAuditorPubkey : Vector UInt8 32) (pubkeyValidityProof : List UInt8) :
    Result (AuditorEntry Pubkey × RegistryEvent Pubkey × World) := do
  assertNotPaused config
  assertAdmin config accounts.admin
  let elapsed := now.saturatingSub entry.lastRotatedAt
  require (entry.rotationCooldown ≤ elapsed) (.ghos .auditorRotationTooSoon)
  let world ← verifyAuditorPubkey world accounts.zkProofProgram accounts.proofContext
    accounts.admin accounts.systemProgram pubkeyValidityProof
  let old := entry.auditorPubkey
  return ({ entry with auditorPubkey := newAuditorPubkey, lastRotatedAt := now },
    .auditorRotated entry.mint old newAuditorPubkey now, world)

/-- Replace the auditor key of a mint, subject to the cooldown of the entry. -/
def auditorRotate [AddressSpace Pubkey] (c : Chain Pubkey Digest) (world : World) (now : Int64)
    (signers : List Pubkey) (accounts : AuditorRotate Pubkey) (newAuditorPubkey : Vector UInt8 32)
    (pubkeyValidityProof : List UInt8) :
    Result (Chain Pubkey Digest × RegistryEvent Pubkey × World) := do
  let config ← loadAccount Account.asConfig c.ledger accounts.config
  checkSigner signers accounts.admin
  let entry ← c.load c.auditors accounts.auditorEntry
  checkSystemProgram accounts.systemProgram
  checkSeeds accounts.config configSeeds config.bump
  checkSeeds accounts.auditorEntry (auditorSeeds accounts.mint) entry.bump
  checkKeysEq entry.admin accounts.admin (.anchor .constraintHasOne)
  let (entry, event, world) ← accounts.handler config entry world now newAuditorPubkey
    pubkeyValidityProof
  return ({ c with auditors := c.auditors.set accounts.auditorEntry entry }, event, world)

end Ghos
