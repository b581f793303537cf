import Ghos.Program.External

/-!
# The registries of auditors and burners

The remaining accounts of `state.rs` and the remaining events of `events.rs`, and the accounts of
the program as a whole: a `Chain` is the ledger of the config and the mix rounds together with the
two registries.
-/

namespace Ghos

def burnerSeed : List UInt8 := asciiBytes "ghos.burner"

def auditorSeed : List UInt8 := asciiBytes "ghos.auditor"

/-- Per-mint auditor registry entry. -/
structure AuditorEntry (Pubkey : Type) where
  mint : Pubkey
  auditorPubkey : Vector UInt8 32
  registeredAt : Int64
  lastRotatedAt : Int64
  rotationCooldown : Int64
  admin : Pubkey
  bump : UInt8
  reserved : Vector UInt8 16
  deriving DecidableEq

/-- Ephemeral burner account registry entry. -/
structure BurnerAccount (Pubkey : Type) where
  owner : Pubkey
  burnerPubkey : Pubkey
  createdAt : Int64
  expiresAt : Int64
  nonce : UInt64
  revoked : Bool
  usageCount : UInt32
  bump : UInt8
  reserved : Vector UInt8 16
  deriving DecidableEq

/-- A burner entry is still live. -/
def burnerIsActive {Pubkey : Type} (entry : BurnerAccount Pubkey) (now : Int64) : Bool :=
  !entry.revoked && now < entry.expiresAt

/-- What an instruction on tokens or on a registry emits. -/
inductive RegistryEvent (Pubkey : Type)
  | shieldExecuted (owner mint sourceAta : Pubkey) (amountLamports : UInt64) (timestamp : Int64)
  | confidentialTransferSubmitted (sourceOwner destinationOwner mint proofContext : Pubkey)
      (timestamp : Int64)
  | pendingApplied (owner mint : Pubkey) (appliedCounter : UInt64) (timestamp : Int64)
  | withdrawExecuted (owner mint destinationAta : Pubkey) (amount : UInt64)
      (auditorCosigned : Bool) (timestamp : Int64)
  | burnerCreated (owner burner : Pubkey) (ttlSeconds expiresAt : Int64)
  | burnerDestroyed (owner burner : Pubkey) (revokedAt : Int64)
  | auditorRegistered (mint : Pubkey) (auditorPubkey : Vector UInt8 32) (admin : Pubkey)
      (timestamp : Int64)
  | auditorRotated (mint : Pubkey) (oldPubkey newPubkey : Vector UInt8 32) (timestamp : Int64)
  deriving DecidableEq

/-- All accounts owned by the program. -/
structure Chain (Pubkey Digest : Type) where
  ledger : Ledger Pubkey Digest
  auditors : Store Pubkey (AuditorEntry Pubkey)
  burners : Store Pubkey (BurnerAccount Pubkey)

namespace Chain

variable {Pubkey Digest α : Type} {c : Chain Pubkey Digest} {a : Pubkey}

/-- No account of the program exists at the address. -/
def isFree (c : Chain Pubkey Digest) (a : Pubkey) : Bool :=
  (c.ledger a).isNone && (c.auditors a).isNone && (c.burners a).isNone

@[simp] theorem isFree_iff :
    c.isFree a = true ↔ c.ledger a = none ∧ c.auditors a = none ∧ c.burners a = none := by
  simp [isFree, and_assoc]

/-- `Account<'info, T>` for an account of a registry. -/
def load (c : Chain Pubkey Digest) (registry : Store Pubkey α) (a : Pubkey) : Result α :=
  match registry a with
  | some entry => .ok entry
  | none =>
    if c.isFree a then .error (.anchor .accountNotInitialized)
    else .error (.anchor .accountDiscriminatorMismatch)

@[simp] theorem load_eq_ok {registry : Store Pubkey α} {entry : α} :
    c.load registry a = .ok entry ↔ registry a = some entry := by
  unfold load
  cases registry a with
  | none => by_cases h : c.isFree a <;> simp [h]
  | some entry' => simp

/-- `Option<Account<'info, T>>`. -/
def loadOption (c : Chain Pubkey Digest) (registry : Store Pubkey α) :
    Option Pubkey → Result (Option α)
  | none => .ok none
  | some a => some <$> c.load registry a

theorem loadOption_eq_ok {registry : Store Pubkey α} {a : Option Pubkey} {entry : Option α} :
    c.loadOption registry a = .ok entry ↔ a.map registry = entry.map some := by
  cases a with
  | none => cases entry <;> simp [loadOption]
  | some a => cases entry <;> simp [loadOption]

variable [DecidableEq Pubkey] [AddressSpace Pubkey]

/-- `init, seeds = […], bump` for an account of a registry. -/
def initAccount (c : Chain Pubkey Digest) (a : Pubkey) (seeds : List (Seed Pubkey)) :
    Result UInt8 := do
  require (a = (findProgramAddress seeds).1) (.anchor .constraintSeeds)
  require (c.isFree a) .accountAlreadyInUse
  return (findProgramAddress seeds).2

@[simp] theorem initAccount_eq_ok {seeds : List (Seed Pubkey)} {bump : UInt8} :
    c.initAccount a seeds = .ok bump ↔
      a = (findProgramAddress seeds).1 ∧ c.isFree a ∧ (findProgramAddress seeds).2 = bump := by
  simp [initAccount]

end Chain

/-! ### More of `utils/validation.rs` -/

/-- Reject amounts that would leak dust through rent-exemption side channels. -/
def assertDustFree (amount : UInt64) : Result Unit := do
  require (dustFreeUnit ≤ amount) (.ghos .amountBelowDustFloor)
  require (amount % dustFreeUnit = 0) (.ghos .amountNotAligned)

/-- Validate TTL inputs for burner account creation. -/
def validateBurnerTtl (ttl : Int64) : Result Unit :=
  require (burnerTtlMinSeconds ≤ ttl ∧ ttl ≤ burnerTtlMaxSeconds) (.ghos .burnerTtlOutOfRange)

@[simp] theorem assertDustFree_eq_ok {amount : UInt64} {u : Unit} :
    assertDustFree amount = .ok u ↔ dustFreeUnit ≤ amount ∧ amount % dustFreeUnit = 0 := by
  simp [assertDustFree]

end Ghos
