import Ghos.Program.Registry

/-!
# `shield`, `apply_pending`, `confidential_transfer`, `withdraw`

These four read the config, check the confidential accounts of the caller and call Token-2022.  They
write no account of the program, so the instruction yields its event and the next state of the other
programs.  Here the error of the callee is passed on.
-/

namespace Ghos

variable {Pubkey Digest World : Type} [DecidableEq Pubkey] [External Pubkey World]

/-! ### `shield` -/

/-- Accounts of `shield`. -/
structure Shield (Pubkey : Type) where
  config : Pubkey
  owner : Pubkey
  confidentialAta : Pubkey
  mint : Pubkey
  tokenProgram : Pubkey
  deriving DecidableEq

/-- The handler of `shield`. -/
def Shield.handler (accounts : Shield Pubkey) (config : GhosConfig Pubkey) (world : World)
    (now : Int64) (amount : UInt64) : Outcome (RegistryEvent Pubkey × World) := do
  assertNotPaused config
  assertDustFree amount
  require (isToken2022Program accounts.tokenProgram) (.ghos .mintWrongProgramOwner)
  let _ ← readMintWithConfidentialExt world accounts.mint
  assertConfidentialAccount world accounts.confidentialAta accounts.mint accounts.owner
  let decimals ← probeDecimals world accounts.mint
  let world ← invokeToken22 world
    (.deposit accounts.confidentialAta accounts.mint accounts.owner amount decimals)
  return (.shieldExecuted accounts.owner accounts.mint accounts.confidentialAta amount now, world)

/-- Move a public balance into the pending confidential counter of the owner. -/
def shield [AddressSpace Pubkey] (c : Chain Pubkey Digest) (world : World) (now : Int64)
    (signers : List Pubkey) (accounts : Shield Pubkey) (amount : UInt64) :
    Outcome (RegistryEvent Pubkey × World) := do
  let config ← loadAccount Account.asConfig c.ledger accounts.config
  checkSigner signers accounts.owner
  checkSeeds accounts.config configSeeds config.bump
  accounts.handler config world now amount

/-! ### `apply_pending` -/

/-- Accounts of `apply_pending`. -/
structure ApplyPending (Pubkey : Type) where
  config : Pubkey
  owner : Pubkey
  confidentialAta : Pubkey
  mint : Pubkey
  tokenProgram : Pubkey
  deriving DecidableEq

/-- The handler of `apply_pending`. -/
def ApplyPending.handler (accounts : ApplyPending Pubkey) (config : GhosConfig Pubkey)
    (world : World) (now : Int64) (expectedPendingCounter : UInt64)
    (newDecryptableAvailable : Vector UInt8 36) : Outcome (RegistryEvent Pubkey × World) := do
  assertNotPaused config
  require (isToken2022Program accounts.tokenProgram) (.ghos .mintWrongProgramOwner)
  require (0 < expectedPendingCounter) (.ghos .nothingToApply)
  assertConfidentialAccount world accounts.confidentialAta accounts.mint accounts.owner
  let world ← invokeToken22 world (.applyPendingBalance accounts.confidentialAta accounts.owner
    expectedPendingCounter newDecryptableAvailable)
  return (.pendingApplied accounts.owner accounts.mint expectedPendingCounter now, world)

/-- Move the pending counter of the caller into the available one. -/
def applyPending [AddressSpace Pubkey] (c : Chain Pubkey Digest) (world : World) (now : Int64)
    (signers : List Pubkey) (accounts : ApplyPending Pubkey) (expectedPendingCounter : UInt64)
    (newDecryptableAvailable : Vector UInt8 36) : Outcome (RegistryEvent Pubkey × World) := do
  let config ← loadAccount Account.asConfig c.ledger accounts.config
  checkSigner signers accounts.owner
  checkSeeds accounts.config configSeeds config.bump
  accounts.handler config world now expectedPendingCounter newDecryptableAvailable

/-! ### `confidential_transfer` -/

/-- Accounts of `confidential_transfer`. -/
structure ConfidentialTransfer (Pubkey : Type) where
  config : Pubkey
  sourceOwner : Pubkey
  sourceAccount : Pubkey
  destinationAccount : Pubkey
  mint : Pubkey
  equalityProofContext : Pubkey
  ciphertextValidityProofContext : Pubkey
  rangeProofContext : Pubkey
  auditorEntry : Option Pubkey
  tokenProgram : Pubkey
  deriving DecidableEq

/-- The handler of `confidential_transfer`. -/
def ConfidentialTransfer.handler (accounts : ConfidentialTransfer Pubkey)
    (config : GhosConfig Pubkey) (world : World) (now : Int64) (destinationOwner : Pubkey)
    (newSourceDecryptableBalance : Vector UInt8 36) :
    Outcome (RegistryEvent Pubkey × World) := do
  assertNotPaused config
  require (isToken2022Program accounts.tokenProgram) (.ghos .mintWrongProgramOwner)
  assertConfidentialAccount world accounts.sourceAccount accounts.mint accounts.sourceOwner
  assertConfidentialAccount world accounts.destinationAccount accounts.mint destinationOwner
  let world ← invokeToken22 world (.transfer accounts.sourceAccount accounts.mint
    accounts.destinationAccount accounts.sourceOwner newSourceDecryptableBalance
    accounts.equalityProofContext accounts.ciphertextValidityProofContext
    accounts.rangeProofContext)
  return (.confidentialTransferSubmitted accounts.sourceOwner destinationOwner accounts.mint
    accounts.rangeProofContext now, world)

/-- Dispatch a transfer of an encrypted balance. -/
def confidentialTransfer [AddressSpace Pubkey] (c : Chain Pubkey Digest) (world : World)
    (now : Int64) (signers : List Pubkey) (accounts : ConfidentialTransfer Pubkey)
    (destinationOwner : Pubkey) (newSourceDecryptableBalance : Vector UInt8 36) :
    Outcome (RegistryEvent Pubkey × World) := do
  let config ← loadAccount Account.asConfig c.ledger accounts.config
  checkSigner signers accounts.sourceOwner
  let auditorEntry ← c.loadOption c.auditors accounts.auditorEntry
  checkSeeds accounts.config configSeeds config.bump
  require (∀ entry ∈ auditorEntry, entry.mint = accounts.mint) (.ghos .auditorMismatch)
  accounts.handler config world now destinationOwner newSourceDecryptableBalance

/-! ### `withdraw` -/

/-- Accounts of `withdraw`. -/
structure Withdraw (Pubkey : Type) where
  config : Pubkey
  owner : Pubkey
  confidentialAta : Pubkey
  mint : Pubkey
  rangeProofContext : Option Pubkey
  equalityProofContext : Option Pubkey
  auditorEntry : Option Pubkey
  tokenProgram : Pubkey
  deriving DecidableEq

omit [External Pubkey World] in
/-- The co-signature that the handler records: an auditor entry of the mint was passed along. -/
def Withdraw.cosigned (accounts : Withdraw Pubkey) :
    Option (AuditorEntry Pubkey) → Result Bool
  | some entry => do
    checkKeysEq entry.mint accounts.mint (.ghos .auditorMismatch)
    return true
  | none => return false

omit [External Pubkey World] in
@[simp] theorem Withdraw.cosigned_eq_ok {accounts : Withdraw Pubkey}
    {auditorEntry : Option (AuditorEntry Pubkey)} {b : Bool} :
    accounts.cosigned auditorEntry = .ok b ↔
      (∀ entry ∈ auditorEntry, entry.mint = accounts.mint) ∧ auditorEntry.isSome = b := by
  cases auditorEntry <;> simp [cosigned, checkKeysEq]

/-- The handler of `withdraw`. -/
def Withdraw.handler (accounts : Withdraw Pubkey) (config : GhosConfig Pubkey)
    (auditorEntry : Option (AuditorEntry Pubkey)) (world : World) (now : Int64) (amount : UInt64)
    (newDecryptableAvailable : Vector UInt8 36) : Outcome (RegistryEvent Pubkey × World) := do
  assertNotPaused config
  assertDustFree amount
  require (isToken2022Program accounts.tokenProgram) (.ghos .mintWrongProgramOwner)
  let _ ← readMintWithConfidentialExt world accounts.mint
  assertConfidentialAccount world accounts.confidentialAta accounts.mint accounts.owner
  let decimals ← probeDecimals world accounts.mint
  let auditorCosigned ← accounts.cosigned auditorEntry
  let world ← invokeToken22 world (.withdraw accounts.confidentialAta accounts.mint accounts.owner
    amount decimals newDecryptableAvailable accounts.equalityProofContext
    accounts.rangeProofContext)
  return (.withdrawExecuted accounts.owner accounts.mint accounts.confidentialAta amount
    auditorCosigned now, world)

/-- Convert a confidential balance back to a public one. -/
def withdraw [AddressSpace Pubkey] (c : Chain Pubkey Digest) (world : World) (now : Int64)
    (signers : List Pubkey) (accounts : Withdraw Pubkey) (amount : UInt64)
    (newDecryptableAvailable : Vector UInt8 36) : Outcome (RegistryEvent Pubkey × World) := do
  let config ← loadAccount Account.asConfig c.ledger accounts.config
  checkSigner signers accounts.owner
  let auditorEntry ← c.loadOption c.auditors accounts.auditorEntry
  checkSeeds accounts.config configSeeds config.bump
  accounts.handler config auditorEntry world now amount newDecryptableAvailable

end Ghos
