import Ghos.Program.Validation

/-!
# What the program takes from Token-2022 and from the zk-token-proof program

`External` collects what other programs answer: who owns an account, how Token-2022 reads a mint and
a token account, and what becomes of their accounts when the program calls one of them.  The state
of all other programs together is a `World`.  The rest is `utils/token22.rs` and `utils/zk.rs`: the
checks on foreign accounts and the calls.
-/

namespace Ghos

/-! ### Other programs -/

/-- The extensions of Token-2022 that the program looks for, and the others. -/
inductive ExtensionType
  | confidentialTransferMint
  | confidentialTransferAccount
  | other (tag : UInt16)
  deriving DecidableEq

/-- `StateWithExtensions<Mint>`; the extension types may be unreadable. -/
structure Mint where
  decimals : UInt8
  extensionTypes : Option (List ExtensionType)
  deriving DecidableEq

/-- `StateWithExtensions<Account>`. -/
structure TokenAccount (Pubkey : Type) where
  mint : Pubkey
  owner : Pubkey
  extensionTypes : Option (List ExtensionType)
  deriving DecidableEq

/-- The instructions that the program sends to Token-2022 and to the zk-token-proof program. -/
inductive Cpi (Pubkey : Type)
  | deposit (account mint owner : Pubkey) (amount : UInt64) (decimals : UInt8)
  | applyPendingBalance (account owner : Pubkey) (expectedPendingCreditCounter : UInt64)
      (newDecryptableAvailableBalance : Vector UInt8 36)
  | withdraw (account mint owner : Pubkey) (amount : UInt64) (decimals : UInt8)
      (newDecryptableAvailableBalance : Vector UInt8 36)
      (equalityProofContext rangeProofContext : Option Pubkey)
  | transfer (source mint destination owner : Pubkey)
      (newSourceDecryptableBalance : Vector UInt8 36)
      (equalityProofContext ciphertextValidityProofContext rangeProofContext : Pubkey)
  | zkTokenProof (contextAccount contextAuthority systemProgram : Pubkey) (data : List UInt8)
  deriving DecidableEq

/-- The answers of other programs.  A call fails with the code of the callee. -/
class External (Pubkey : Type) (World : outParam Type) where
  token2022ProgramId : Pubkey
  zkTokenProofProgramId : Pubkey
  accountOwner : World → Pubkey → Pubkey
  unpackMint : World → Pubkey → Option Mint
  unpackAccount : World → Pubkey → Option (TokenAccount Pubkey)
  invoke : World → Cpi Pubkey → Except UInt64 World

export External (token2022ProgramId zkTokenProofProgramId accountOwner unpackMint unpackAccount
  invoke)

/-- Why a call of the program failed: by its own decision, or with the error of a program that it
called. -/
inductive Failure
  | program (e : ProgramError)
  | callee (code : UInt64)
  deriving DecidableEq

/-- The outcome of a call. -/
abbrev Outcome (α : Type) := Except Failure α

instance : MonadLift Result Outcome := ⟨fun x => x.mapError .program⟩

@[simp] theorem Outcome.bind_eq_ok {α β : Type} {x : Outcome α} {f : α → Outcome β} {b : β} :
    x >>= f = .ok b ↔ ∃ a, x = .ok a ∧ f a = .ok b := by
  cases x <;> simp [bind, Except.bind]

@[simp] theorem Outcome.pure_eq_ok {α : Type} {a b : α} : (pure a : Outcome α) = .ok b ↔ a = b :=
  Except.ok.injEq a b ▸ Iff.rfl

/-- A check of the program fails with the program's error. -/
@[simp] theorem Outcome.lift_eq_ok {α : Type} {x : Result α} {a : α} :
    (liftM x : Outcome α) = .ok a ↔ x = .ok a :=
  mapError_eq_ok

/-- `ok_or` and `map_err` on what another program reads. -/
def okOr {α : Type} (x : Option α) (err : ProgramError) : Result α :=
  match x with
  | some a => .ok a
  | none => .error err

@[simp] theorem okOr_eq_ok {α : Type} {x : Option α} {err : ProgramError} {a : α} :
    okOr x err = .ok a ↔ x = some a := by
  cases x <;> simp [okOr]

variable {Pubkey World : Type} [DecidableEq Pubkey] [External Pubkey World]

/-! ### `utils/token22.rs` -/

/-- Return true if the given key is the canonical Token-2022 program id. -/
def isToken2022Program (key : Pubkey) : Bool := key = token2022ProgramId

/-- The mint is a Token-2022 mint with the confidential transfer extension. -/
def readMintWithConfidentialExt (world : World) (mint : Pubkey) : Result Bool := do
  require (accountOwner world mint = token2022ProgramId) (.ghos .mintWrongProgramOwner)
  let parsed ← okOr (unpackMint world mint) (.ghos .mintMissingConfidentialExt)
  let extTypes ← okOr parsed.extensionTypes (.ghos .mintMissingConfidentialExt)
  require (.confidentialTransferMint ∈ extTypes) (.ghos .mintMissingConfidentialExt)
  return true

/-- The account holds a confidential balance tied to the expected mint and owner. -/
def assertConfidentialAccount (world : World) (account expectedMint expectedOwner : Pubkey) :
    Result Unit := do
  require (accountOwner world account = token2022ProgramId) (.ghos .mintWrongProgramOwner)
  let state ← okOr (unpackAccount world account) (.ghos .accountNotConfidential)
  require (state.mint = expectedMint) (.ghos .accountNotConfidential)
  require (state.owner = expectedOwner) (.ghos .accountOwnerMismatch)
  let extTypes ← okOr state.extensionTypes (.ghos .accountNotConfidential)
  require (.confidentialTransferAccount ∈ extTypes) (.ghos .accountNotConfidential)

omit [DecidableEq Pubkey] in
/-- The decimals of a mint. -/
def probeDecimals (world : World) (mint : Pubkey) : Result UInt8 := do
  let state ← okOr (unpackMint world mint) (.ghos .mintWrongProgramOwner)
  return state.decimals

omit [DecidableEq Pubkey] in
/-- `invoke(..)?`.  The instruction builders of Token-2022 fail only on a foreign program id, and
the program passes the canonical one. -/
def invokeToken22 (world : World) (ix : Cpi Pubkey) : Outcome World :=
  (invoke world ix).mapError .callee

omit [DecidableEq Pubkey] in
@[simp] theorem invokeToken22_eq_ok {world world' : World} {ix : Cpi Pubkey} :
    invokeToken22 world ix = .ok world' ↔ invoke world ix = .ok world' :=
  mapError_eq_ok

/-! ### `utils/zk.rs` -/

/-- The kinds of proof the program has verified. -/
inductive ProofKind
  | rangeProof64
  | batchedRangeProof128
  | ciphertextCommitmentEquality
  | pubkeyValidity
  | zeroBalance
  deriving DecidableEq

/-- The tag byte of the verifying instruction. -/
def ProofKind.tag : ProofKind → UInt8
  | .rangeProof64 => 18
  | .batchedRangeProof128 => 20
  | .ciphertextCommitmentEquality => 12
  | .pubkeyValidity => 22
  | .zeroBalance => 10

/-- The error to surface when the verification fails. -/
def ProofKind.err : ProofKind → GhosError
  | .rangeProof64 => .rangeProofVerificationFailed
  | .batchedRangeProof128 => .rangeProofVerificationFailed
  | .ciphertextCommitmentEquality => .equalityProofVerificationFailed
  | .pubkeyValidity => .pubkeyValidityProofFailed
  | .zeroBalance => .zeroBalanceProofFailed

/-- Have a proof verified and stored in its context account. -/
def verifyAndStore (world : World)
    (proofProgram contextAccount contextAuthority systemProgram : Pubkey) (kind : ProofKind)
    (proofBytes : List UInt8) : Result World := do
  require (proofProgram = zkTokenProofProgramId) (.ghos .unexpectedProofContext)
  let data := kind.tag :: proofBytes
  match invoke world (.zkTokenProof contextAccount contextAuthority systemProgram data) with
  | .ok world' => return world'
  | .error _ => .error (.ghos kind.err)

@[simp] theorem verifyAndStore_eq_ok {world world' : World}
    {proofProgram contextAccount contextAuthority systemProgram : Pubkey} {kind : ProofKind}
    {proofBytes : List UInt8} :
    verifyAndStore world proofProgram contextAccount contextAuthority systemProgram kind
        proofBytes = .ok world' ↔
      proofProgram = zkTokenProofProgramId ∧ invoke world (.zkTokenProof contextAccount
        contextAuthority systemProgram (kind.tag :: proofBytes)) = .ok world' := by
  simp only [verifyAndStore, Result.bind_eq_ok, require_eq_ok, exists_const]
  cases invoke world (.zkTokenProof contextAccount contextAuthority systemProgram
    (kind.tag :: proofBytes)) <;> simp

/-- The confidential account behind a burner has no available balance. -/
def verifyZeroBalance (world : World) (proofProgram contextAccount authority systemProgram : Pubkey)
    (proofBytes : List UInt8) : Result World :=
  verifyAndStore world proofProgram contextAccount authority systemProgram .zeroBalance proofBytes

/-- The auditor submitted a valid ElGamal public key. -/
def verifyAuditorPubkey (world : World)
    (proofProgram contextAccount authority systemProgram : Pubkey) (proofBytes : List UInt8) :
    Result World :=
  verifyAndStore world proofProgram contextAccount authority systemProgram .pubkeyValidity
    proofBytes

end Ghos
