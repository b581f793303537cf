import Ghos.Lib.Store
import Ghos.Program.State

/-!
# Account validation and the shared pre-checks

The first part is what Anchor does for the attributes of a `#[derive(Accounts)]` struct: load an
account of a declared type, check a signer, check `seeds` with a stored `bump`, create a PDA for
`init`.  The second part is `utils/validation.rs`.

Every check comes with the lemma that says when it passes.
-/

namespace Ghos

/-- The accounts owned by the program. -/
abbrev Ledger (Pubkey Digest : Type) := Store Pubkey (Account Pubkey Digest)

namespace Ledger

variable {Pubkey Digest : Type}

abbrev config? (L : Ledger Pubkey Digest) : Pubkey → Option (GhosConfig Pubkey) :=
  Store.view Account.asConfig L

abbrev round? (L : Ledger Pubkey Digest) : Pubkey → Option (MixRound Pubkey) :=
  Store.view Account.asRound L

abbrev commitment? (L : Ledger Pubkey Digest) : Pubkey → Option (MixCommitment Pubkey Digest) :=
  Store.view Account.asCommitment L

variable {L L' : Ledger Pubkey Digest} {a : Pubkey}

/-- An address holds an account of one kind only. -/
theorem of_config {config : GhosConfig Pubkey} (h : L.config? a = some config) :
    L.round? a = none ∧ L.commitment? a = none := by
  unfold config? round? commitment? Store.view at *
  cases hL : L a with
  | none => simp
  | some account =>
    cases account <;> simp_all [Account.asConfig, Account.asRound, Account.asCommitment]

theorem of_round {round : MixRound Pubkey} (h : L.round? a = some round) :
    L.config? a = none ∧ L.commitment? a = none := by
  unfold config? round? commitment? Store.view at *
  cases hL : L a with
  | none => simp
  | some account =>
    cases account <;> simp_all [Account.asConfig, Account.asRound, Account.asCommitment]

theorem of_commitment {commitment : MixCommitment Pubkey Digest}
    (h : L.commitment? a = some commitment) : L.config? a = none ∧ L.round? a = none := by
  unfold config? round? commitment? Store.view at *
  cases hL : L a with
  | none => simp
  | some account =>
    cases account <;> simp_all [Account.asConfig, Account.asRound, Account.asCommitment]

/-- A ledger is determined by its three views. -/
theorem ext_views (hc : L.config? = L'.config?) (hr : L.round? = L'.round?)
    (hm : L.commitment? = L'.commitment?) : L = L' := by
  funext a
  have hc := congrFun hc a
  have hr := congrFun hr a
  have hm := congrFun hm a
  unfold config? round? commitment? Store.view at *
  cases hL : L a with
  | none =>
    cases hL' : L' a with
    | none => rfl
    | some account' =>
      cases account' <;> simp_all [Account.asConfig, Account.asRound, Account.asCommitment]
  | some account =>
    cases hL' : L' a with
    | none => cases account <;> simp_all [Account.asConfig, Account.asRound, Account.asCommitment]
    | some account' =>
      cases account <;> cases account' <;>
        simp_all [Account.asConfig, Account.asRound, Account.asCommitment]

/-- An address is free if no view sees anything there. -/
theorem eq_none_iff :
    L a = none ↔ L.config? a = none ∧ L.round? a = none ∧ L.commitment? a = none := by
  unfold config? round? commitment? Store.view
  cases hL : L a with
  | none => simp
  | some account => cases account <;> simp [Account.asConfig, Account.asRound, Account.asCommitment]

end Ledger

/-- The outcome of a check or of a handler. -/
abbrev Result (α : Type) := Except ProgramError α

@[simp] theorem Result.bind_eq_ok {α β : Type} {x : Result α} {f : α → Result β} {b : β} :
    x >>= f = .ok b ↔ ∃ a, x = .ok a ∧ f a = .ok b := by
  cases x <;> simp [bind, Except.bind]

@[simp] theorem Result.map_eq_ok {α β : Type} {x : Result α} {f : α → β} {b : β} :
    f <$> x = .ok b ↔ ∃ a, x = .ok a ∧ f a = b := by
  cases x <;> simp [Functor.map, Except.map]

@[simp] theorem Result.pure_eq_ok {α : Type} {a b : α} : (pure a : Result α) = .ok b ↔ a = b :=
  Except.ok.injEq a b ▸ Iff.rfl

@[simp] theorem mapError_eq_ok {ε ε' α : Type} {x : Except ε α} {f : ε → ε'} {a : α} :
    x.mapError f = .ok a ↔ x = .ok a := by
  cases x <;> simp [Except.mapError]

/-- `require!`. -/
def require (cond : Prop) [Decidable cond] (err : ProgramError) : Result Unit :=
  if cond then .ok () else .error err

@[simp] theorem require_eq_ok {cond : Prop} [Decidable cond] {err : ProgramError} {u : Unit} :
    require cond err = .ok u ↔ cond := by
  unfold require
  split_ifs with h <;> simp [h]

section Anchor

variable {Pubkey Digest α : Type} [DecidableEq Pubkey]

/-- `Account<'info, T>`: the account exists and has the discriminator of `T`. -/
def loadAccount (as : Account Pubkey Digest → Option α) (L : Ledger Pubkey Digest) (a : Pubkey) :
    Result α :=
  match L a with
  | none => .error (.anchor .accountNotInitialized)
  | some account =>
    match as account with
    | none => .error (.anchor .accountDiscriminatorMismatch)
    | some v => .ok v

omit [DecidableEq Pubkey] in
@[simp] theorem loadAccount_eq_ok {as : Account Pubkey Digest → Option α}
    {L : Ledger Pubkey Digest} {a : Pubkey} {v : α} :
    loadAccount as L a = .ok v ↔ L.view as a = some v := by
  unfold loadAccount Store.view
  cases L a with
  | none => simp
  | some account => cases h : as account <;> simp [h]

/-- `Signer<'info>`. -/
def checkSigner (signers : List Pubkey) (a : Pubkey) : Result Unit :=
  require (a ∈ signers) (.anchor .accountNotSigner)

/-- `has_one` and `require_keys_eq!`. -/
def checkKeysEq (a b : Pubkey) (err : ProgramError) : Result Unit := require (a = b) err

variable [AddressSpace Pubkey]

/-- `Program<'info, System>`. -/
def checkSystemProgram (a : Pubkey) : Result Unit :=
  require (a = systemProgramId) (.anchor .invalidProgramId)

/-- `seeds = […], bump = …` on an existing account. -/
def checkSeeds (a : Pubkey) (seeds : List (Seed Pubkey)) (bump : UInt8) : Result Unit :=
  require (createProgramAddress seeds bump = some a) (.anchor .constraintSeeds)

/-- `init, seeds = […], bump`: the account must be at the canonical address of its seeds and must
not exist yet.  The result is its bump. -/
def initAccount (L : Ledger Pubkey Digest) (a : Pubkey) (seeds : List (Seed Pubkey)) :
    Result UInt8 := do
  require (a = (findProgramAddress seeds).1) (.anchor .constraintSeeds)
  require ((L a).isNone) .accountAlreadyInUse
  return (findProgramAddress seeds).2

@[simp] theorem initAccount_eq_ok {L : Ledger Pubkey Digest} {a : Pubkey}
    {seeds : List (Seed Pubkey)} {bump : UInt8} :
    initAccount L a seeds = .ok bump ↔
      a = (findProgramAddress seeds).1 ∧ L a = none ∧ (findProgramAddress seeds).2 = bump := by
  simp [initAccount]

end Anchor

/-! ### `utils/validation.rs` -/

section Validation

variable {Pubkey : Type} [DecidableEq Pubkey]

omit [DecidableEq Pubkey] in
/-- The seeds of the config. -/
def configSeeds : List (Seed Pubkey) := [.bytes configSeed]

/-- Block any flow that mutates state while the protocol is paused. -/
def assertNotPaused (config : GhosConfig Pubkey) : Result Unit :=
  require (!config.paused) (.ghos .paused)

/-- The signer is the protocol admin recorded in the config account. -/
def assertAdmin (config : GhosConfig Pubkey) (signer : Pubkey) : Result Unit :=
  checkKeysEq config.admin signer (.ghos .notAdmin)

/-- The capacity lies within the compile-time bounds. -/
def validateMixCapacity (capacity : UInt8) : Result Unit :=
  require (mixMinParticipants ≤ capacity ∧ capacity ≤ mixMaxParticipants) (.ghos .mixBelowMinimum)

end Validation

end Ghos
