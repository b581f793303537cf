import Ghos.Lib.Retry
import Ghos.Client.Errors
import Mathlib.Data.Nat.Count

/-!
# Submitting with retries

`sendAndConfirmWithRetry` of `sdk/src/utils.ts` submits a transaction again when the error of a
submission looks transient.  Each submission is signed anew, so a cluster cannot tell that it has
executed the instructions before.

* `executesAtMostOnce_iff`: one call executes the instructions at most once, unless it makes a
  submission that lands after another one that has landed;
* `not_submits_of_programError`: an error of the program ends the call;
* `exists_outcome`: the call ends unless it may retry for ever.
-/

namespace Ghos

namespace Sdk

open Js (Number toLowerCase)

/-! ### Retries -/

/-- `SDK_ERROR_CODES.RetryExhausted`. -/
def retryExhausted : ℕ := 9016

/-- `DEFAULT_RETRY_POLICY.maxRetries`. -/
def defaultMaxRetries : Number := .finite 3

def SdkError.message : SdkError → String
  | .ghosSdkError _ message | .error message => message

/-- The message of an error, or of `undefined`. -/
def extractMessage : Option SdkError → String
  | none => ""
  | some err => err.message

/-- What `defaultShouldRetry` looks for. -/
def transientPhrases : List String :=
  ["blockhash not found", "429", "too many requests", "socket hang up", "econnreset", "etimedout",
    "enotfound", "503", "502", "timeout"]

/-- Predicate used by default: true for obviously transient RPC errors. -/
def defaultShouldRetry (err : SdkError) : Bool :=
  let message := toLowerCase (extractMessage (some err)).toList
  transientPhrases.any fun phrase => phrase.toList <:+: message

/-- The options that decide about another attempt. -/
structure RetryOptions where
  maxRetries : Option Number := none
  shouldRetry : Option (SdkError → ℕ → Bool) := none

section Loop

variable {σ α : Type}

/-- Run an operation with retries. -/
def retry (op : σ → Except SdkError α × σ) (options : RetryOptions) : RetryLoop σ SdkError α :=
  let maxRetries := options.maxRetries.getD defaultMaxRetries
  let shouldRetry := options.shouldRetry.getD fun err _ => defaultShouldRetry err
  { op
    within := fun attempt => maxRetries.AtLeast attempt
    again := fun err attempt => ! (maxRetries.Equals attempt || ! shouldRetry err attempt) }

/-- What `retry` returns or throws at the end. -/
def retryOutcome (s : RetryLoop.State σ SdkError α) : Option (Except SdkError α) :=
  s.verdict.map fun
    | .returned a => .ok a
    | .exhausted => .error (.ghosSdkError retryExhausted
        s!"retry exhausted after {s.attempt + 1} attempt(s): {extractMessage s.lastError}")

end Loop

/-! ### Submissions -/

/-- What becomes of a submission: whether the cluster executes it, and what the client is told. -/
structure Submission (Signature : Type) where
  lands : Bool
  report : Except Thrown Signature

/-- What becomes of the submissions, in their order. -/
abbrev Cluster (Signature : Type) := ℕ → Submission Signature

/-- The submissions so far, and how often the instructions were executed. -/
structure Ledger where
  submissions : ℕ
  executions : ℕ
  deriving DecidableEq

def Ledger.empty : Ledger := ⟨0, 0⟩

/-- The options of a call that decide about another submission. -/
structure SendOptions where
  maxRetries : Option Number := none

section Send

variable {Signature : Type} (cluster : Cluster Signature)

/-- One submission, with a fresh blockhash and fresh signatures. -/
def sendAndConfirmTransaction (ledger : Ledger) : Except Thrown Signature × Ledger :=
  let submission := cluster ledger.submissions
  let executions := if submission.lands then ledger.executions + 1 else ledger.executions
  (submission.report, { submissions := ledger.submissions + 1, executions })

/-- Wrap the send-and-confirm flow with the SDK's retry policy. -/
def sendAndConfirmWithRetry (opts : SendOptions) : RetryLoop Ledger SdkError Signature :=
  retry
    (fun ledger =>
      let (report, ledger) := sendAndConfirmTransaction cluster ledger
      (report.mapError coerceToSdkError, ledger))
    { maxRetries := some (opts.maxRetries.getD defaultMaxRetries) }

/-- However far the call has come, it has executed the instructions at most once. -/
def ExecutesAtMostOnce (opts : SendOptions) : Prop :=
  ∀ n, ((sendAndConfirmWithRetry cluster opts).run .empty n).world.executions ≤ 1

/-- The call gets to the submission `j`: retries are left, and what is reported of the submissions
before it looks transient. -/
def Submits (opts : SendOptions) (j : ℕ) : Prop :=
  (opts.maxRetries.getD defaultMaxRetries).AtLeast j ∧ ∀ k < j, ∃ err,
    (cluster k).report = .error err ∧ defaultShouldRetry (coerceToSdkError err)

/-! ### The loop over the cluster -/

variable {cluster} {opts : SendOptions}

theorem within_sendAndConfirmWithRetry {k : ℕ} :
    (sendAndConfirmWithRetry cluster opts).within k ↔
      (opts.maxRetries.getD defaultMaxRetries).AtLeast k := by
  simp [sendAndConfirmWithRetry, retry]

theorem again_sendAndConfirmWithRetry {err : SdkError} {k : ℕ} :
    (sendAndConfirmWithRetry cluster opts).again err k ↔
      ¬ (opts.maxRetries.getD defaultMaxRetries).Equals k ∧ defaultShouldRetry err := by
  simp [sendAndConfirmWithRetry, retry]

theorem op_sendAndConfirmWithRetry (ledger : Ledger) :
    ((sendAndConfirmWithRetry cluster opts).op ledger).1 =
      (cluster ledger.submissions).report.mapError coerceToSdkError := rfl

/-- The ledger after `k` submissions counts those that landed. -/
theorem worldAt_sendAndConfirmWithRetry (k : ℕ) :
    (sendAndConfirmWithRetry cluster opts).worldAt .empty k =
      ⟨k, Nat.count (fun i => (cluster i).lands) k⟩ := by
  induction k with
  | zero => rfl
  | succ k ih =>
    rw [RetryLoop.worldAt, ih, Nat.count_succ]
    simp only [sendAndConfirmWithRetry, retry, sendAndConfirmTransaction, Ledger.mk.injEq, true_and]
    split <;> rfl

theorem mapError_eq_error {ε ε' α : Type} {f : ε → ε'} {x : Except ε α} {e : ε'} :
    x.mapError f = .error e ↔ ∃ err, x = .error err ∧ f err = e := by
  cases x <;> simp [Except.mapError]

/-- The submissions of the call are the attempts of the loop. -/
theorem made_iff_submits {j : ℕ} :
    (sendAndConfirmWithRetry cluster opts).Made .empty j ↔ Submits cluster opts j := by
  unfold RetryLoop.Made Submits
  rw [within_sendAndConfirmWithRetry]
  refine and_congr_right fun hj => forall₂_congr fun k hk => ?_
  have hle := hj.mono hk.le
  have hne := hj.not_equals hk
  simp only [RetryLoop.GoesOn, within_sendAndConfirmWithRetry, again_sendAndConfirmWithRetry,
    op_sendAndConfirmWithRetry, worldAt_sendAndConfirmWithRetry, mapError_eq_error]
  constructor
  · rintro ⟨-, -, ⟨err, herr, rfl⟩, -, hretry⟩
    exact ⟨err, herr, hretry⟩
  · rintro ⟨err, herr, hretry⟩
    exact ⟨hle, _, ⟨err, herr, rfl⟩, hne, hretry⟩

/-! ### How often the instructions are executed -/

theorem one_lt_count_iff {p : ℕ → Prop} [DecidablePred p] {n : ℕ} :
    1 < Nat.count p n ↔ ∃ i j, i < j ∧ j < n ∧ p i ∧ p j := by
  rw [Nat.count_eq_card_filter_range, Finset.one_lt_card_iff]
  simp only [Finset.mem_filter, Finset.mem_range]
  constructor
  · rintro ⟨i, j, ⟨hi, hpi⟩, ⟨hj, hpj⟩, hne⟩
    rcases lt_or_gt_of_ne hne with hlt | hlt
    · exact ⟨i, j, hlt, hj, hpi, hpj⟩
    · exact ⟨j, i, hlt, hi, hpj, hpi⟩
  · rintro ⟨i, j, hij, hj, hpi, hpj⟩
    exact ⟨i, j, ⟨hij.trans hj, hpi⟩, ⟨hj, hpj⟩, hij.ne⟩

variable (cluster opts) in
/-- The executions of a call are the submissions that landed among those it has made. -/
theorem exists_executions_eq_count (n : ℕ) :
    ∃ k, ((sendAndConfirmWithRetry cluster opts).run .empty n).world.executions =
        Nat.count (fun i => (cluster i).lands) k ∧ ∀ j < k, Submits cluster opts j := by
  obtain ⟨k, hw, hmade⟩ :=
    RetryLoop.exists_worldAt (L := sendAndConfirmWithRetry cluster opts) (w := .empty) n
  refine ⟨k, by rw [hw, worldAt_sendAndConfirmWithRetry], fun j hj => ?_⟩
  exact made_iff_submits.1 (hmade j hj)

/-- A submission that the call gets to counts. -/
theorem executions_of_submits {j : ℕ} (h : Submits cluster opts j) :
    ((sendAndConfirmWithRetry cluster opts).run .empty (j + 1)).world.executions =
      Nat.count (fun i => (cluster i).lands) (j + 1) := by
  rw [RetryLoop.run_world_of_made (made_iff_submits.2 h), worldAt_sendAndConfirmWithRetry]

end Send

variable {Signature : Type}

/-- A call executes the instructions at most once, unless it gets to a submission that lands and one
before it has landed too. -/
theorem executesAtMostOnce_iff (cluster : Cluster Signature) (opts : SendOptions) :
    ExecutesAtMostOnce cluster opts ↔ ∀ i j, i < j → (cluster i).lands → (cluster j).lands →
      ¬ Submits cluster opts j := by
  constructor
  · intro h i j hij hi hj hsubmits
    have hle := h (j + 1)
    rw [executions_of_submits hsubmits] at hle
    exact absurd (one_lt_count_iff.2 ⟨i, j, hij, j.lt_succ_self, hi, hj⟩) (not_lt.2 hle)
  · intro h n
    obtain ⟨k, heq, hsubmits⟩ := exists_executions_eq_count cluster opts n
    rw [heq]
    refine not_lt.1 fun hlt => ?_
    obtain ⟨i, j, hij, hj, hi, hlands⟩ := one_lt_count_iff.1 hlt
    exact h i j hij hi hlands (hsubmits j hj)

/-- A submission lands but is reported as a timeout of the gateway, and the next one lands too. -/
def Sample.gatewayTimeout : Cluster String
  | 0 => ⟨true, .error (.error { message := "504 Gateway Timeout" })⟩
  | _ => ⟨true, .ok "signature"⟩

/-- With the default options the instructions are executed twice. -/
theorem not_executesAtMostOnce : ¬ ExecutesAtMostOnce Sample.gatewayTimeout {} := by
  intro h
  have htwo : ((sendAndConfirmWithRetry Sample.gatewayTimeout {}).run .empty 2).world.executions =
      2 := by
    decide +kernel
  exact absurd (h 2) (by rw [htwo]; decide)

/-! ### The end of a call -/

/-- The search on lists of characters, which are quicker to look through than string literals. -/
theorem defaultShouldRetry_eq_false {code : ℕ} {message : String} {chars : List Char}
    (phrases : List (List Char)) (hphrases : transientPhrases = phrases.map String.ofList)
    (hmessage : message = String.ofList chars)
    (h : (phrases.any fun phrase => phrase <:+: toLowerCase chars) = false) :
    defaultShouldRetry (.ghosSdkError code message) = false := by
  simp only [defaultShouldRetry, extractMessage, SdkError.message, hmessage, hphrases, List.any_map,
    Function.comp_def, String.toList_ofList]
  exact h

/-- No message of the table looks transient. -/
theorem defaultShouldRetry_programError (name : GhosError) :
    defaultShouldRetry (programError name) = false := by
  cases name <;>
    exact defaultShouldRetry_eq_false [_, _, _, _, _, _, _, _, _, _] rfl rfl (by decide +kernel)

/-- An error of the program, recognised in a report, is the last one. -/
theorem not_submits_of_programError {cluster : Cluster Signature} {opts : SendOptions} {j k : ℕ}
    {input : ErrorObject} {name : GhosError} (hk : (cluster k).report = .error (.error input))
    (hcode : extractErrorCode input = some (.finite (ghosErrorCode name))) (hkj : k < j) :
    ¬ Submits cluster opts j := by
  rintro ⟨-, hall⟩
  obtain ⟨err, herr, hretry⟩ := hall k hkj
  obtain rfl := Except.error.inj (hk.symm.trans herr)
  rw [coerceToSdkError_of_extractErrorCode hcode, defaultShouldRetry_programError] at hretry
  exact absurd hretry Bool.false_ne_true

/-- A call returns or throws, unless it may retry for ever. -/
theorem exists_outcome (cluster : Cluster Signature) {opts : SendOptions}
    (h : opts.maxRetries ≠ some .posInfinity) :
    ∃ n, (retryOutcome ((sendAndConfirmWithRetry cluster opts).run .empty n)).isSome := by
  have hmax : opts.maxRetries.getD defaultMaxRetries ≠ .posInfinity := by
    cases hopt : opts.maxRetries with
    | none => decide
    | some m =>
      rintro rfl
      exact h hopt
  obtain ⟨k, hk⟩ := Number.exists_not_atLeast hmax
  refine ⟨k + 1, ?_⟩
  rw [retryOutcome, Option.isSome_map]
  refine RetryLoop.run_verdict_isSome ?_
  rw [← Bool.not_eq_true, within_sendAndConfirmWithRetry]
  exact hk

end Sdk

end Ghos
