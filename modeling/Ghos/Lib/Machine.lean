import Mathlib.Logic.Relation
import Mathlib.Tactic

/-!
# Machines whose steps may fail

A `Machine` is deterministic and reads one input at a time.  An input is either accepted, which
yields a new state and an output, or rejected with an error, and a rejected input leaves the state
as it was.

* `next`, `exec`, `stateAt`: one input, a run from any state, the state before the `i`-th input;
* `Accepts`, `AcceptedAt`: the inputs a state takes, and the positions of a run that are taken;
* `log`: the outputs of a run;
* `exec_invariant`, `log_invariant`, `stateAt_rel`: what every accepted step preserves, every run
  does;
* `exists_turning_point`: what holds late and did not hold at the start was made true by an
  accepted step in between;
* `Simulation`: if the steps of a machine move one of its components as the steps of another machine
  do, or not at all, then the component of a reachable state is reachable there;
* `Unwinding`: if the inputs outside `keep` do not change what an observer sees, and the inputs
  inside `keep` act on the observed part alone, then a run may be purged of the former;
* `behind`: a machine whose inputs are decoded first; it runs as the machine does on the inputs that
  decode.
-/

/-- A deterministic machine: a step yields a new state and an output, or fails. -/
structure Machine (σ α ε ω : Type*) where
  init : σ
  step : σ → α → Except ε (σ × ω)

namespace Machine

variable {σ α ε ω : Type*} (M : Machine σ α ε ω)

/-- The state after one input; a rejected input changes nothing. -/
def next (s : σ) (a : α) : σ :=
  match M.step s a with
  | .ok (s', _) => s'
  | .error _ => s

/-- The input `a` is accepted in the state `s`. -/
def Accepts (s : σ) (a : α) : Prop := ∃ out, M.step s a = .ok out

/-- The state after a run that starts in `s`. -/
def exec (s : σ) (run : List α) : σ := run.foldl M.next s

/-- The state in which the `i`-th input of a run from the initial state is read. -/
def stateAt (run : List α) (i : ℕ) : σ := M.exec M.init (run.take i)

/-- The `i`-th input of the run is `a`, and it is accepted. -/
def AcceptedAt (run : List α) (i : ℕ) (a : α) : Prop :=
  run[i]? = some a ∧ M.Accepts (M.stateAt run i) a

/-- The `i`-th input of a run that starts in `s` is `a`, and it is accepted. -/
def AcceptedFrom (s : σ) (run : List α) (i : ℕ) (a : α) : Prop :=
  run[i]? = some a ∧ M.Accepts (M.exec s (run.take i)) a

/-- The states of the runs from the initial state. -/
def Reachable (s : σ) : Prop := ∃ run, M.exec M.init run = s

variable {M}

/-! ### One step -/

theorem next_of_ok {s s' : σ} {a : α} {o : ω} (h : M.step s a = .ok (s', o)) :
    M.next s a = s' := by
  simp only [next, h]

theorem next_of_not_accepts {s : σ} {a : α} (h : ¬ M.Accepts s a) : M.next s a = s := by
  unfold next
  split
  · next s' o hok => exact absurd ⟨_, hok⟩ h
  · rfl

theorem Accepts.exists_next {s : σ} {a : α} (h : M.Accepts s a) :
    ∃ o, M.step s a = .ok (M.next s a, o) := by
  obtain ⟨⟨s', o⟩, hok⟩ := h
  exact ⟨o, by rw [next_of_ok hok]; exact hok⟩

theorem accepts_iff_isOk {s : σ} {a : α} : M.Accepts s a ↔ (M.step s a).isOk = true := by
  unfold Accepts
  cases M.step s a with
  | ok out => exact iff_of_true ⟨out, rfl⟩ rfl
  | error e => exact iff_of_false (by rintro ⟨out, h⟩; cases h) Bool.false_ne_true

instance (s : σ) (a : α) : Decidable (M.Accepts s a) := decidable_of_iff _ accepts_iff_isOk.symm

instance [DecidableEq α] (run : List α) (i : ℕ) (a : α) : Decidable (M.AcceptedAt run i a) :=
  inferInstanceAs (Decidable (_ ∧ _))

/-- A property of the state that accepted steps preserve is preserved by `next`. -/
theorem next_invariant {P : σ → Prop} {s : σ} {a : α} (hs : P s)
    (hstep : ∀ s' o, M.step s a = .ok (s', o) → P s') : P (M.next s a) := by
  by_cases h : M.Accepts s a
  · obtain ⟨o, ho⟩ := h.exists_next
    exact hstep _ o ho
  · rwa [next_of_not_accepts h]

/-! ### Runs -/

@[simp] theorem exec_nil (s : σ) : M.exec s [] = s := rfl

@[simp] theorem exec_cons (s : σ) (a : α) (run : List α) :
    M.exec s (a :: run) = M.exec (M.next s a) run := rfl

theorem exec_append (s : σ) (run run' : List α) :
    M.exec s (run ++ run') = M.exec (M.exec s run) run' := by
  simp [exec, List.foldl_append]

theorem exec_concat (s : σ) (run : List α) (a : α) :
    M.exec s (run ++ [a]) = M.next (M.exec s run) a := by
  rw [exec_append, exec_cons, exec_nil]

/-- What holds at the start and is preserved by the accepted inputs of the run holds at its end. -/
theorem exec_invariant {P : σ → Prop} {s : σ} {run : List α} (hs : P s)
    (hstep : ∀ a ∈ run, ∀ s s' o, P s → M.step s a = .ok (s', o) → P s') :
    P (M.exec s run) := by
  induction run generalizing s with
  | nil => exact hs
  | cons a run ih =>
    refine ih ?_ (fun b hb => hstep b (List.mem_cons_of_mem a hb))
    exact next_invariant hs fun s' o => hstep a List.mem_cons_self s s' o hs

theorem reachable_stateAt (run : List α) (i : ℕ) : M.Reachable (M.stateAt run i) :=
  ⟨run.take i, rfl⟩

theorem Reachable.exec {s : σ} (hs : M.Reachable s) (run : List α) :
    M.Reachable (M.exec s run) := by
  obtain ⟨pre, rfl⟩ := hs
  exact ⟨pre ++ run, exec_append _ _ _⟩

theorem Reachable.next {s : σ} (hs : M.Reachable s) (a : α) : M.Reachable (M.next s a) :=
  hs.exec [a]

/-- An invariant holds in every reachable state. -/
theorem Reachable.invariant {P : σ → Prop} (hinit : P M.init)
    (hstep : ∀ s a s' o, P s → M.step s a = .ok (s', o) → P s') {s : σ} (hs : M.Reachable s) :
    P s := by
  obtain ⟨run, rfl⟩ := hs
  exact exec_invariant hinit fun a _ s s' o => hstep s a s' o

/-- The inputs of a longer run are those of its head and of its tail. -/
theorem acceptedFrom_cons {s : σ} {a b : α} {run : List α} {i : ℕ} :
    M.AcceptedFrom s (a :: run) (i + 1) b ↔ M.AcceptedFrom (M.next s a) run i b := Iff.rfl

theorem acceptedFrom_zero {s : σ} {a b : α} {run : List α} :
    M.AcceptedFrom s (a :: run) 0 b ↔ a = b ∧ M.Accepts s b := by
  simp [AcceptedFrom]

theorem AcceptedFrom.of_take {s : σ} {run : List α} {n i : ℕ} {a : α}
    (h : M.AcceptedFrom s (run.take n) i a) : M.AcceptedFrom s run i a := by
  obtain ⟨hget, hacc⟩ := h
  rw [List.getElem?_take, ite_eq_iff] at hget
  obtain ⟨hlt, hget⟩ | ⟨-, hnone⟩ := hget
  · rw [List.take_take, min_eq_left hlt.le] at hacc
    exact ⟨hget, hacc⟩
  · cases hnone

/-- What holds at the start, and is preserved by each input accepted on the way, holds at the
end. -/
theorem exec_invariant_of_acceptedFrom {P : σ → Prop} {s : σ} {run : List α} (hs : P s)
    (hstep : ∀ i a, M.AcceptedFrom s run i a → P (M.exec s (run.take i)) →
      P (M.next (M.exec s (run.take i)) a)) :
    P (M.exec s run) := by
  induction run generalizing s with
  | nil => exact hs
  | cons a run ih =>
    refine ih ?_ fun i b hb => hstep (i + 1) b (acceptedFrom_cons.2 hb)
    by_cases ha : M.Accepts s a
    · exact hstep 0 a (acceptedFrom_zero.2 ⟨rfl, ha⟩) hs
    · rwa [next_of_not_accepts ha]

/-- A run without accepted inputs stays where it is. -/
theorem exec_of_not_acceptedFrom {s : σ} {run : List α} (h : ∀ i a, ¬ M.AcceptedFrom s run i a) :
    M.exec s run = s :=
  exec_invariant_of_acceptedFrom (P := fun s' => s' = s) rfl fun i a ha => absurd ha (h i a)

/-! ### Outputs -/

/-- The outputs of a run that starts in `s`, in order; a rejected input has none. -/
def log (M : Machine σ α ε ω) (s : σ) : List α → List ω
  | [] => []
  | a :: run =>
    match M.step s a with
    | .ok (s', o) => o :: log M s' run
    | .error _ => log M s run

theorem log_of_not_acceptedFrom {s : σ} {run : List α} (h : ∀ i a, ¬ M.AcceptedFrom s run i a) :
    M.log s run = [] := by
  induction run generalizing s with
  | nil => rfl
  | cons a run ih =>
    have ha : ¬ M.Accepts s a := fun hacc => h 0 a (acceptedFrom_zero.2 ⟨rfl, hacc⟩)
    have hrest : M.log s run = [] := ih fun i b hb =>
      h (i + 1) b (acceptedFrom_cons.2 (by rwa [next_of_not_accepts ha]))
    unfold log
    split
    · next hok => exact absurd ⟨_, hok⟩ ha
    · exact hrest

theorem log_append (s : σ) (run run' : List α) :
    M.log s (run ++ run') = M.log s run ++ M.log (M.exec s run) run' := by
  induction run generalizing s with
  | nil => rfl
  | cons a run ih =>
    simp only [List.cons_append, log, exec_cons, next]
    cases M.step s a with
    | ok out => exact congrArg (out.2 :: ·) (ih out.1)
    | error e => exact ih s

/-- What relates the state to the outputs so far, and is preserved by the accepted inputs, relates
them after every run. -/
theorem log_invariant {P : σ → List ω → Prop} (hinit : P M.init [])
    (hstep : ∀ s l a s' o, M.Reachable s → P s l → M.step s a = .ok (s', o) → P s' (l ++ [o]))
    (run : List α) : P (M.exec M.init run) (M.log M.init run) := by
  induction run using List.reverseRecOn with
  | nil => exact hinit
  | append_singleton run a ih =>
    rw [exec_concat, log_append, log, next]
    cases h : M.step (M.exec M.init run) a with
    | ok out => exact hstep _ _ a _ _ ⟨run, rfl⟩ ih h
    | error e => simpa only [log, List.append_nil] using ih

/-! ### Positions of a run -/

theorem stateAt_length (run : List α) : M.stateAt run run.length = M.exec M.init run := by
  rw [stateAt, List.take_length]

theorem stateAt_succ {run : List α} {i : ℕ} {a : α} (h : run[i]? = some a) :
    M.stateAt run (i + 1) = M.next (M.stateAt run i) a := by
  rw [stateAt, stateAt, List.take_add_one, h, Option.toList_some, exec_concat]

theorem stateAt_succ_of_none {run : List α} {i : ℕ} (h : run[i]? = none) :
    M.stateAt run (i + 1) = M.stateAt run i := by
  rw [stateAt, stateAt, List.take_add_one, h, Option.toList_none, List.append_nil]

theorem AcceptedAt.exists_step {run : List α} {i : ℕ} {a : α} (h : M.AcceptedAt run i a) :
    ∃ o, M.step (M.stateAt run i) a = .ok (M.stateAt run (i + 1), o) := by
  rw [stateAt_succ h.1]
  exact h.2.exists_next

theorem AcceptedAt.lt_length {run : List α} {i : ℕ} {a : α} (h : M.AcceptedAt run i a) :
    i < run.length :=
  (List.getElem?_eq_some_iff.1 h.1).1

theorem AcceptedAt.unique {run : List α} {i : ℕ} {a b : α} (h : M.AcceptedAt run i a)
    (h' : M.AcceptedAt run i b) : a = b :=
  Option.some.inj (h.1.symm.trans h'.1)

/-- A step of the run between two positions either leaves the state as it was or is accepted. -/
theorem stateAt_succ_cases (run : List α) (i : ℕ) :
    M.stateAt run (i + 1) = M.stateAt run i ∨ ∃ a, M.AcceptedAt run i a := by
  cases h : run[i]? with
  | none => exact .inl (stateAt_succ_of_none h)
  | some a =>
    by_cases ha : M.Accepts (M.stateAt run i) a
    · exact .inr ⟨a, h, ha⟩
    · exact .inl (by rw [stateAt_succ h, next_of_not_accepts ha])

/-- The states of a run climb every preorder that accepted steps from reachable states climb. -/
theorem stateAt_rel {R : σ → σ → Prop} (hrefl : ∀ s, R s s)
    (htrans : ∀ s t u, R s t → R t u → R s u)
    (hstep : ∀ s a s' o, M.Reachable s → M.step s a = .ok (s', o) → R s s') (run : List α)
    {i j : ℕ} (hij : i ≤ j) : R (M.stateAt run i) (M.stateAt run j) := by
  induction j, hij using Nat.le_induction with
  | base => exact hrefl _
  | succ j _ ih =>
    rcases stateAt_succ_cases (M := M) run j with heq | ⟨a, ha⟩
    · rwa [heq]
    · obtain ⟨o, ho⟩ := ha.exists_step
      exact htrans _ _ _ ih (hstep _ a _ o (reachable_stateAt run j) ho)

/-- A property that fails at the start and holds at position `n` was made true by an accepted
input before `n`. -/
theorem exists_turning_point {P : σ → Prop} {run : List α} (hinit : ¬ P M.init) {n : ℕ}
    (hn : P (M.stateAt run n)) :
    ∃ i a, i < n ∧ M.AcceptedAt run i a ∧ ¬ P (M.stateAt run i) ∧ P (M.stateAt run (i + 1)) := by
  induction n with
  | zero => exact absurd hn hinit
  | succ n ih =>
    by_cases h : P (M.stateAt run n)
    -- it held one step earlier already
    · obtain ⟨i, a, hi, rest⟩ := ih h
      exact ⟨i, a, hi.trans n.lt_succ_self, rest⟩
    · rcases stateAt_succ_cases (M := M) run n with heq | ⟨a, ha⟩
      · rw [heq] at hn
        exact absurd hn h
      · exact ⟨n, a, n.lt_succ_self, ha, h, hn⟩

/-! ### Components -/

/-- Seen through `π`, an accepted step of `M` is an accepted step of `N` or no step. -/
structure Simulation {τ β ε' ω' : Type*} (M : Machine σ α ε ω) (N : Machine τ β ε' ω')
    (π : σ → τ) : Prop where
  init : π M.init = N.init
  step : ∀ s a s' o, M.step s a = .ok (s', o) →
    π s' = π s ∨ ∃ b o', N.step (π s) b = .ok (π s', o')

theorem Simulation.reachable {τ β ε' ω' : Type*} {N : Machine τ β ε' ω'} {π : σ → τ}
    (S : Simulation M N π) {s : σ} (hs : M.Reachable s) : N.Reachable (π s) := by
  refine hs.invariant (P := fun s => N.Reachable (π s)) ⟨[], S.init.symm⟩ ?_
  intro s a s' o hreach hstep
  rcases S.step s a s' o hstep with heq | ⟨b, o', hb⟩
  · rwa [heq]
  · rw [← next_of_ok hb]
    exact hreach.next b

/-! ### Purging a run -/

/-- The inputs outside `keep` are invisible to an observer of `agree`, and the inputs inside `keep`
act alike on states the observer cannot tell apart.  Both may rely on the invariant `Inv`. -/
structure Unwinding (M : Machine σ α ε ω) (Inv : σ → Prop) (keep : α → Prop)
    (agree : σ → σ → Prop) : Prop where
  inv_step : ∀ s a s' o, Inv s → M.step s a = .ok (s', o) → Inv s'
  symm : ∀ s t, agree s t → agree t s
  trans : ∀ s t u, agree s t → agree t u → agree s u
  skip : ∀ s a, Inv s → ¬ keep a → agree (M.next s a) s
  accepts : ∀ s t a, Inv s → Inv t → keep a → agree s t → (M.Accepts s a ↔ M.Accepts t a)
  follow : ∀ s t a, Inv s → Inv t → keep a → agree s t → agree (M.next s a) (M.next t a)

namespace Unwinding

variable {Inv : σ → Prop} {keep : α → Prop} {agree : σ → σ → Prop}

theorem inv_next (U : Unwinding M Inv keep agree) {s : σ} (hs : Inv s) (a : α) :
    Inv (M.next s a) :=
  next_invariant hs fun s' o => U.inv_step s a s' o hs

/-- Along a run and its purged run, the observer sees the same states. -/
theorem agree_exec_filter (U : Unwinding M Inv keep agree) [DecidablePred keep] (run : List α)
    {s t : σ} (hs : Inv s) (ht : Inv t) (hst : agree s t) :
    agree (M.exec s run) (M.exec t (run.filter keep)) := by
  induction run generalizing s t with
  | nil => exact hst
  | cons a run ih =>
    by_cases ha : keep a
    · rw [List.filter_cons_of_pos (by simpa using ha)]
      exact ih (U.inv_next hs a) (U.inv_next ht a) (U.follow s t a hs ht ha hst)
    · rw [List.filter_cons_of_neg (by simpa using ha)]
      exact ih (U.inv_next hs a) ht (U.trans _ _ _ (U.skip s a hs ha) hst)

theorem inv_exec (U : Unwinding M Inv keep agree) {s : σ} (hs : Inv s) (run : List α) :
    Inv (M.exec s run) :=
  exec_invariant hs fun a _ s s' o => U.inv_step s a s' o

/-- A kept input meets the same fate after the run as after the purged run. -/
theorem accepts_filter_iff (U : Unwinding M Inv keep agree) [DecidablePred keep] (run : List α)
    {s t : σ} (hs : Inv s) (ht : Inv t) (hst : agree s t) {a : α} (ha : keep a) :
    M.Accepts (M.exec s run) a ↔ M.Accepts (M.exec t (run.filter keep)) a :=
  U.accepts _ _ a (U.inv_exec hs run) (U.inv_exec ht _) ha (U.agree_exec_filter run hs ht hst)

/-- An input the observer does not see may be read before or after any other. -/
theorem agree_swap (U : Unwinding M Inv keep agree) {s : σ} (hs : Inv s) (a : α) {b : α}
    (hb : ¬ keep b) : agree (M.next (M.next s a) b) (M.next (M.next s b) a) := by
  have hleft : agree (M.next (M.next s a) b) (M.next s a) := U.skip _ b (U.inv_next hs a) hb
  have hright : agree (M.next (M.next s b) a) (M.next s a) := by
    by_cases ha : keep a
    -- `a` acts alike with and without `b` before it
    · exact U.follow _ _ a (U.inv_next hs b) hs ha (U.skip s b hs hb)
    · exact U.trans _ _ _ (U.skip _ a (U.inv_next hs b) ha)
        (U.trans _ _ _ (U.skip s b hs hb) (U.symm _ _ (U.skip s a hs ha)))
  exact U.trans _ _ _ hleft (U.symm _ _ hright)

/-- Nor does it change the fate of an input that the observer does see. -/
theorem accepts_next_iff (U : Unwinding M Inv keep agree) {s : σ} (hs : Inv s) {a b : α}
    (ha : keep a) (hb : ¬ keep b) : M.Accepts (M.next s b) a ↔ M.Accepts s a :=
  U.accepts _ _ a (U.inv_next hs b) hs ha (U.skip s b hs hb)

end Unwinding

/-! ### Inputs that are decoded first -/

section Behind

variable {β ε' : Type*}

/-- The machine that decodes an input before it reads it. -/
def behind (M : Machine σ α ε ω) (decode : β → Except ε' α) : Machine σ β (ε' ⊕ ε) ω where
  init := M.init
  step s b :=
    match decode b with
    | .ok a => (M.step s a).mapError .inr
    | .error e => .error (.inl e)

variable {decode : β → Except ε' α} {s : σ} {a : α} {b : β}

theorem behind_step_of_ok (h : decode b = .ok a) :
    (M.behind decode).step s b = (M.step s a).mapError .inr := by
  simp only [behind, h]

theorem behind_step_of_error {e : ε'} (h : decode b = .error e) :
    (M.behind decode).step s b = .error (.inl e) := by
  simp only [behind, h]

/-- An accepted input has been decoded, and what it says is accepted. -/
theorem exists_decode_of_behind_accepts (h : (M.behind decode).Accepts s b) :
    ∃ a, decode b = .ok a ∧ M.Accepts s a := by
  obtain ⟨out, hout⟩ := h
  cases hb : decode b with
  | error e =>
    rw [behind_step_of_error hb] at hout
    cases hout
  | ok a =>
    rw [behind_step_of_ok hb] at hout
    cases hs : M.step s a with
    | error e =>
      rw [hs] at hout
      cases hout
    | ok out' => exact ⟨a, rfl, out', hs⟩

theorem behind_next_of_ok (h : decode b = .ok a) : (M.behind decode).next s b = M.next s a := by
  rw [next, next, behind_step_of_ok h]
  cases M.step s a <;> rfl

theorem behind_next_of_error {e : ε'} (h : decode b = .error e) :
    (M.behind decode).next s b = s := by
  rw [next, behind_step_of_error h]

/-- What is left of a run behind the decoder. -/
def decoded (decode : β → Except ε' α) (run : List β) : List α :=
  run.filterMap fun b => (decode b).toOption

theorem decoded_cons_of_ok (h : decode b = .ok a) (run : List β) :
    decoded decode (b :: run) = a :: decoded decode run :=
  List.filterMap_cons_some (by rw [h]; rfl)

theorem decoded_cons_of_error {e : ε'} (h : decode b = .error e) (run : List β) :
    decoded decode (b :: run) = decoded decode run :=
  List.filterMap_cons_none (by rw [h]; rfl)

theorem exec_behind (s : σ) (run : List β) :
    (M.behind decode).exec s run = M.exec s (decoded decode run) := by
  induction run generalizing s with
  | nil => rfl
  | cons b run ih =>
    cases h : decode b with
    | ok a => rw [exec_cons, ih, behind_next_of_ok h, decoded_cons_of_ok h, exec_cons]
    | error e => rw [exec_cons, ih, behind_next_of_error h, decoded_cons_of_error h]

end Behind

end Machine
