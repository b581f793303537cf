import Ghos.Lib.Atomic
import Mathlib.Algebra.BigOperators.Pi
import Mathlib.Algebra.Order.Monoid.Canonical.Defs
import Mathlib.Algebra.BigOperators.Group.List.Basic

/-!
# Bookkeeping

A book holds an amount for each of its entries, and a posting takes an amount from one entry to
another.

* `Moves`, `post`: one posting;
* `Moves.sum`: what it does to the sum over a set of entries;
* `Machine.exec_balance`: if every input of a run changes a measure of the state by what its output
  says, then over the run the log accounts for the difference.
-/

section Moves

variable {ι G : Type*} [DecidableEq ι] [AddCommMonoid G]

/-- The amount `x` goes from the entry `p` to the entry `q`. -/
def Moves (book book' : ι → G) (p q : ι) (x : G) : Prop :=
  ∀ r, book' r + (if r = p then x else 0) = book r + (if r = q then x else 0)

variable {book book' : ι → G} {p q r : ι} {x : G}

/-- Other entries keep their amounts. -/
theorem Moves.of_ne (h : Moves book book' p q x) (hp : r ≠ p) (hq : r ≠ q) : book' r = book r := by
  have hr := h r
  rwa [if_neg hp, if_neg hq, add_zero, add_zero] at hr

/-- Only the entry that pays can lose. -/
theorem Moves.le_of_ne [PartialOrder G] [CanonicallyOrderedAdd G] (h : Moves book book' p q x)
    (hp : r ≠ p) : book r ≤ book' r := by
  have hr := h r
  rw [if_neg hp, add_zero] at hr
  rw [hr]
  exact le_self_add

/-- A set of entries loses what is paid out of it and gains what is paid into it. -/
theorem Moves.sum (h : Moves book book' p q x) (s : Finset ι) :
    ∑ r ∈ s, book' r + (if p ∈ s then x else 0) = ∑ r ∈ s, book r + (if q ∈ s then x else 0) := by
  have hsum : ∀ t : ι, ∑ r ∈ s, (if r = t then x else 0) = if t ∈ s then x else 0 := fun t => by
    rw [Finset.sum_ite_eq' s t fun _ => x]
  rw [← hsum p, ← hsum q, ← Finset.sum_add_distrib, ← Finset.sum_add_distrib]
  exact Finset.sum_congr rfl fun r _ => h r

/-- The book after a posting. -/
def post (book : ι → ℕ) (p q : ι) (x : ℕ) : ι → ℕ :=
  fun r => book r - (if r = p then x else 0) + (if r = q then x else 0)

/-- An entry that holds the amount can pay it. -/
theorem moves_post {book : ι → ℕ} {x : ℕ} (h : x ≤ book p) (q : ι) :
    Moves book (post book p q x) p q x := by
  intro r
  by_cases hr : r = p
  · subst hr
    simp only [post, if_true]
    omega
  · simp only [post, if_neg hr]
    omega

end Moves

namespace Machine

variable {σ α ε ω G : Type*} [AddCommMonoid G] {M : Machine σ α ε ω}

/-- The measure at the end, with all that was paid out, is the measure at the start with all that
was received. -/
theorem exec_balance {P : σ → Prop} (measure : σ → G) {paid received : ω → G} {s : σ}
    {run : List α} (hs : P s)
    (hstep : ∀ a ∈ run, ∀ s s' o, P s → M.step s a = .ok (s', o) →
      P s' ∧ measure s' + paid o = measure s + received o) :
    measure (M.exec s run) + ((M.log s run).map paid).sum =
      measure s + ((M.log s run).map received).sum := by
  induction run generalizing s with
  | nil => rfl
  | cons a run ih =>
    have hrest := fun b hb => hstep b (List.mem_cons_of_mem a hb)
    rw [exec_cons]
    cases h : M.step s a with
    | error e =>
      have hnot : ¬ M.Accepts s a := by
        rintro ⟨out, hok⟩
        cases hok.symm.trans h
      rw [next_of_not_accepts hnot]
      simp only [log, h]
      exact ih hs hrest
    | ok out =>
      obtain ⟨s', o⟩ := out
      obtain ⟨hs', hmeasure⟩ := hstep a List.mem_cons_self s s' o hs h
      have hih := ih hs' hrest
      rw [next_of_ok h]
      simp only [log, h, List.map_cons, List.sum_cons]
      calc measure (M.exec s' run) + (paid o + ((M.log s' run).map paid).sum)
          = (measure (M.exec s' run) + ((M.log s' run).map paid).sum) + paid o := by
            rw [add_comm (paid o), add_assoc]
        _ = (measure s' + paid o) + ((M.log s' run).map received).sum := by
            rw [hih, add_right_comm]
        _ = measure s + (received o + ((M.log s' run).map received).sum) := by
            rw [hmeasure, add_assoc]

/-- The same over transactions. -/
theorem exec_atomic_balance {P : σ → Prop} (measure : σ → G) {paid received : ω → G} {s : σ}
    {txs : List (List α)} (hs : P s)
    (hstep : ∀ tx ∈ txs, ∀ a ∈ tx, ∀ s s' o, P s → M.step s a = .ok (s', o) →
      P s' ∧ measure s' + paid o = measure s + received o) :
    measure (M.atomic.exec s txs) + ((M.atomic.log s txs).flatten.map paid).sum =
      measure s + ((M.atomic.log s txs).flatten.map received).sum := by
  rw [exec_atomic, log_atomic]
  refine exec_balance measure hs fun a ha => ?_
  obtain ⟨tx, htx, hmem⟩ := exists_mem_of_mem_committed ha
  exact hstep tx htx a hmem

end Machine
