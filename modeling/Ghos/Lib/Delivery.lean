import Ghos.Lib.Machine

/-!
# Inputs that are delivered again

A sender that hears no answer sends again, so a machine may read the same request several times.
Some inputs are *deeds*, which a state shows as done: the machine rejects a deed that is done, and
it stays done until an input that undoes it is accepted.

* `Deeds`: what one step does to deeds;
* `Deeds.undone_between`: between two times that a deed is done, it is undone;
* `Redelivered`: the runs with deeds that are delivered again, at any later time before they are
  undone;
* `Deeds.redelivered`: such a run does what the run does.
-/

namespace Machine

variable {σ α ε ω δ : Type*} {M : Machine σ α ε ω} {deed : α → Option δ} {Undoes : δ → δ → Prop}
  {Done : σ → δ → Prop} {run run' : List α} {a b : α} {d : δ} {i j : ℕ}

/-- The deeds of the inputs, which of them undoes which, and the states in which one is done. -/
structure Deeds (M : Machine σ α ε ω) (deed : α → Option δ) (Undoes : δ → δ → Prop)
    (Done : σ → δ → Prop) : Prop where
  done : ∀ s a s' o d, M.Reachable s → M.step s a = .ok (s', o) → deed a = some d → Done s' d
  rejects : ∀ s a d, M.Reachable s → Done s d → deed a = some d → ¬ M.Accepts s a
  keeps : ∀ s a s' o d, M.Reachable s → Done s d → M.step s a = .ok (s', o) →
    (∀ d', deed a = some d' → ¬ Undoes d' d) → Done s' d

/-- No input accepted after the `i`-th and before the `j`-th undoes the deed. -/
def Undisturbed (M : Machine σ α ε ω) (deed : α → Option δ) (Undoes : δ → δ → Prop) (run : List α)
    (i j : ℕ) (d : δ) : Prop :=
  ∀ k c d', i < k → k < j → M.AcceptedAt run k c → deed c = some d' → ¬ Undoes d' d

theorem Undisturbed.mono {k : ℕ} (h : Undisturbed M deed Undoes run i j d) (hkj : k ≤ j) :
    Undisturbed M deed Undoes run i k d :=
  fun l c d' hil hlk => h l c d' hil (hlk.trans_le hkj)

/-- A deed is done from the input after it on, until it is undone. -/
theorem Deeds.done_stateAt (D : Deeds M deed Undoes Done) (ha : M.AcceptedAt run i a)
    (hd : deed a = some d) (hij : i < j) (hrun : Undisturbed M deed Undoes run i j d) :
    Done (M.stateAt run j) d := by
  induction j, hij using Nat.le_induction with
  | base =>
    obtain ⟨o, ho⟩ := ha.exists_step
    exact D.done _ a _ o d (reachable_stateAt run i) ho hd
  | succ j hij ih =>
    have hdone := ih (hrun.mono j.le_succ)
    rcases stateAt_succ_cases (M := M) run j with heq | ⟨c, hc⟩
    · rwa [heq]
    · obtain ⟨o, ho⟩ := hc.exists_step
      exact D.keeps _ c _ o d (reachable_stateAt run j) hdone ho
        fun d' => hrun j c d' hij j.lt_succ_self hc

/-- A deed that is done twice has been undone in between. -/
theorem Deeds.undone_between (D : Deeds M deed Undoes Done) (ha : M.AcceptedAt run i a)
    (hb : M.AcceptedAt run j b) (hij : i < j) (hda : deed a = some d) (hdb : deed b = some d) :
    ∃ k c d', i < k ∧ k < j ∧ M.AcceptedAt run k c ∧ deed c = some d' ∧ Undoes d' d := by
  by_contra hno
  have hrun : Undisturbed M deed Undoes run i j d :=
    fun k c d' hik hkj hc hd' hundo => hno ⟨k, c, d', hik, hkj, hc, hd', hundo⟩
  exact D.rejects _ b d (reachable_stateAt run j) (D.done_stateAt ha hda hij hrun) hdb hb.2

/-! ### Runs with deeds that are delivered again -/

/-- `run` with further inputs, each of them a deed that was done before and not undone since. -/
inductive Redelivered (M : Machine σ α ε ω) (deed : α → Option δ) (Undoes : δ → δ → Prop)
    (run : List α) : List α → Prop
  | refl : Redelivered M deed Undoes run run
  | again {run' : List α} {a b : α} {d : δ} {i j : ℕ} (h : Redelivered M deed Undoes run run')
      (ha : M.AcceptedAt run' i a) (hda : deed a = some d) (hdb : deed b = some d) (hij : i < j)
      (hrun : Undisturbed M deed Undoes run' i j d) :
      Redelivered M deed Undoes run (run'.take j ++ b :: run'.drop j)

/-- A rejected input may be struck out. -/
theorem exec_insert (h : ¬ M.Accepts (M.stateAt run j) b) :
    M.exec M.init (run.take j ++ b :: run.drop j) = M.exec M.init run ∧
      M.log M.init (run.take j ++ b :: run.drop j) = M.log M.init run := by
  have hnext : M.next (M.exec M.init (run.take j)) b = M.exec M.init (run.take j) :=
    next_of_not_accepts h
  have hlog : M.log (M.exec M.init (run.take j)) (b :: run.drop j) =
      M.log (M.exec M.init (run.take j)) (run.drop j) := by
    rw [log]
    split
    · next hok => exact absurd ⟨_, hok⟩ h
    · rfl
  constructor
  · rw [exec_append, exec_cons, hnext, ← exec_append, List.take_append_drop]
  · rw [log_append, hlog, ← log_append, List.take_append_drop]

/-- Deeds that are delivered again have no effect. -/
theorem Deeds.redelivered (D : Deeds M deed Undoes Done) (h : Redelivered M deed Undoes run run') :
    M.exec M.init run' = M.exec M.init run ∧ M.log M.init run' = M.log M.init run := by
  induction h with
  | refl => exact ⟨rfl, rfl⟩
  | @again run' a b d i j h ha hda hdb hij hrun ih =>
    have hdone := D.done_stateAt ha hda hij hrun
    obtain ⟨hexec, hlog⟩ := exec_insert (D.rejects _ b d (reachable_stateAt run' j) hdone hdb)
    exact ⟨hexec.trans ih.1, hlog.trans ih.2⟩

end Machine
