import Mathlib.Tactic

/-!
# Retrying

An operation acts on a world, and it returns a value or fails.  A `RetryLoop` attempts it until it
returns, as long as the number of the attempt is `within` the bounds and a failure is to be tried
`again`.

* `step`, `run`: one turn of the loop, and the state after `n` turns;
* `worldAt`: the world before the `k`-th attempt, if the loop gets that far;
* `Made`: the loop makes its `k`-th attempt;
* `exists_worldAt`, `run_world_of_made`: a run sees the effects of the attempts that are made, and
  of each of them;
* `exists_of_returned`: what is returned comes from one of them;
* `run_verdict_isSome`: a loop with bounds ends.
-/

/-- An operation and the rules for its attempts. -/
structure RetryLoop (σ ε α : Type*) where
  op : σ → Except ε α × σ
  within : ℕ → Bool
  again : ε → ℕ → Bool

namespace RetryLoop

/-- How a loop ends. -/
inductive Verdict (α : Type*)
  | returned (a : α)
  | exhausted
  deriving DecidableEq

/-- A loop on its way, with a verdict once it has ended. -/
structure State (σ ε α : Type*) where
  attempt : ℕ
  world : σ
  lastError : Option ε
  verdict : Option (Verdict α)
  deriving DecidableEq

variable {σ ε α : Type*} (L : RetryLoop σ ε α) (w : σ)

/-- One turn of the loop. -/
def step (s : State σ ε α) : State σ ε α :=
  match s.verdict with
  | some _ => s
  | none =>
    if L.within s.attempt then
      match L.op s.world with
      | (.ok a, w) => { s with world := w, verdict := some (.returned a) }
      | (.error e, w) =>
        if L.again e s.attempt then
          { s with attempt := s.attempt + 1, world := w, lastError := some e }
        else { s with world := w, lastError := some e, verdict := some .exhausted }
    else { s with verdict := some .exhausted }

def start : State σ ε α := ⟨0, w, none, none⟩

/-- The state after `n` turns. -/
def run (n : ℕ) : State σ ε α := L.step^[n] (start w)

/-- The world after `k` attempts. -/
def worldAt : ℕ → σ
  | 0 => w
  | k + 1 => (L.op (worldAt k)).2

/-- The loop is still within its bounds at the attempt `k`, which fails and is tried again. -/
def GoesOn (k : ℕ) : Prop :=
  L.within k ∧ ∃ e, (L.op (L.worldAt w k)).1 = .error e ∧ L.again e k

/-- The loop makes the attempt `k`. -/
def Made (k : ℕ) : Prop := L.within k ∧ ∀ j < k, L.GoesOn w j

/-! ### One turn -/

variable {L w}

theorem step_of_verdict {s : State σ ε α} (h : s.verdict ≠ none) : L.step s = s := by
  obtain ⟨v, hv⟩ := Option.ne_none_iff_exists'.1 h
  simp only [step, hv]

/-- A turn that does not end the loop is an attempt that fails and is tried again. -/
theorem step_verdict_eq_none {s : State σ ε α} (h : (L.step s).verdict = none) :
    s.verdict = none ∧ L.within s.attempt ∧
      (∃ e, (L.op s.world).1 = .error e ∧ L.again e s.attempt) ∧
      (L.step s).attempt = s.attempt + 1 := by
  unfold step at h ⊢
  split at h
  · next hv => simp [hv] at h
  · next hv =>
    refine ⟨hv, ?_⟩
    split at h
    · next hwithin =>
      split at h
      · cases h
      · next e w' hop =>
        split at h
        · next hagain => simp [hwithin, hop, hagain]
        · cases h
    · cases h

theorem step_world {s : State σ ε α} (hv : s.verdict = none) (hwithin : L.within s.attempt) :
    (L.step s).world = (L.op s.world).2 := by
  unfold step
  rw [hv]
  dsimp only
  rw [if_pos hwithin]
  split
  · next hop => rw [hop]
  · next hop => split <;> rw [hop]

/-- A turn leaves the world as it was, or it makes an attempt. -/
theorem step_world_cases (s : State σ ε α) :
    (L.step s).world = s.world ∨ s.verdict = none ∧ L.within s.attempt := by
  cases hv : s.verdict with
  | some v => exact .inl (by rw [step_of_verdict (by simp [hv])])
  | none =>
    by_cases hwithin : L.within s.attempt
    · exact .inr ⟨rfl, hwithin⟩
    · exact .inl (by simp [step, hv, hwithin])

theorem step_of_again {s : State σ ε α} (hv : s.verdict = none) (hwithin : L.within s.attempt)
    {e : ε} (hop : (L.op s.world).1 = .error e) (hagain : L.again e s.attempt) :
    (L.step s).verdict = none ∧ (L.step s).attempt = s.attempt + 1 := by
  obtain ⟨w', hw'⟩ : ∃ w', L.op s.world = (.error e, w') := ⟨_, Prod.ext hop rfl⟩
  simp [step, hv, hwithin, hw', hagain]

/-! ### Runs -/

theorem run_succ (n : ℕ) : L.run w (n + 1) = L.step (L.run w n) :=
  Function.iterate_succ_apply' _ _ _

/-- While the loop has no verdict, every turn was an attempt that is tried again. -/
theorem run_of_verdict_eq_none {n : ℕ} (h : (L.run w n).verdict = none) :
    (L.run w n).attempt = n ∧ (L.run w n).world = L.worldAt w n ∧ ∀ j < n, L.GoesOn w j := by
  induction n with
  | zero => exact ⟨rfl, rfl, fun j hj => absurd hj j.not_lt_zero⟩
  | succ n ih =>
    rw [run_succ] at h ⊢
    obtain ⟨hv, hwithin, hfails, hattempt⟩ := step_verdict_eq_none h
    obtain ⟨hn, hw, hgoes⟩ := ih hv
    have hworld := step_world hv hwithin
    rw [hn] at hwithin hfails hattempt
    rw [hw] at hfails hworld
    refine ⟨hattempt, hworld, fun j hj => ?_⟩
    rcases Nat.lt_succ_iff_lt_or_eq.1 hj with hlt | rfl
    · exact hgoes j hlt
    · exact ⟨hwithin, hfails⟩

/-- Attempts that are tried again bring the loop to the next one. -/
theorem run_of_goesOn {n : ℕ} (h : ∀ j < n, L.GoesOn w j) :
    (L.run w n).verdict = none ∧ (L.run w n).attempt = n ∧
      (L.run w n).world = L.worldAt w n := by
  induction n with
  | zero => exact ⟨rfl, rfl, rfl⟩
  | succ n ih =>
    obtain ⟨hv, hn, hw⟩ := ih fun j hj => h j (hj.trans n.lt_succ_self)
    obtain ⟨hwithin, e, hop, hagain⟩ := h n n.lt_succ_self
    rw [← hw] at hop
    rw [← hn] at hwithin hagain
    obtain ⟨hv', hn'⟩ := step_of_again hv hwithin hop hagain
    rw [run_succ, hn', step_world hv hwithin, hn, hw]
    exact ⟨hv', rfl, rfl⟩

theorem Made.of_goesOn {k : ℕ} (h : ∀ j < k, L.GoesOn w j) {j : ℕ} (hj : j < k) : L.Made w j :=
  ⟨(h j hj).1, fun i hi => h i (hi.trans hj)⟩

/-- A run sees the effects of attempts that are made, and of nothing else. -/
theorem exists_worldAt (n : ℕ) :
    ∃ k, (L.run w n).world = L.worldAt w k ∧ ∀ j < k, L.Made w j := by
  induction n with
  | zero => exact ⟨0, rfl, fun j hj => absurd hj j.not_lt_zero⟩
  | succ n ih =>
    rw [run_succ]
    rcases step_world_cases (L := L) (L.run w n) with heq | ⟨hv, hwithin⟩
    · rwa [heq]
    · obtain ⟨hn, hw, hgoes⟩ := run_of_verdict_eq_none hv
      refine ⟨n + 1, by rw [step_world hv hwithin, hw]; rfl, fun j hj => ?_⟩
      rw [hn] at hwithin
      rcases Nat.lt_succ_iff_lt_or_eq.1 hj with hlt | rfl
      · exact .of_goesOn hgoes hlt
      · exact ⟨hwithin, hgoes⟩

/-- Each attempt that is made has its effect on a run. -/
theorem run_world_of_made {k : ℕ} (h : L.Made w k) :
    (L.run w (k + 1)).world = L.worldAt w (k + 1) := by
  obtain ⟨hv, hn, hw⟩ := run_of_goesOn h.2
  have hwithin : L.within (L.run w k).attempt := by rw [hn]; exact h.1
  rw [run_succ, step_world hv hwithin, hw]
  rfl

/-- What a loop returns is what one of its attempts returned. -/
theorem exists_of_returned {n : ℕ} {a : α} (h : (L.run w n).verdict = some (.returned a)) :
    ∃ k, L.Made w k ∧ (L.op (L.worldAt w k)).1 = .ok a := by
  induction n with
  | zero => cases h
  | succ n ih =>
    rw [run_succ] at h
    cases hv : (L.run w n).verdict with
    | some v =>
      rw [step_of_verdict (by simp [hv])] at h
      exact ih h
    | none =>
      obtain ⟨hn, hw, hgoes⟩ := run_of_verdict_eq_none hv
      simp only [step, hv] at h
      split at h
      · next hwithin =>
        rw [hn] at hwithin
        refine ⟨n, ⟨hwithin, hgoes⟩, ?_⟩
        rw [← hw]
        split at h
        · next b w' hop =>
          cases h
          rw [hop]
        · split at h <;> cases h
      · cases h

/-- A loop with bounds ends. -/
theorem run_verdict_isSome {n : ℕ} (h : L.within n = false) :
    (L.run w (n + 1)).verdict.isSome := by
  rw [Option.isSome_iff_ne_none]
  intro hv
  have hgoes := (run_of_verdict_eq_none hv).2.2 n n.lt_succ_self
  exact absurd hgoes.1 (by simp [h])

end RetryLoop
