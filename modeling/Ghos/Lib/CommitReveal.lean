import Mathlib.Data.Finset.Card
import Mathlib.Logic.Relation
import Mathlib.Tactic

/-!
# Commit-reveal rounds

A round collects one commitment from each of `capacity` participants, and only then lets them open
what they committed to, each at most once.  It closes as *settled* or as *aborted*.

* `Round`: a round with its invariants as fields, so every round is a sound one;
* `start`, `commit`, `reveal`, `settle`, `abort`: the operations, each with the conditions under
  which it keeps a round sound;
* `Step`, `Reaches`: the transitions, and what they preserve: the capacity, the commitments already
  made and their order, the openings already made; stages only go up, closed rounds stay as they
  are.
-/

namespace CommitReveal

/-- The stage of a round. -/
inductive Stage
  | commit
  | reveal
  | settling
  | settled
  | aborted
  deriving DecidableEq

/-- How far a stage is; the two closed stages come last. -/
def Stage.rank : Stage → ℕ
  | .commit => 0
  | .reveal => 1
  | .settling => 2
  | .settled => 3
  | .aborted => 3

/-- A round: who committed to what, in order, and who has opened. -/
structure Round (P D : Type*) where
  capacity : ℕ
  commits : List (P × D)
  opened : Finset P
  stage : Stage
  nodup : (commits.map Prod.fst).Nodup
  opened_subset : ∀ p ∈ opened, p ∈ commits.map Prod.fst
  of_commit : stage = .commit → opened = ∅ ∧ commits.length < capacity
  full : stage ≠ .commit → commits.length = capacity
  missing : stage = .reveal ∨ stage = .aborted → opened.card < commits.length
  complete : stage = .settling → opened.card = commits.length

namespace Round

variable {P D : Type*}

/-- The participants in the order of their commits. -/
def participants (a : Round P D) : List P := a.commits.map Prod.fst

theorem length_participants (a : Round P D) : a.participants.length = a.commits.length :=
  List.length_map ..

theorem length_le (a : Round P D) : a.commits.length ≤ a.capacity := by
  by_cases h : a.stage = .commit
  · exact (a.of_commit h).2.le
  · exact (a.full h).le

variable [DecidableEq P]

theorem opened_subset_toFinset (a : Round P D) : a.opened ⊆ a.participants.toFinset :=
  fun p hp => List.mem_toFinset.2 (a.opened_subset p hp)

theorem card_participants (a : Round P D) : a.participants.toFinset.card = a.commits.length :=
  (List.toFinset_card_of_nodup a.nodup).trans a.length_participants

theorem card_opened_le (a : Round P D) : a.opened.card ≤ a.commits.length := by
  rw [← a.card_participants]
  exact Finset.card_le_card a.opened_subset_toFinset

/-- Someone who has committed and not opened keeps the round from being complete. -/
theorem stage_ne_settling (a : Round P D) {p : P} (hp : p ∈ a.participants) (hn : p ∉ a.opened) :
    a.stage ≠ .settling := by
  intro h
  -- a complete round has as many openings as participants, so everybody has opened
  have heq : a.opened = a.participants.toFinset := by
    refine Finset.eq_of_subset_of_card_le a.opened_subset_toFinset ?_
    rw [a.card_participants, a.complete h]
  exact hn (heq ▸ List.mem_toFinset.2 hp)

/-! ### Operations -/

omit [DecidableEq P] in
/-- A round nobody has joined. -/
def start (P D : Type*) (capacity : ℕ) (h : 0 < capacity) : Round P D where
  capacity := capacity
  commits := []
  opened := ∅
  stage := .commit
  nodup := List.nodup_nil
  opened_subset := by simp
  of_commit _ := ⟨rfl, h⟩
  full hs := absurd rfl hs
  missing := by simp
  complete := by simp

omit [DecidableEq P] in
/-- One more commitment; the last one ends the stage. -/
def commit (a : Round P D) (p : P) (d : D) (hs : a.stage = .commit) (hp : p ∉ a.participants) :
    Round P D where
  capacity := a.capacity
  commits := a.commits ++ [(p, d)]
  opened := a.opened
  stage := if a.commits.length + 1 = a.capacity then .reveal else .commit
  nodup := by
    rw [List.map_append, List.nodup_append_comm]
    exact List.nodup_cons.2 ⟨hp, a.nodup⟩
  opened_subset q hq := by
    rw [List.map_append]
    exact List.mem_append_left _ (a.opened_subset q hq)
  of_commit h := by
    have hlt := (a.of_commit hs).2
    have hne : a.commits.length + 1 ≠ a.capacity := fun he => by simp [he] at h
    exact ⟨(a.of_commit hs).1, by rw [List.length_append, List.length_singleton]; omega⟩
  full h := by
    rw [List.length_append, List.length_singleton]
    by_contra hne
    simp [hne] at h
  missing _ := by
    rw [(a.of_commit hs).1]
    simp
  complete h := by split_ifs at h

/-- One more opening; the last one ends the stage. -/
def reveal (a : Round P D) (p : P) (hs : a.stage = .reveal) (hp : p ∈ a.participants)
    (hn : p ∉ a.opened) : Round P D where
  capacity := a.capacity
  commits := a.commits
  opened := insert p a.opened
  stage := if a.opened.card + 1 = a.commits.length then .settling else .reveal
  nodup := a.nodup
  opened_subset q hq := by
    rcases Finset.mem_insert.1 hq with rfl | hq
    · exact hp
    · exact a.opened_subset q hq
  of_commit h := by split_ifs at h
  full _ := a.full (by rw [hs]; decide)
  missing h := by
    have hlt := a.missing (.inl hs)
    have hne : a.opened.card + 1 ≠ a.commits.length := fun he => by simp [he] at h
    rw [Finset.card_insert_of_notMem hn]
    omega
  complete h := by
    rw [Finset.card_insert_of_notMem hn]
    by_contra hne
    simp [hne] at h

omit [DecidableEq P] in
/-- Close a round whose commitments are in. -/
def settle (a : Round P D) (hs : a.stage = .reveal ∨ a.stage = .settling) : Round P D where
  capacity := a.capacity
  commits := a.commits
  opened := a.opened
  stage := .settled
  nodup := a.nodup
  opened_subset := a.opened_subset
  of_commit := by simp
  full _ := a.full (by rcases hs with hs | hs <;> rw [hs] <;> decide)
  missing := by simp
  complete := by simp

omit [DecidableEq P] in
/-- Give up on a round that still misses an opening. -/
def abort (a : Round P D) (hs : a.stage = .reveal) : Round P D where
  capacity := a.capacity
  commits := a.commits
  opened := a.opened
  stage := .aborted
  nodup := a.nodup
  opened_subset := a.opened_subset
  of_commit := by simp
  full _ := a.full (by rw [hs]; decide)
  missing _ := a.missing (.inl hs)
  complete := by simp

/-! ### Transitions -/

/-- One transition. -/
inductive Step : Round P D → Round P D → Prop
  | commit {a p d} (hs : a.stage = .commit) (hp : p ∉ a.participants) : Step a (a.commit p d hs hp)
  | reveal {a p} (hs : a.stage = .reveal) (hp : p ∈ a.participants) (hn : p ∉ a.opened) :
      Step a (a.reveal p hs hp hn)
  | settle {a} (hs : a.stage = .reveal ∨ a.stage = .settling) : Step a (a.settle hs)
  | abort {a} (hs : a.stage = .reveal) : Step a (a.abort hs)

/-- Any number of transitions. -/
def Reaches : Round P D → Round P D → Prop := Relation.ReflTransGen Step

/-- What a transition keeps. -/
structure Extends (a b : Round P D) : Prop where
  capacity : b.capacity = a.capacity
  commits : a.commits <+: b.commits
  opened : a.opened ⊆ b.opened
  rank : a.stage.rank ≤ b.stage.rank

omit [DecidableEq P] in
theorem Extends.trans {a b c : Round P D} (h : Extends a b) (h' : Extends b c) : Extends a c :=
  ⟨h'.capacity.trans h.capacity, h.commits.trans h'.commits, h.opened.trans h'.opened,
    h.rank.trans h'.rank⟩

omit [DecidableEq P] in
theorem rank_le_three (a : Round P D) : a.stage.rank ≤ 3 := by
  cases a.stage <;> decide

theorem Step.extends {a b : Round P D} (h : Step a b) : Extends a b := by
  cases h with
  | commit hs hp =>
    refine ⟨rfl, List.prefix_append _ _, subset_rfl, ?_⟩
    rw [show a.stage.rank = 0 from congrArg Stage.rank hs]
    exact Nat.zero_le _
  | reveal hs hp hn =>
    refine ⟨rfl, List.prefix_rfl, Finset.subset_insert _ _, ?_⟩
    rw [show a.stage.rank = 1 from congrArg Stage.rank hs]
    simp only [Round.reveal]
    split_ifs <;> decide
  | settle hs => exact ⟨rfl, List.prefix_rfl, subset_rfl, a.rank_le_three⟩
  | abort hs => exact ⟨rfl, List.prefix_rfl, subset_rfl, a.rank_le_three⟩

/-- A run keeps what its transitions keep. -/
theorem Reaches.extends {a b : Round P D} (h : Reaches a b) : Extends a b := by
  induction h with
  | refl => exact ⟨rfl, List.prefix_rfl, subset_rfl, le_rfl⟩
  | tail _ hstep ih => exact ih.trans hstep.extends

end Round

end CommitReveal
