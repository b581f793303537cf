import Mathlib.Data.Set.Card
import Ghos.Lib.Store

/-!
# Stores seen from outside

Someone who does not hold a store may keep a copy of a part of it: of some fields of the values
(`image`), under other addresses (`reindex`), or only how many of each kind there are (`census`).
All three follow the writes to the store.  `modify` is the write that depends on the value that is
there.
-/

namespace Store

variable {J K V W : Type*}

/-- Some part of each value. -/
def image (f : V → W) (S : Store K V) : Store K W := fun k => (S k).map f

/-- The values under other addresses. -/
def reindex (g : J → K) (S : Store K V) : Store J V := fun j => S (g j)

theorem image_eq_some {f : V → W} {S : Store K V} {k : K} {v : V} (h : S k = some v) :
    S.image f k = some (f v) := by
  show (S k).map f = some (f v)
  rw [h, Option.map_some]

theorem reindex_eq_some {g : J → K} {S : Store K V} {j : J} {v : V} (h : S (g j) = some v) :
    S.reindex g j = some v := h

variable [DecidableEq J] [DecidableEq K]

/-- Change the value at an address, if there is one. -/
def modify (S : Store K V) (k : K) (f : V → V) : Store K V := Function.update S k ((S k).map f)

theorem modify_eq_set {S : Store K V} {k : K} {v : V} (h : S k = some v) (f : V → V) :
    S.modify k f = S.set k (f v) := by
  unfold modify set
  rw [h, Option.map_some]

theorem image_set (f : V → W) (S : Store K V) (k : K) (v : V) :
    (S.set k v).image f = (S.image f).set k (f v) := by
  funext l
  by_cases h : l = k
  · rw [h, set_self]
    exact image_eq_some (set_self S k v)
  · rw [set_of_ne _ _ h]
    show ((S.set k v) l).map f = (S l).map f
    rw [set_of_ne S v h]

theorem reindex_set {g : J → K} (hg : Function.Injective g) (S : Store K V) (j : J) (v : V) :
    (S.set (g j) v).reindex g = (S.reindex g).set j v :=
  Function.update_comp_eq_of_injective S hg j (some v)

/-! ### Values that a write does not concern -/

omit [DecidableEq J] in
/-- A write that puts a value of `P` where one was, and none where none was, moves none. -/
theorem exists_set_iff {P : V → Prop} {S : Store K V} {k : K} {v : V}
    (hk : P v ↔ ∃ w, S k = some w ∧ P w) (l : K) :
    (∃ w, S.set k v l = some w ∧ P w) ↔ ∃ w, S l = some w ∧ P w := by
  by_cases h : l = k
  · subst h
    rw [set_self, ← hk]
    exact ⟨fun ⟨w, hw, hP⟩ => Option.some.inj hw ▸ hP, fun hP => ⟨v, rfl, hP⟩⟩
  · rw [set_of_ne S v h]

omit [DecidableEq J] [DecidableEq K] in
theorem exists_eq_some_iff {P : V → Prop} {S : Store K V} {k : K} {v : V} (hk : S k = some v) :
    (∃ w, S k = some w ∧ P w) ↔ P v := by
  rw [hk]
  exact ⟨fun ⟨w, hw, hP⟩ => Option.some.inj hw ▸ hP, fun hP => ⟨v, rfl, hP⟩⟩

omit [DecidableEq J] in
theorem set_eq_some_iff {P : V → Prop} {S : Store K V} {k : K} {v : V} (hv : ¬ P v)
    (hold : ∀ w, S k = some w → ¬ P w) (l : K) {w : V} (hw : P w) :
    S.set k v l = some w ↔ S l = some w := by
  by_cases h : l = k
  · subst h
    rw [set_self]
    refine iff_of_false (fun heq => ?_) fun heq => hold w heq hw
    exact hv (Option.some.inj heq ▸ hw)
  · rw [set_of_ne S v h]

omit [DecidableEq J] in
theorem erase_eq_some_iff {P : V → Prop} {S : Store K V} {k : K}
    (hold : ∀ w, S k = some w → ¬ P w) (l : K) {w : V} (hw : P w) :
    S.erase k l = some w ↔ S l = some w := by
  by_cases h : l = k
  · subst h
    rw [erase_self]
    exact iff_of_false (by simp) fun heq => hold w heq hw
  · rw [erase_of_ne S h]

/-! ### Counting -/

omit [DecidableEq J] [DecidableEq K] in
/-- The addresses of the values of a kind. -/
def fiber (f : V → J) (S : Store K V) (j : J) : Set K := {k | ∃ v, S k = some v ∧ f v = j}

/-- How many values there are of each kind. -/
noncomputable def census (f : V → J) (S : Store K V) (j : J) : ℕ := (S.fiber f j).ncard

omit [DecidableEq J] [DecidableEq K] in
theorem census_empty (f : V → J) : census f (fun _ => none : Store K V) = fun _ => 0 := by
  funext j
  have hempty : fiber f (fun _ => none : Store K V) j = ∅ :=
    Set.eq_empty_of_forall_notMem (by rintro k ⟨v, hv, -⟩; cases hv)
  show (fiber f (fun _ => none : Store K V) j).ncard = 0
  rw [hempty, Set.ncard_empty]

omit [DecidableEq J] in
theorem fiber_set_self {f : V → J} {S : Store K V} {k : K} (v : V) :
    (S.set k v).fiber f (f v) = insert k (S.fiber f (f v)) := by
  ext l
  by_cases h : l = k
  · subst h
    exact iff_of_true ⟨v, set_self S l v, rfl⟩ (Set.mem_insert l _)
  · show (∃ w, S.set k v l = some w ∧ f w = f v) ↔ l = k ∨ ∃ w, S l = some w ∧ f w = f v
    rw [set_of_ne S v h, or_iff_right h]

omit [DecidableEq J] in
theorem fiber_set_of_ne {f : V → J} {S : Store K V} {k : K} {v : V} (hk : S k = none) {j : J}
    (hj : j ≠ f v) : (S.set k v).fiber f j = S.fiber f j := by
  ext l
  show (∃ w, S.set k v l = some w ∧ f w = j) ↔ ∃ w, S l = some w ∧ f w = j
  by_cases h : l = k
  · subst h
    rw [set_self, hk]
    exact iff_of_false (by rintro ⟨w, hw, rfl⟩; exact hj (Option.some.inj hw ▸ rfl)) (by simp)
  · rw [set_of_ne S v h]

omit [DecidableEq J] in
theorem fiber_erase {f : V → J} {S : Store K V} {k : K} (j : J) :
    (S.erase k).fiber f j = S.fiber f j \ {k} := by
  ext l
  show (∃ w, S.erase k l = some w ∧ f w = j) ↔ (∃ w, S l = some w ∧ f w = j) ∧ l ≠ k
  by_cases h : l = k
  · subst h
    rw [erase_self]
    exact iff_of_false (by simp) fun hne => hne.2 rfl
  · rw [erase_of_ne S h, and_iff_left h]

/-- A new value adds one to its kind. -/
theorem census_set {f : V → J} {S : Store K V} {k : K} {v : V} (hk : S k = none)
    (hfin : (S.fiber f (f v)).Finite) :
    (S.set k v).census f = Function.update (S.census f) (f v) (S.census f (f v) + 1) := by
  funext j
  by_cases hj : j = f v
  · subst hj
    have hnotMem : k ∉ S.fiber f (f v) := by
      rintro ⟨w, hw, -⟩
      rw [hk] at hw
      cases hw
    rw [Function.update_self]
    show ((S.set k v).fiber f (f v)).ncard = (S.fiber f (f v)).ncard + 1
    rw [fiber_set_self, Set.ncard_insert_of_notMem hnotMem hfin]
  · rw [Function.update_of_ne hj]
    exact congrArg Set.ncard (fiber_set_of_ne hk hj)

/-- A value that goes takes one from its kind. -/
theorem census_erase {f : V → J} {S : Store K V} {k : K} {v : V} (hk : S k = some v) :
    (S.erase k).census f = Function.update (S.census f) (f v) (S.census f (f v) - 1) := by
  funext j
  by_cases hj : j = f v
  · subst hj
    rw [Function.update_self]
    have hmem : k ∈ S.fiber f (f v) := ⟨v, hk, rfl⟩
    show ((S.erase k).fiber f (f v)).ncard = (S.fiber f (f v)).ncard - 1
    rw [fiber_erase, Set.ncard_sdiff_singleton_of_mem hmem]
  · rw [Function.update_of_ne hj]
    have hnotMem : k ∉ S.fiber f j := by
      rintro ⟨w, hw, rfl⟩
      exact hj (congrArg f (Option.some.inj (hw.symm.trans hk)))
    show ((S.erase k).fiber f j).ncard = (S.fiber f j).ncard
    rw [fiber_erase, Set.sdiff_singleton_eq_self hnotMem]

end Store
