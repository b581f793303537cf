import Mathlib.Data.Set.Card
import Mathlib.Tactic

/-!
# Stores: partial maps from addresses to tagged values

A store holds at most one value at each address.  The values are of several kinds; a kind is given
by a partial projection `π`, and `view π S` is the store as seen by a reader that only understands
that kind.
-/

/-- At most one value at each address. -/
abbrev Store (K V : Type*) := K → Option V

namespace Store

variable {K V W : Type*} [DecidableEq K]

/-- Write the value `v` at the address `k`. -/
def set (S : Store K V) (k : K) (v : V) : Store K V := Function.update S k (some v)

/-- Empty the address `k`. -/
def erase (S : Store K V) (k : K) : Store K V := Function.update S k none

omit [DecidableEq K] in
/-- The values of one kind. -/
def view (π : V → Option W) (S : Store K V) (k : K) : Option W := (S k).bind π

@[simp] theorem set_self (S : Store K V) (k : K) (v : V) : S.set k v k = some v :=
  Function.update_self ..

theorem set_of_ne (S : Store K V) {k l : K} (v : V) (h : l ≠ k) : S.set k v l = S l :=
  Function.update_of_ne h ..

theorem set_eq_some {S : Store K V} {k l : K} {v w : V} :
    S.set k v l = some w ↔ l = k ∧ v = w ∨ l ≠ k ∧ S l = some w := by
  by_cases h : l = k
  · simp [h]
  · simp [h, set_of_ne S v h]

@[simp] theorem erase_self (S : Store K V) (k : K) : S.erase k k = none := Function.update_self ..

theorem erase_of_ne (S : Store K V) {k l : K} (h : l ≠ k) : S.erase k l = S l :=
  Function.update_of_ne h ..

theorem erase_eq_some {S : Store K V} {k l : K} {w : V} :
    S.erase k l = some w ↔ l ≠ k ∧ S l = some w := by
  by_cases h : l = k
  · simp [h]
  · simp [h, erase_of_ne S h]

/-- Writing never removes anything. -/
theorem exists_set {S : Store K V} {l : K} (k : K) (v : V) (h : ∃ w, S l = some w) :
    ∃ w, S.set k v l = some w := by
  obtain ⟨w, hw⟩ := h
  by_cases hl : l = k
  · exact ⟨v, hl ▸ set_self ..⟩
  · exact ⟨w, by rw [set_of_ne S v hl, hw]⟩

@[simp] theorem view_set_self (π : V → Option W) (S : Store K V) (k : K) (v : V) :
    (S.set k v).view π k = π v := by
  simp [view]

/-- A value that is visible to `π` is written in the view too. -/
theorem view_set_of_some {π : V → Option W} (S : Store K V) {k : K} {v : V} {w : W}
    (hv : π v = some w) : (S.set k v).view π = set (S.view π) k w := by
  funext l
  by_cases h : l = k
  · rw [h, view_set_self, hv, set_self]
  · rw [set_of_ne _ _ h, view, view, set_of_ne _ _ h]

theorem view_set_of_ne (π : V → Option W) (S : Store K V) {k l : K} (v : V) (h : l ≠ k) :
    (S.set k v).view π l = S.view π l := by
  rw [view, view, set_of_ne S v h]

/-- A value of another kind at `k` is seen as nothing there. -/
theorem view_set_of_none {π : V → Option W} (S : Store K V) {k : K} {v : V} (hv : π v = none)
    (hk : S.view π k = none) : (S.set k v).view π = S.view π := by
  funext l
  by_cases h : l = k
  · rw [h, view_set_self, hv, hk]
  · exact view_set_of_ne π S v h

omit [DecidableEq K] in
theorem view_of_none {π : V → Option W} {S : Store K V} {k : K} (h : S k = none) :
    S.view π k = none := by
  rw [view, h, Option.bind_none]

end Store
