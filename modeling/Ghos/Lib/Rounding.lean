import Mathlib.Algebra.Order.Floor.Div
import Mathlib.Order.Closure
import Mathlib.Tactic

/-!
# Rounding up to a multiple

`roundUp` takes a number to the least multiple of a unit that is not below it, so it is a closure
operator (`roundUp_le_iff`).  A closure operator that is cut off at a bound is still idempotent and
monotone (`ClosureOperator.min_idem`, `ClosureOperator.min_mono`).
-/

namespace Rounding

variable {unit : ℕ} (hunit : 0 < unit) {m n : ℕ}

/-- The least multiple of the unit that is not below a number. -/
def roundUp : ClosureOperator ℕ := (gc_mul_ceilDiv hunit).closureOperator

theorem roundUp_apply (n : ℕ) : roundUp hunit n = unit * (n ⌈/⌉ unit) := rfl

theorem dvd_roundUp (n : ℕ) : unit ∣ roundUp hunit n := Dvd.intro _ rfl

theorem roundUp_le_iff (hm : unit ∣ m) : roundUp hunit n ≤ m ↔ n ≤ m := by
  obtain ⟨k, rfl⟩ := hm
  rw [roundUp_apply, Nat.mul_le_mul_left_iff hunit]
  exact ceilDiv_le_iff_le_mul hunit

theorem roundUp_of_dvd (hn : unit ∣ n) : roundUp hunit n = n :=
  le_antisymm ((roundUp_le_iff hunit hn).2 le_rfl) ((roundUp hunit).le_closure n)

/-- What is missing to the next multiple. -/
theorem roundUp_of_not_dvd (hn : n % unit ≠ 0) : roundUp hunit n = n + (unit - n % unit) := by
  have hmod := Nat.mod_lt n hunit
  have hdiv := Nat.mod_add_div n unit
  have hnext : n + (unit - n % unit) = unit * (n / unit + 1) := by
    rw [mul_add, mul_one]
    omega
  refine le_antisymm ?_ ?_
  · rw [hnext, roundUp_le_iff hunit (Dvd.intro _ rfl), ← hnext]
    omega
  · have hle := (roundUp hunit).le_closure n
    rw [roundUp_apply] at hle ⊢
    rw [hnext]
    refine Nat.mul_le_mul_left unit ?_
    by_contra hlt
    have hsame : n ⌈/⌉ unit ≤ n / unit := by omega
    have hbound := Nat.mul_le_mul_left unit hsame
    omega

end Rounding

namespace ClosureOperator

variable {α : Type*} [LinearOrder α] (c : ClosureOperator α) (bound : α)

theorem min_mono : Monotone fun a => min (c a) bound := fun _ _ h =>
  min_le_min_right bound (c.monotone h)

/-- A value below the bound is closed, and the bound is not moved by what is above it. -/
theorem min_idem (a : α) : min (c (min (c a) bound)) bound = min (c a) bound := by
  rcases le_total (c a) bound with h | h
  · rw [min_eq_left h, c.idempotent, min_eq_left h]
  · rw [min_eq_right h, min_eq_right (c.le_closure bound)]

end ClosureOperator
