import Ghos.Lib.Rounding
import Ghos.Program.Registry

/-!
# Padding to the dust-free unit

`pad_amount` of `utils/validation.rs` rounds an amount up to the next multiple of the dust-free unit
and says what is to be refunded.  The addition saturates, so close to the largest amount the padded
amount is that one, whatever the refund (`toNat_padAmount`).

* `padAmount_idem`, `padAmount_mono`: padding is idempotent and monotone everywhere;
* `paddingLaws_iff`: it is exact up to the largest multiple of the unit.
-/

namespace Ghos

open Rounding

/-- Round an amount up to the next dust-free multiple, and the delta to be refunded. -/
def padAmount (amount : UInt64) : UInt64 × UInt64 :=
  let rem := amount % dustFreeUnit
  if rem = 0 then (amount, 0)
  else
    let padded := amount.saturatingAdd (dustFreeUnit - rem)
    (padded, dustFreeUnit - rem)

/-- The next multiple of the unit, without a largest number. -/
def nextMultiple : ClosureOperator ℕ := roundUp (by decide : 0 < 1000)

variable {amount other : UInt64}

theorem padAmount_of_dvd (h : 1000 ∣ amount.toNat) : padAmount amount = (amount, 0) := by
  have hrem : amount % dustFreeUnit = 0 := UInt64.mod_eq_zero_iff.2 h
  rw [padAmount, if_pos hrem]

theorem padAmount_of_not_dvd (h : ¬ 1000 ∣ amount.toNat) :
    padAmount amount = (amount.saturatingAdd (dustFreeUnit - amount % dustFreeUnit),
      dustFreeUnit - amount % dustFreeUnit) := by
  have hrem : amount % dustFreeUnit ≠ 0 := mt UInt64.mod_eq_zero_iff.1 h
  rw [padAmount, if_neg hrem]

theorem toNat_delta (amount : UInt64) :
    (dustFreeUnit - amount % dustFreeUnit).toNat = 1000 - amount.toNat % 1000 := by
  have hrem : (amount % dustFreeUnit).toNat = amount.toNat % 1000 := UInt64.toNat_mod ..
  have hmod := Nat.mod_lt amount.toNat (by decide : 0 < 1000)
  rw [UInt64.toNat_sub_of_le, hrem]
  · rfl
  · rw [UInt64.le_iff_toNat_le, hrem]
    exact hmod.le

/-- The refund is what is missing to the next multiple. -/
theorem toNat_padAmount_snd (amount : UInt64) :
    (padAmount amount).2.toNat < 1000 ∧
      amount.toNat + (padAmount amount).2.toNat = nextMultiple amount.toNat := by
  by_cases h : 1000 ∣ amount.toNat
  · have hnext : nextMultiple amount.toNat = amount.toNat := roundUp_of_dvd _ h
    rw [padAmount_of_dvd h, hnext]
    exact ⟨(by decide : (0 : UInt64).toNat < 1000), rfl⟩
  · have hmod : amount.toNat % 1000 ≠ 0 := fun hzero => h (Nat.dvd_of_mod_eq_zero hzero)
    have hnext : nextMultiple amount.toNat = amount.toNat + (1000 - amount.toNat % 1000) :=
      roundUp_of_not_dvd _ hmod
    rw [padAmount_of_not_dvd h, hnext]
    dsimp only
    rw [toNat_delta]
    omega

/-- The padded amount is the next multiple, but at most the largest number. -/
theorem toNat_padAmount (amount : UInt64) :
    (padAmount amount).1.toNat = min (nextMultiple amount.toNat) (2 ^ 64 - 1) := by
  have hsum := (toNat_padAmount_snd amount).2
  have hlt := amount.toNat_lt
  by_cases h : 1000 ∣ amount.toNat
  · have hnext : nextMultiple amount.toNat = amount.toNat := roundUp_of_dvd _ h
    rw [padAmount_of_dvd h, hnext, min_eq_left (Nat.le_sub_one_of_lt hlt)]
  · rw [padAmount_of_not_dvd h] at hsum ⊢
    rw [UInt64.toNat_saturatingAdd, hsum]

theorem padAmount_idem (amount : UInt64) :
    (padAmount (padAmount amount).1).1 = (padAmount amount).1 := by
  rw [← UInt64.toNat_inj, toNat_padAmount, toNat_padAmount]
  exact nextMultiple.min_idem _ _

theorem padAmount_mono (h : other ≤ amount) : (padAmount other).1 ≤ (padAmount amount).1 := by
  rw [UInt64.le_iff_toNat_le] at h ⊢
  rw [toNat_padAmount, toNat_padAmount]
  exact nextMultiple.min_mono _ h

/-- What a caller expects of the padding of an amount, in exact integers. -/
structure PaddingLaws (amount : UInt64) : Prop where
  padded : (padAmount amount).1.toNat = amount.toNat + (padAmount amount).2.toNat
  delta : (padAmount amount).2.toNat < 1000
  aligned : 1000 ∣ (padAmount amount).1.toNat
  dustFree : 0 < amount → assertDustFree (padAmount amount).1 = .ok ()
  idempotent : padAmount (padAmount amount).1 = ((padAmount amount).1, 0)
  monotone : ∀ other ≤ amount, (padAmount other).1 ≤ (padAmount amount).1

/-- The largest amount from which the next multiple of the unit is still an amount. -/
def largestMultiple : ℕ := (2 ^ 64 - 1) / 1000 * 1000

theorem nextMultiple_le_iff :
    nextMultiple amount.toNat ≤ 2 ^ 64 - 1 ↔ amount.toNat ≤ largestMultiple := by
  have hunit : 1000 ∣ largestMultiple := Dvd.intro_left _ rfl
  have hnext : 1000 ∣ nextMultiple amount.toNat := dvd_roundUp _ _
  rw [← roundUp_le_iff (by decide) hunit]
  show _ ↔ nextMultiple amount.toNat ≤ _
  rw [largestMultiple]
  omega

/-- Padding is exact up to the largest multiple of the unit, and for no amount above it. -/
theorem paddingLaws_iff (amount : UInt64) :
    PaddingLaws amount ↔ amount.toNat ≤ largestMultiple := by
  have hpadded := toNat_padAmount amount
  obtain ⟨hlt, hdelta⟩ := toNat_padAmount_snd amount
  have hdvd : 1000 ∣ nextMultiple amount.toNat := dvd_roundUp _ _
  rw [← nextMultiple_le_iff]
  constructor
  · intro h
    have hsum := h.padded
    omega
  · intro h
    rw [min_eq_left h] at hpadded
    have haligned : 1000 ∣ (padAmount amount).1.toNat := hpadded ▸ hdvd
    refine ⟨by omega, hlt, haligned, fun hpos => ?_,
      padAmount_of_dvd haligned, fun other hle => padAmount_mono hle⟩
    rw [assertDustFree_eq_ok, UInt64.mod_eq_zero_iff, UInt64.le_iff_toNat_le]
    rw [UInt64.lt_iff_toNat_lt, UInt64.toNat_zero] at hpos
    have hfloor : 1000 ≤ (padAmount amount).1.toNat := Nat.le_of_dvd (by omega) haligned
    exact ⟨hfloor, haligned⟩

/-- One above the largest multiple, the sum saturates and the refund does not. -/
theorem not_paddingLaws :
    padAmount 18446744073709551001 = (18446744073709551615, 999) ∧
      ¬ ∀ amount, PaddingLaws amount := by
  have hvalue : padAmount 18446744073709551001 = (18446744073709551615, 999) := by decide +kernel
  refine ⟨hvalue, fun h => ?_⟩
  have hpadded := (h 18446744073709551001).padded
  rw [hvalue] at hpadded
  exact absurd hpadded (by decide)

end Ghos
