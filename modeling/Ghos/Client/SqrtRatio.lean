import Ghos.Client.Field25519

/-!
# The square root of a ratio

`_sqrt_ratio_m1` of `cli/ghos_cli/crypto/elgamal.py` on arbitrary integers.  Both directions of the
codec rest on it: the encoder asks for an inverse square root that exists, and the decoder refuses
what has none.

* `sqrtRatioM1_congr`: only the residues of its arguments matter;
* `sqrtRatioM1_spec`: what the flag and the root are, zeros included.
-/

namespace Ghos

namespace Cli

variable {u v : ℤ}

/-- The specification of `SQRT_RATIO_M1`, with the flag `w` and the root `r`. -/
structure SqrtRatioSpec (u v : ℤ) (w : ℕ) (r : ℤ) : Prop where
  nonneg : 0 ≤ r
  lt : r < fieldOrder
  even : r % 2 = 0
  of_u_zero : u ≡ 0 [ZMOD fieldOrder] → w = 1 ∧ r = 0
  of_v_zero : ¬ u ≡ 0 [ZMOD fieldOrder] → v ≡ 0 [ZMOD fieldOrder] → w = 0 ∧ r = 0
  flag : ¬ u ≡ 0 [ZMOD fieldOrder] → ¬ v ≡ 0 [ZMOD fieldOrder] →
    (w = 1 ↔ IsSquare ((u : FieldElement) / v))
  square : ¬ u ≡ 0 [ZMOD fieldOrder] → ¬ v ≡ 0 [ZMOD fieldOrder] → w = 1 →
    v * r ^ 2 ≡ u [ZMOD fieldOrder]
  nonsquare : ¬ u ≡ 0 [ZMOD fieldOrder] → ¬ v ≡ 0 [ZMOD fieldOrder] → w ≠ 1 →
    w = 0 ∧ v * r ^ 2 ≡ sqrtM1 * u [ZMOD fieldOrder]

theorem modEq_iff {a b : ℤ} : a ≡ b [ZMOD fieldOrder] ↔ (a : FieldElement) = b :=
  cast_eq_iff.symm

theorem modEq_zero_iff {a : ℤ} : a ≡ 0 [ZMOD fieldOrder] ↔ (a : FieldElement) = 0 := by
  rw [modEq_iff, Int.cast_zero]

/-- The arguments are reduced first. -/
theorem sqrtRatioM1_congr {u' v' : ℤ} (hu : u ≡ u' [ZMOD fieldOrder])
    (hv : v ≡ v' [ZMOD fieldOrder]) : sqrtRatioM1 u v = sqrtRatioM1 u' v' := by
  unfold sqrtRatioM1
  rw [hu, hv]

/-- Whatever the candidate is, its sign is chosen at the end. -/
theorem exists_absFe (u v : ℤ) : ∃ x, Reduced x ∧ (sqrtRatioM1 u v).2 = absFe x := by
  refine ⟨_, ?_, rfl⟩
  split_ifs
  · exact reduced_emod _
  · exact reduced_emod _

theorem reduced_sqrtRatioM1 (u v : ℤ) : Reduced (sqrtRatioM1 u v).2 := by
  obtain ⟨x, -, hr⟩ := exists_absFe u v
  rw [hr]
  exact reduced_absFe x

theorem even_sqrtRatioM1 (u v : ℤ) : (sqrtRatioM1 u v).2 % 2 = 0 := by
  obtain ⟨x, hx, hr⟩ := exists_absFe u v
  have heven := hx.not_negative_absFe
  rw [← (reduced_absFe x).isNegativeFe_ne_zero_iff, not_not, isNegativeFe] at heven
  rw [hr, heven]

/-- Zero is a square, whatever it is divided by. -/
theorem sqrtRatioM1_of_eq_zero_left (hu : u ≡ 0 [ZMOD fieldOrder]) (v : ℤ) :
    sqrtRatioM1 u v = (1, 0) := by
  rw [sqrtRatioM1_congr hu rfl]
  simp [sqrtRatioM1, ctEqFe, absFe, isNegativeFe]

/-- The flag says whether the ratio is a square: if it is zero, the ratio is a square divided by the
nonsquare `_SQRT_M1`. -/
theorem flag_eq_one_iff {w : ℕ} {r : ℤ} (hu : (u : FieldElement) ≠ 0) (hv : (v : FieldElement) ≠ 0)
    (h : w = 1 ∧ (v : FieldElement) * r ^ 2 = u ∨ w = 0 ∧ (v : FieldElement) * r ^ 2 = sqrtM1 * u) :
    w = 1 ↔ IsSquare ((u : FieldElement) / v) := by
  rcases h with ⟨rfl, hroot⟩ | ⟨rfl, hroot⟩
  · refine iff_of_true rfl ?_
    rw [← hroot, mul_div_cancel_left₀ _ hv]
    exact IsSquare.sq _
  · refine iff_of_false zero_ne_one fun hsquare => not_isSquare_sqrtM1 ?_
    have hratio : (u : FieldElement) / v ≠ 0 := div_ne_zero hu hv
    have hproduct : (r : FieldElement) ^ 2 = sqrtM1 * (u / v) := by
      rw [← mul_div_assoc, ← hroot, mul_div_cancel_left₀ _ hv]
    rw [eq_div_of_mul_eq hratio hproduct.symm]
    exact (IsSquare.sq _).div hsquare

/-- If both numbers are invertible, the root is one of the ratio, or of `_SQRT_M1` times the ratio. -/
theorem root_of_ne_zero (hu : ¬ u ≡ 0 [ZMOD fieldOrder]) (hv : ¬ v ≡ 0 [ZMOD fieldOrder]) :
    (sqrtRatioM1 u v).1 = 1 ∧ (v : FieldElement) * ((sqrtRatioM1 u v).2 : ℤ) ^ 2 = u ∨
      (sqrtRatioM1 u v).1 = 0 ∧
        (v : FieldElement) * ((sqrtRatioM1 u v).2 : ℤ) ^ 2 = sqrtM1 * u := by
  rw [modEq_zero_iff] at hu hv
  obtain ⟨w, r, heq, -, -, h⟩ := sqrtRatioM1_of_ne_zero hu hv
  rwa [heq]

theorem sqrtRatioSpec (u v : ℤ) :
    SqrtRatioSpec u v (sqrtRatioM1 u v).1 (sqrtRatioM1 u v).2 where
  nonneg := (reduced_sqrtRatioM1 u v).nonneg
  lt := (reduced_sqrtRatioM1 u v).lt
  even := even_sqrtRatioM1 u v
  of_u_zero hu := by
    rw [sqrtRatioM1_of_eq_zero_left hu]
    exact ⟨rfl, rfl⟩
  of_v_zero hu hv := by
    rw [modEq_zero_iff] at hu hv
    rw [sqrtRatioM1_of_eq_zero hu hv]
    exact ⟨rfl, rfl⟩
  flag hu hv := by
    have h := root_of_ne_zero hu hv
    rw [modEq_zero_iff] at hu hv
    exact flag_eq_one_iff hu hv h
  square hu hv hw := by
    rcases root_of_ne_zero hu hv with ⟨-, h⟩ | ⟨hzero, -⟩
    · rw [modEq_iff]
      push_cast
      exact h
    · rw [hw] at hzero
      cases hzero
  nonsquare hu hv hw := by
    rcases root_of_ne_zero hu hv with ⟨hone, -⟩ | ⟨hzero, h⟩
    · exact absurd hone hw
    · refine ⟨hzero, ?_⟩
      rw [modEq_iff]
      push_cast
      exact h

/-- `_sqrt_ratio_m1` returns what `SQRT_RATIO_M1` asks for, and does not tell congruent arguments
apart. -/
theorem sqrtRatioM1_spec (u v : ℤ) :
    SqrtRatioSpec u v (sqrtRatioM1 u v).1 (sqrtRatioM1 u v).2 ∧
      ∀ u' v' : ℤ, u' ≡ u [ZMOD fieldOrder] → v' ≡ v [ZMOD fieldOrder] →
        sqrtRatioM1 u' v' = sqrtRatioM1 u v :=
  ⟨sqrtRatioSpec u v, fun _ _ hu hv => sqrtRatioM1_congr hu hv⟩

/-- The root of a quarter, which only depends on the residues. -/
theorem sqrtRatioM1_spec_sample :
    4 * (sqrtRatioM1 1 4).2 ^ 2 ≡ 1 [ZMOD fieldOrder] ∧
      sqrtRatioM1 (1 + fieldOrder) (4 - fieldOrder) = sqrtRatioM1 1 4 := by
  have h := sqrtRatioM1_spec 1 4
  exact ⟨h.1.square (by decide +kernel) (by decide +kernel) (by decide +kernel),
    h.2 _ _ (by decide +kernel) (by decide +kernel)⟩

end Cli

end Ghos
