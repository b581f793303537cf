import Ghos.Client.InnerProduct

/-!
# The two inverses of the SDK

`invMod` of `sdk/src/crypto/elgamal.ts` runs the extended Euclidean algorithm, and `invScalar` of
`sdk/src/crypto/bulletproof.ts` takes a power.  `inverses_agree`: they return the one inverse in
range, and both throw for the multiples of the modulus.
-/

namespace Ghos

namespace Sdk

variable {n : ℕ} {a : ℤ} {x y : ℕ}

/-- There is at most one. -/
theorem IsInverse.unique (hn : n.Prime) (hx : IsInverse n a x) (hy : IsInverse n a y) : y = x := by
  have : Fact n.Prime := ⟨hn⟩
  have hpos := hn.pos
  have hxle := hx.le_pred
  have hyle := hy.le_pred
  have hcast : (y : ZMod n) = x := by
    calc (y : ZMod n) = a * x * y := by rw [hx.cast_mul, one_mul]
      _ = a * y * x := by ring
      _ = x := by rw [hy.cast_mul, one_mul]
  rwa [ZMod.natCast_eq_natCast_iff', Nat.mod_eq_of_lt (by omega), Nat.mod_eq_of_lt (by omega)]
    at hcast

/-! ### The extended Euclidean algorithm -/

theorem invMod_of_dvd (hn : n.Prime) (h : (n : ℤ) ∣ a) :
    invMod a n = .error (.ghosSdkError invalidKeyDerivation "cannot invert zero scalar") := by
  rw [invMod, (toNat_emod_eq_zero_iff hn.pos).2 h, throwUnless, if_neg (not_not.2 rfl)]
  rfl

/-! ### Fermat's little theorem -/

theorem invScalar_reduceScalar (a : ℤ) : invScalar (reduceScalar a) = invScalar a := by
  rw [invScalar, invScalar, reduceScalar_of_lt (reduceScalar_lt a)]

theorem invScalar_of_dvd (h : (curveOrder : ℤ) ∣ a) :
    invScalar a = .error (.ghosSdkError proofGenerationFailed "cannot invert zero challenge") := by
  have hzero : reduceScalar a = 0 := (toNat_emod_eq_zero_iff curveOrder_pos).2 h
  rw [← invScalar_reduceScalar, invScalar_eq (reduceScalar_lt a), hzero, if_neg (not_not.2 rfl)]

theorem exists_invScalar_isInverse (h : ¬ (curveOrder : ℤ) ∣ a) :
    ∃ x, invScalar a = .ok x ∧ IsInverse curveOrder a x := by
  have hne : reduceScalar a ≠ 0 := mt (toNat_emod_eq_zero_iff curveOrder_pos).1 h
  have hscalar : IsScalar (reduceScalar a) := ⟨Nat.pos_of_ne_zero hne, reduceScalar_lt a⟩
  refine ⟨inverseScalar (reduceScalar a), ?_, isInverse_of_cast prime_curveOrder
    (isScalar_inverseScalar hscalar).2 ?_⟩
  · rw [← invScalar_reduceScalar, invScalar_eq (reduceScalar_lt a), if_pos hne]
  · rw [cast_inverseScalar hscalar, ← cast_reduceScalar a]
    exact mul_inv_cancel₀ hscalar.cast_ne_zero

/-- The two functions return the one inverse in range, and throw where there is none. -/
theorem inverses_agree (hn : n.Prime) (a : ℤ) :
    (¬ (n : ℤ) ∣ a → ∃ x, (IsInverse n a x ∧ ∀ y, IsInverse n a y → y = x) ∧
      invMod a n = .ok x ∧ (n = curveOrder → invScalar a = .ok x)) ∧
    ((n : ℤ) ∣ a →
      invMod a n = .error (.ghosSdkError invalidKeyDerivation "cannot invert zero scalar") ∧
      (n = curveOrder → invScalar a =
        .error (.ghosSdkError proofGenerationFailed "cannot invert zero challenge"))) := by
  refine ⟨fun h => ?_, fun h => ⟨invMod_of_dvd hn h, ?_⟩⟩
  · obtain ⟨x, hx, hinverse⟩ := exists_invMod_isInverse hn h
    refine ⟨x, ⟨hinverse, fun y hy => hinverse.unique hn hy⟩, hx, ?_⟩
    rintro rfl
    obtain ⟨y, hy, hinverse'⟩ := exists_invScalar_isInverse h
    rw [hy, hinverse.unique hn hinverse']
  · rintro rfl
    exact invScalar_of_dvd h

theorem inverses_agree_sample : invMod (-3) 7 = .ok 2 ∧
    invMod 14 7 = .error (.ghosSdkError invalidKeyDerivation "cannot invert zero scalar") ∧
    ∃ x, invMod (-3) curveOrder = .ok x ∧ invScalar (-3) = .ok x := by
  have hseven : Nat.Prime 7 := by decide
  obtain ⟨x, ⟨-, hunique⟩, hx, -⟩ := (inverses_agree hseven (-3)).1 (by decide)
  obtain ⟨y, -, hy, hscalar⟩ := (inverses_agree prime_curveOrder (-3)).1 (by decide +kernel)
  have htwo : IsInverse 7 (-3) 2 := ⟨by decide, by decide, by decide⟩
  rw [← hunique 2 htwo] at hx
  exact ⟨hx, ((inverses_agree hseven 14).2 (by decide)).1, y, hy, hscalar rfl⟩

end Sdk

end Ghos
