import Mathlib.Tactic

/-!
# Decimal arithmetic

Finite decimals and the operations on them in a context.  An operation computes exactly and then
rounds to the precision, halves to even.

* `numDigits`: the length of a coefficient;
* `fix_exact`, `mul_exact`, `div_exact`: nothing is rounded where the exact result fits;
* `quantize_eq_ok`, `quantize_ok`: a number gets the exponent, and its digits fit.
-/

/-- `(-1) ^ negative * coefficient * 10 ^ exponent`. -/
structure Decimal where
  negative : Bool
  coefficient : ℕ
  exponent : ℤ
  deriving DecidableEq

namespace Decimal

def sign (x : Decimal) : ℚ := if x.negative then -1 else 1

/-- The absolute value. -/
def size (x : Decimal) : ℚ := x.coefficient * 10 ^ x.exponent

def value (x : Decimal) : ℚ := x.sign * x.size

/-- The conditions of an operation that are raised. -/
inductive Signal
  | invalidOperation
  | divisionByZero
  | overflow
  deriving DecidableEq

/-- The precision, and the bounds of the exponent of the first digit. -/
structure Context where
  prec : ℕ
  emin : ℤ
  emax : ℤ

/-- The least exponent of the last digit. -/
def Context.etiny (ctx : Context) : ℤ := ctx.emin - (ctx.prec - 1)

/-- The greatest exponent of the last of `prec` digits. -/
def Context.etop (ctx : Context) : ℤ := ctx.emax - (ctx.prec - 1)

/-! ### Digits -/

/-- The length of the coefficient, which is one for zero. -/
def numDigits (c : ℕ) : ℕ := (Nat.toDigits 10 c).length

theorem numDigits_pos (c : ℕ) : 0 < numDigits c := Nat.length_toDigits_pos

theorem numDigits_le_iff {c k : ℕ} (hk : 0 < k) : numDigits c ≤ k ↔ c < 10 ^ k :=
  Nat.length_toDigits_le_iff (by omega) hk

theorem lt_pow_numDigits (c : ℕ) : c < 10 ^ numDigits c :=
  (numDigits_le_iff (numDigits_pos c)).1 le_rfl

theorem numDigits_mul_pow {c : ℕ} (hc : 0 < c) (k : ℕ) :
    numDigits (c * 10 ^ k) = numDigits c + k := by
  apply le_antisymm
  · have hpos := numDigits_pos c
    rw [numDigits_le_iff (by omega), pow_add]
    exact Nat.mul_lt_mul_of_pos_right (lt_pow_numDigits c) (by positivity)
  · have hlt := lt_pow_numDigits (c * 10 ^ k)
    have hk : 10 ^ k < 10 ^ numDigits (c * 10 ^ k) :=
      lt_of_le_of_lt (Nat.le_mul_of_pos_left _ hc) hlt
    rw [Nat.pow_lt_pow_iff_right (by omega)] at hk
    obtain ⟨j, hj⟩ := Nat.exists_eq_add_of_lt hk
    rw [hj, show k + j + 1 = (j + 1) + k by omega, pow_add, Nat.mul_lt_mul_right (by positivity),
      ← numDigits_le_iff (by omega)] at hlt
    omega

theorem numDigits_mul_le (a b : ℕ) : numDigits (a * b) ≤ numDigits a + numDigits b := by
  have ha := numDigits_pos a
  rw [numDigits_le_iff (by omega), pow_add]
  exact Nat.mul_lt_mul'' (lt_pow_numDigits a) (lt_pow_numDigits b)

theorem eq_mul_pow {c m : ℕ} {e j : ℤ} (hej : e ≤ j) :
    (c : ℚ) * 10 ^ e = m * 10 ^ j ↔ c = m * 10 ^ (j - e).toNat := by
  obtain ⟨k, rfl⟩ := Int.exists_add_of_le hej
  have hpow : (10 : ℚ) ^ e ≠ 0 := zpow_ne_zero _ (by norm_num)
  have hk : (e + k - e).toNat = k := by omega
  rw [hk, zpow_add₀ (by norm_num), zpow_natCast, mul_comm ((10 : ℚ) ^ e), ← mul_assoc,
    mul_left_inj' hpow]
  exact_mod_cast Iff.rfl

/-- Numbers of one size have their first digit in the same place. -/
theorem numDigits_add_exponent {c m : ℕ} {e j : ℤ} (hc : 0 < c) (hm : 0 < m)
    (h : (c : ℚ) * 10 ^ e = m * 10 ^ j) : numDigits c + e = numDigits m + j := by
  rcases le_total e j with hej | hje
  · rw [(eq_mul_pow hej).1 h, numDigits_mul_pow hm]
    omega
  · rw [(eq_mul_pow hje).1 h.symm, numDigits_mul_pow hc]
    omega

/-! ### Rounding -/

/-- `c / m`, to the nearest integer and from a half to the even one. -/
def roundHalfEven (c m : ℕ) : ℕ :=
  if m < 2 * (c % m) ∨ m = 2 * (c % m) ∧ c / m % 2 = 1 then c / m + 1 else c / m

/-- The coefficient without its last `k` digits. -/
def dropDigits (c k : ℕ) : ℕ :=
  -- what is less than half a unit need not be computed
  if numDigits c < k then 0 else roundHalfEven c (10 ^ k)

theorem roundHalfEven_mul (c : ℕ) {m : ℕ} (hm : 0 < m) : roundHalfEven (c * m) m = c := by
  rw [roundHalfEven, Nat.mul_mod_left, Nat.mul_div_left c hm, if_neg]
  omega

theorem dropDigits_mul (c k : ℕ) : dropDigits (c * 10 ^ k) k = c := by
  have hpow : 0 < 10 ^ k := by positivity
  unfold dropDigits
  split_ifs with hlt
  · rcases Nat.eq_zero_or_pos c with rfl | hc
    · rfl
    · rw [numDigits_mul_pow hc] at hlt
      omega
  · exact roundHalfEven_mul c hpow

/-- The exponent of the first digit. -/
def adjusted (x : Decimal) : ℤ := numDigits x.coefficient + x.exponent - 1

/-- The number with an exponent, rounded if it has to be. -/
def rescale (x : Decimal) (exp : ℤ) : Decimal :=
  if exp ≤ x.exponent then ⟨x.negative, x.coefficient * 10 ^ (x.exponent - exp).toNat, exp⟩
  else ⟨x.negative, dropDigits x.coefficient (exp - x.exponent).toNat, exp⟩

section Operations

variable (ctx : Context)

/-- Round a result to the precision. -/
def fix (x : Decimal) : Except Signal Decimal :=
  if x.coefficient = 0 then
    .ok { x with exponent := min (max x.exponent ctx.etiny) ctx.emax }
  else if ctx.emax < x.adjusted then .error .overflow
  else
    -- a subnormal result has fewer digits
    let expMin := max (x.adjusted + 1 - ctx.prec) ctx.etiny
    if expMin ≤ x.exponent then .ok x
    else if (x.rescale expMin).coefficient < 10 ^ ctx.prec then .ok (x.rescale expMin)
    else if ctx.etop < expMin + 1 then .error .overflow
    else .ok ⟨x.negative, (x.rescale expMin).coefficient / 10, expMin + 1⟩

/-- `int` with a sign. -/
def ofInt (n : ℤ) : Decimal := ⟨n < 0, n.natAbs, 0⟩

/-- `Decimal(10) ** k`, where the digits fit in the precision. -/
def tenPow (k : ℤ) : Decimal :=
  if 0 ≤ k then ⟨false, 10 ^ k.toNat, 0⟩ else ⟨false, 1, k⟩

def mul (x y : Decimal) : Except Signal Decimal :=
  fix ctx ⟨x.negative ^^ y.negative, x.coefficient * y.coefficient, x.exponent + y.exponent⟩

/-- Take at most so many zeros from the end of a coefficient, and count them. -/
def dropZeros : ℕ → ℕ → ℕ × ℕ
  | 0, c => (c, 0)
  | k + 1, c =>
    if c % 10 = 0 then ((dropZeros k (c / 10)).1, (dropZeros k (c / 10)).2 + 1) else (c, 0)

def div (x y : Decimal) : Except Signal Decimal :=
  let negative := x.negative ^^ y.negative
  if y.coefficient = 0 then
    .error (if x.coefficient = 0 then .invalidOperation else .divisionByZero)
  else if x.coefficient = 0 then fix ctx ⟨negative, 0, x.exponent - y.exponent⟩
  else
    -- one digit more than the precision
    let shift : ℤ := numDigits y.coefficient - numDigits x.coefficient + ctx.prec + 1
    let exp := x.exponent - y.exponent - shift
    let a := x.coefficient * 10 ^ shift.toNat
    let b := y.coefficient * 10 ^ (-shift).toNat
    if a % b = 0 then
      let coeff := dropZeros shift.toNat (a / b)
      fix ctx ⟨negative, coeff.1, exp + coeff.2⟩
    else
      -- a last digit of zero or five would hide that there is more
      fix ctx ⟨negative, if a / b % 5 = 0 then a / b + 1 else a / b, exp⟩

/-- The number with an exponent, which may need rounding, but all digits must fit. -/
def quantize (x : Decimal) (exp : ℤ) : Except Signal Decimal :=
  if ¬ (ctx.etiny ≤ exp ∧ exp ≤ ctx.emax) then .error .invalidOperation
  else if x.coefficient = 0 then fix ctx ⟨x.negative, 0, exp⟩
  else if ctx.emax < x.adjusted then .error .invalidOperation
  else if ctx.prec < x.adjusted - exp + 1 then .error .invalidOperation
  else if ctx.emax < (x.rescale exp).adjusted then .error .invalidOperation
  else if ctx.prec < numDigits (x.rescale exp).coefficient then .error .invalidOperation
  else fix ctx (x.rescale exp)

/-- `to_integral_value`. -/
def toIntegralValue (x : Decimal) : Decimal := if 0 ≤ x.exponent then x else x.rescale 0

/-- `int`, which truncates. -/
def toInt (x : Decimal) : ℤ :=
  let n : ℕ := if 0 ≤ x.exponent then x.coefficient * 10 ^ x.exponent.toNat
    else x.coefficient / 10 ^ (-x.exponent).toNat
  if x.negative then -n else n

/-- `m * 10 ^ j` is a number of the context. -/
structure Fits (m : ℕ) (j : ℤ) : Prop where
  pos : 0 < m
  lt : m < 10 ^ ctx.prec
  etiny_le : ctx.etiny ≤ j
  le_emax : numDigits m + j - 1 ≤ ctx.emax

end Operations

/-! ### Exact results -/

variable {ctx : Context} {x y : Decimal} {m : ℕ} {j : ℤ}

@[simp] theorem rescale_negative (x : Decimal) (exp : ℤ) :
    (x.rescale exp).negative = x.negative := by
  unfold rescale
  split_ifs <;> rfl

@[simp] theorem rescale_exponent (x : Decimal) (exp : ℤ) : (x.rescale exp).exponent = exp := by
  unfold rescale
  split_ifs <;> rfl

theorem value_of_nonnegative (h : x.negative = false) : x.value = x.size := by
  rw [value, sign, h, if_neg Bool.false_ne_true, one_mul]

theorem size_ofInt (n : ℕ) : (ofInt n).size = n := by
  rw [size, ofInt, zpow_zero, mul_one, Int.natAbs_natCast]

theorem negative_ofInt (n : ℕ) : (ofInt n).negative = false :=
  decide_eq_false (by omega : ¬ (n : ℤ) < 0)

theorem size_tenPow (k : ℤ) : (tenPow k).size = 10 ^ k := by
  unfold tenPow
  split_ifs with hk
  · obtain ⟨n, rfl⟩ := Int.eq_ofNat_of_zero_le hk
    simp [size]
  · simp [size]

theorem Fits.numDigits_le (h : Fits ctx m j) : numDigits m ≤ ctx.prec := by
  have hpos := h.pos
  have hlt := h.lt
  have hprec : ctx.prec ≠ 0 := by
    intro hzero
    rw [hzero, pow_zero] at hlt
    omega
  exact (numDigits_le_iff (Nat.pos_of_ne_zero hprec)).2 hlt

theorem coefficient_pos (hm : 0 < m) (hx : x.size = m * 10 ^ j) : 0 < x.coefficient := by
  have hsize : x.size ≠ 0 := by
    rw [hx]
    positivity
  exact Nat.pos_of_ne_zero fun hzero => hsize (by rw [size, hzero, Nat.cast_zero, zero_mul])

theorem adjusted_eq (hm : 0 < m) (hx : x.size = m * 10 ^ j) :
    x.adjusted = numDigits m + j - 1 := by
  rw [adjusted, numDigits_add_exponent (coefficient_pos hm hx) hm hx]

/-- Only zeros are dropped. -/
theorem rescale_eq (hx : x.size = m * 10 ^ j) : x.rescale j = ⟨x.negative, m, j⟩ := by
  unfold rescale
  split_ifs with hle
  · rw [(eq_mul_pow hle).1 hx.symm]
  · rw [(eq_mul_pow (by omega)).1 hx, dropDigits_mul]

/-- Nothing is rounded that fits. -/
theorem fix_exact (h : Fits ctx m j) (hx : x.size = m * 10 ^ j) :
    ∃ y, fix ctx x = .ok y ∧ y.negative = x.negative ∧ y.size = x.size := by
  have hm := h.pos
  have hdigits := h.numDigits_le
  have hlow := h.etiny_le
  have hhigh := h.le_emax
  rw [fix, if_neg (coefficient_pos hm hx).ne', adjusted_eq hm hx, if_neg (by omega)]
  generalize hmin : max ((numDigits m + j - 1 : ℤ) + 1 - ctx.prec) ctx.etiny = expMin
  dsimp only
  by_cases hfew : expMin ≤ x.exponent
  · exact ⟨x, if_pos hfew, rfl, rfl⟩
  · -- the digits of `m` and zeros behind them
    have hsplit : x.size = (m * 10 ^ (j - expMin).toNat : ℕ) * 10 ^ expMin :=
      hx.trans ((eq_mul_pow (by omega)).2 rfl).symm
    have hcount : numDigits (m * 10 ^ (j - expMin).toNat) ≤ ctx.prec := by
      rw [numDigits_mul_pow hm]
      omega
    rw [numDigits_le_iff (hdigits.trans_lt' (numDigits_pos m))] at hcount
    rw [if_neg hfew, rescale_eq hsplit, if_pos hcount]
    exact ⟨_, rfl, rfl, hsplit.symm⟩

/-- What has no digits to spare stays as it is. -/
theorem fix_self (hx : numDigits x.coefficient ≤ ctx.prec) (hlow : ctx.etiny ≤ x.exponent)
    (hhigh : x.adjusted ≤ ctx.emax) : fix ctx x = .ok x := by
  have hadjusted : x.adjusted = numDigits x.coefficient + x.exponent - 1 := rfl
  have hpos := numDigits_pos x.coefficient
  unfold fix
  split_ifs
  · rw [max_eq_left hlow, min_eq_left (by omega)]
  · omega
  · exact if_pos (by omega)

theorem mul_exact (h : Fits ctx m j) (hxy : x.size * y.size = m * 10 ^ j) :
    ∃ z, mul ctx x y = .ok z ∧ z.negative = (x.negative ^^ y.negative) ∧ z.size = m * 10 ^ j := by
  have hproduct : (⟨x.negative ^^ y.negative, x.coefficient * y.coefficient,
      x.exponent + y.exponent⟩ : Decimal).size = m * 10 ^ j := by
    rw [← hxy, size, size, size, Nat.cast_mul, zpow_add₀ (by norm_num)]
    ring
  obtain ⟨z, hz, hnegative, hsize⟩ := fix_exact h hproduct
  exact ⟨z, hz, hnegative, hsize.trans hproduct⟩

theorem dropZeros_spec (k c : ℕ) : (dropZeros k c).1 * 10 ^ (dropZeros k c).2 = c := by
  induction k generalizing c with
  | zero => exact mul_one c
  | succ k ih =>
    unfold dropZeros
    split_ifs with hzero
    · have hc := ih (c / 10)
      rw [pow_succ, ← mul_assoc, hc]
      omega
    · exact mul_one c

/-- The quotient of the coefficients, with zeros behind the first for a positive shift, and behind
the second for a negative one. -/
theorem shift_eq {a b : ℕ} {e f s : ℤ} (h : (a : ℚ) * 10 ^ e = b * 10 ^ f * (m * 10 ^ j))
    (hs : 0 ≤ j - (e - f - s)) :
    a * 10 ^ s.toNat = b * 10 ^ (-s).toNat * (m * 10 ^ (j - (e - f - s)).toNat) := by
  have hk : ((j - (e - f - s)).toNat : ℤ) = j - (e - f - s) := Int.toNat_of_nonneg hs
  have hten : (10 : ℚ) ≠ 0 := by norm_num
  have hleft : (10 : ℚ) ^ s.toNat = 10 ^ e * 10 ^ ((s.toNat : ℤ) - e) := by
    rw [← zpow_natCast, ← zpow_add₀ hten, add_sub_cancel]
  have hright : (10 : ℚ) ^ (-s).toNat * 10 ^ (j - (e - f - s)).toNat =
      10 ^ f * 10 ^ j * 10 ^ ((s.toNat : ℤ) - e) := by
    rw [← zpow_natCast, ← zpow_natCast, hk, ← zpow_add₀ hten, ← zpow_add₀ hten, ← zpow_add₀ hten]
    congr 1
    omega
  have hcast : (a : ℚ) * 10 ^ s.toNat =
      b * 10 ^ (-s).toNat * (m * 10 ^ (j - (e - f - s)).toNat) := by
    rw [hleft, ← mul_assoc, h]
    linear_combination (-(b * m) : ℚ) * hright
  exact_mod_cast hcast

/-- A quotient that fits leaves no remainder. -/
theorem div_exact (h : Fits ctx m j) (hy : 0 < y.coefficient)
    (hxy : x.size = y.size * (m * 10 ^ j)) :
    ∃ z, div ctx x y = .ok z ∧ z.negative = (x.negative ^^ y.negative) ∧ z.size = m * 10 ^ j := by
  have hm := h.pos
  have hproduct : x.size = (y.coefficient * m : ℕ) * 10 ^ (y.exponent + j) := by
    rw [hxy, size, Nat.cast_mul, zpow_add₀ (by norm_num)]
    ring
  have hx := coefficient_pos (Nat.mul_pos hy hm) hproduct
  have hfirst := numDigits_add_exponent hx (Nat.mul_pos hy hm) hproduct
  have hcount := numDigits_mul_le y.coefficient m
  have hdigits := h.numDigits_le
  rw [div, if_neg hy.ne', if_neg hx.ne']
  generalize hshift :
    (numDigits y.coefficient - numDigits x.coefficient + ctx.prec + 1 : ℤ) = shift
  dsimp only
  generalize hexp : x.exponent - y.exponent - shift = exp
  have hzeros : 0 ≤ j - exp := by omega
  have hquotient := shift_eq (s := shift) hxy (hexp ▸ hzeros)
  rw [hexp] at hquotient
  have hb : 0 < y.coefficient * 10 ^ (-shift).toNat := by positivity
  rw [hquotient, Nat.mul_mod_right, if_pos rfl, Nat.mul_div_cancel_left _ hb]
  have hdrop := dropZeros_spec shift.toNat (m * 10 ^ (j - exp).toNat)
  generalize dropZeros shift.toNat (m * 10 ^ (j - exp).toNat) = coeff at hdrop
  have hsize : (⟨x.negative ^^ y.negative, coeff.1, exp + coeff.2⟩ : Decimal).size =
      m * 10 ^ j := by
    rw [← (eq_mul_pow (c := m * 10 ^ (j - exp).toNat) (e := exp) (by omega)).2 rfl, ← hdrop, size,
      zpow_add₀ (by norm_num), zpow_natCast]
    push_cast
    ring
  obtain ⟨z, hz, hnegative, hzsize⟩ := fix_exact h hsize
  exact ⟨z, hz, hnegative, hzsize.trans hsize⟩

/-- All digits of a result have their place. -/
theorem quantize_ok {exp : ℤ} (hx : 0 < x.coefficient) (h : quantize ctx x exp = .ok y) :
    y = x.rescale exp ∧ numDigits y.coefficient ≤ ctx.prec := by
  have hexponent := rescale_exponent x exp
  unfold quantize at h
  split_ifs at h with hbounds hzero hlarge hlong hover hwide
  · omega
  · rw [fix_self (by omega) (by omega) (by omega)] at h
    obtain rfl := Except.ok.inj h
    exact ⟨rfl, by omega⟩

/-- The digits of a number that fits are found. -/
theorem quantize_eq_ok (h : Fits ctx m j) (hx : x.size = m * 10 ^ j) :
    quantize ctx x j = .ok ⟨x.negative, m, j⟩ := by
  have hm := h.pos
  have hdigits := h.numDigits_le
  have hlow := h.etiny_le
  have hhigh := h.le_emax
  have hpos := numDigits_pos m
  have hresult : (⟨x.negative, m, j⟩ : Decimal).adjusted ≤ ctx.emax := hhigh
  rw [quantize, if_neg (by omega), if_neg (coefficient_pos hm hx).ne', adjusted_eq hm hx,
    if_neg (by omega), if_neg (by omega), rescale_eq hx, if_neg hresult.not_gt,
    if_neg hdigits.not_gt]
  exact fix_self hdigits hlow hhigh

/-! ### Integers -/

theorem toIntegralValue_size (hx : x.size = m) : (toIntegralValue x).size = m := by
  unfold toIntegralValue
  split_ifs with hexponent
  · exact hx
  · rw [rescale_eq (hx.trans (by rw [zpow_zero, mul_one])), size, zpow_zero, mul_one]

theorem toIntegralValue_negative : (toIntegralValue x).negative = x.negative := by
  unfold toIntegralValue
  split_ifs
  · rfl
  · exact rescale_negative x 0

theorem toInt_eq (hnegative : x.negative = false) (hx : x.size = m) : toInt x = m := by
  have hsize : x.size = m * 10 ^ (0 : ℤ) := hx.trans (by rw [zpow_zero, mul_one])
  rw [toInt, hnegative, if_neg Bool.false_ne_true]
  split_ifs with hexponent
  · rw [(eq_mul_pow hexponent).1 hsize.symm, sub_zero]
  · rw [(eq_mul_pow (by omega)).1 hsize, zero_sub, Nat.mul_div_cancel _ (by positivity)]

end Decimal
