import Mathlib.FieldTheory.Finite.Basic
import Ghos.Lib.EdwardsCodes
import Ghos.Client.Ristretto

/-!
# The field below the group

The helpers of `cli/ghos_cli/crypto/elgamal.py` for the field of `_P` elements.  The code computes
with integers and reduces modulo `_P` after every operation; the integers stand for elements of
`FieldElement`.

* `prime_fieldOrder`: it is a field;
* `sqrtRatioM1_eq`: what `_sqrt_ratio_m1` returns.
-/

namespace Ghos

/-- Primes with an element of order one less and the prime factors of one less. -/
def fieldOrderCertificate : List Modular.LucasEntry :=
  [⟨2, 1, []⟩, ⟨3, 2, [2]⟩, ⟨5, 2, [2, 2]⟩, ⟨7, 3, [2, 3]⟩, ⟨11, 2, [2, 5]⟩, ⟨13, 2, [2, 2, 3]⟩,
   ⟨17, 3, [2, 2, 2, 2]⟩, ⟨19, 2, [2, 3, 3]⟩, ⟨23, 5, [2, 11]⟩, ⟨29, 2, [2, 2, 7]⟩,
   ⟨31, 3, [2, 3, 5]⟩, ⟨37, 2, [2, 2, 3, 3]⟩, ⟨41, 6, [2, 2, 2, 5]⟩, ⟨43, 3, [2, 3, 7]⟩,
   ⟨47, 5, [2, 23]⟩, ⟨53, 2, [2, 2, 13]⟩, ⟨59, 2, [2, 29]⟩, ⟨83, 2, [2, 41]⟩,
   ⟨97, 5, [2, 2, 2, 2, 2, 3]⟩, ⟨103, 5, [2, 3, 17]⟩, ⟨107, 2, [2, 53]⟩, ⟨127, 3, [2, 3, 3, 7]⟩,
   ⟨131, 2, [2, 5, 13]⟩, ⟨173, 2, [2, 2, 43]⟩, ⟨223, 3, [2, 3, 37]⟩, ⟨239, 7, [2, 7, 17]⟩,
   ⟨353, 3, [2, 2, 2, 2, 2, 11]⟩, ⟨419, 2, [2, 11, 19]⟩, ⟨479, 13, [2, 239]⟩,
   ⟨487, 3, [2, 3, 3, 3, 3, 3]⟩, ⟨991, 6, [2, 3, 3, 5, 11]⟩, ⟨1723, 3, [2, 3, 7, 41]⟩,
   ⟨2437, 2, [2, 2, 3, 7, 29]⟩, ⟨3727, 3, [2, 3, 3, 3, 3, 23]⟩, ⟨4153, 5, [2, 2, 2, 3, 173]⟩,
   ⟨9463, 3, [2, 3, 19, 83]⟩, ⟨32573, 2, [2, 2, 17, 479]⟩, ⟨37853, 2, [2, 2, 9463]⟩,
   ⟨57467, 2, [2, 59, 487]⟩, ⟨65147, 2, [2, 32573]⟩, ⟨75707, 2, [2, 37853]⟩,
   ⟨132049, 26, [2, 2, 2, 2, 3, 3, 7, 131]⟩, ⟨430751, 17, [2, 5, 5, 5, 1723]⟩,
   ⟨569003, 2, [2, 7, 97, 419]⟩, ⟨1923133, 2, [2, 2, 3, 43, 3727]⟩,
   ⟨8574133, 2, [2, 2, 3, 7, 103, 991]⟩, ⟨2773320623, 5, [2, 2437, 569003]⟩,
   ⟨72106336199, 7, [2, 13, 2773320623]⟩,
   ⟨1919519569386763, 2, [2, 3, 7, 19, 47, 47, 127, 8574133]⟩,
   ⟨31757755568855353, 10, [2, 2, 2, 3, 31, 107, 223, 4153, 430751]⟩,
   ⟨75445702479781427272750846543864801, 7,
     [2, 2, 2, 2, 2, 3, 3, 5, 5, 75707, 72106336199, 1919519569386763]⟩,
   ⟨74058212732561358302231226437062788676166966415465897661863160754340907, 2,
     [2, 3, 353, 57467, 132049, 1923133, 31757755568855353, 75445702479781427272750846543864801]⟩,
   ⟨57896044618658097711785492504343953926634992332820282019728792003956564819949, 2,
     [2, 2, 3, 65147, 74058212732561358302231226437062788676166966415465897661863160754340907]⟩]

theorem prime_fieldOrder : fieldOrder.Prime := by
  have hcheck : Modular.checkLucas [] fieldOrderCertificate = true := by decide +kernel
  exact Modular.prime_of_checkLucas (List.forall_mem_nil _) hcheck (by decide +kernel)

instance : Fact fieldOrder.Prime := ⟨prime_fieldOrder⟩

instance : NeZero fieldOrder := ⟨prime_fieldOrder.ne_zero⟩

/-- What the integers of the code stand for. -/
abbrev FieldElement : Type := ZMod fieldOrder

namespace Cli

/-- `pow` with a modulus. -/
def powMod (base : ℤ) (exponent modulus : ℕ) : ℤ :=
  Modular.powMod modulus (exponent.log2 + 1) (base % modulus).toNat exponent

/-- `_D`, the parameter of edwards25519. -/
def curveD : ℤ := -121665 * powMod 121666 (fieldOrder - 2) fieldOrder % fieldOrder

/-- `_SQRT_M1`. -/
def sqrtM1 : ℤ := powMod 2 ((fieldOrder - 1) / 4) fieldOrder

/-- `_INVSQRT_A_MINUS_D`, the inverse square root of `-1 - _D`. -/
def invsqrtAMinusD : ℤ :=
  54469307008909316920995813868745141605393597292927456921205312896311721017578

/-- The sign of a field element, 1 if it is negative. -/
def isNegativeFe (x : ℤ) : ℤ := x % 2

/-- The representative of a field element or its negative whose sign is zero. -/
def absFe (x : ℤ) : ℤ :=
  if isNegativeFe x ≠ 0 then (fieldOrder - x) % fieldOrder else x % fieldOrder

/-- Field element equality, 0 or 1. -/
def ctEqFe (a b : ℤ) : ℕ := if (a - b) % fieldOrder = 0 then 1 else 0

/-- The square root of `u / v` and whether there is one. -/
def sqrtRatioM1 (u v : ℤ) : ℕ × ℤ :=
  let u := u % fieldOrder
  let v := v % fieldOrder
  let v3 := v * v * v % fieldOrder
  let v7 := v3 * v3 * v % fieldOrder
  let r := u * v3 * powMod (u * v7 % fieldOrder) ((fieldOrder - 5) / 8) fieldOrder % fieldOrder
  let check := v * r * r % fieldOrder
  let correctSignSqrt := ctEqFe check u
  let flippedSignSqrt := ctEqFe check (-u % fieldOrder)
  let flippedSignSqrtI := ctEqFe check (-u * sqrtM1 % fieldOrder)
  let rPrime := r * sqrtM1 % fieldOrder
  let r := if flippedSignSqrt ≠ 0 ∨ flippedSignSqrtI ≠ 0 then rPrime else r
  let wasSquare := correctSignSqrt ||| flippedSignSqrt
  (wasSquare, absFe r)

/-! ### Reduced integers -/

/-- The integers that stand for their own residue. -/
structure Reduced (x : ℤ) : Prop where
  nonneg : 0 ≤ x
  lt : x < fieldOrder

theorem fieldOrder_pos : (0 : ℤ) < fieldOrder := Int.natCast_pos.2 prime_fieldOrder.pos

theorem reduced_emod (x : ℤ) : Reduced (x % fieldOrder) :=
  ⟨Int.emod_nonneg _ fieldOrder_pos.ne', Int.emod_lt_of_pos _ fieldOrder_pos⟩

@[simp] theorem cast_emod (x : ℤ) : ((x % fieldOrder : ℤ) : FieldElement) = x :=
  ZMod.intCast_mod x fieldOrder

theorem cast_of_emod_eq {x y : ℤ} (h : x % fieldOrder = y) : (y : FieldElement) = x := by
  rw [← h, cast_emod]

theorem cast_eq_iff {x y : ℤ} : (x : FieldElement) = y ↔ x % fieldOrder = y % fieldOrder :=
  ZMod.intCast_eq_intCast_iff' x y fieldOrder

theorem cast_eq_zero_iff {x : ℤ} : (x : FieldElement) = 0 ↔ x % fieldOrder = 0 := by
  rw [← Int.cast_zero, cast_eq_iff, Int.zero_emod]

theorem Reduced.val_cast {x : ℤ} (hx : Reduced x) : ((x : FieldElement).val : ℤ) = x := by
  rw [ZMod.val_intCast, Int.emod_eq_of_lt hx.nonneg hx.lt]

theorem Reduced.cast_inj {x y : ℤ} (hx : Reduced x) (hy : Reduced y) :
    (x : FieldElement) = y ↔ x = y := by
  rw [cast_eq_iff, Int.emod_eq_of_lt hx.nonneg hx.lt, Int.emod_eq_of_lt hy.nonneg hy.lt]

theorem Reduced.cast_eq_zero_iff {x : ℤ} (hx : Reduced x) : (x : FieldElement) = 0 ↔ x = 0 := by
  rw [Cli.cast_eq_zero_iff, Int.emod_eq_of_lt hx.nonneg hx.lt]

@[simp] theorem cast_powMod (base : ℤ) (exponent : ℕ) :
    (powMod base exponent fieldOrder : FieldElement) = (base : FieldElement) ^ exponent := by
  have hbase : ((base % fieldOrder).toNat : FieldElement) = base := by
    rw [← Int.cast_natCast, Int.toNat_of_nonneg (reduced_emod base).nonneg, cast_emod]
  rw [powMod, Modular.powMod_eq Nat.lt_log2_self, Int.cast_natCast, ZMod.natCast_mod, Nat.cast_pow,
    hbase]

/-- Euler's criterion, to be computed. -/
theorem isSquare_iff {x : ℤ} (hx : x % fieldOrder ≠ 0) :
    IsSquare (x : FieldElement) ↔ powMod x (fieldOrder / 2) fieldOrder % fieldOrder = 1 := by
  have hone : (1 : ℤ) % fieldOrder = 1 := by decide +kernel
  rw [ZMod.euler_criterion fieldOrder (mt cast_eq_zero_iff.1 hx), ← cast_powMod, ← Int.cast_one,
    cast_eq_iff, hone]

/-! ### Signs -/

/-- Odd elements are negative. -/
def sign : SignRule FieldElement where
  negative a := a.val % 2 = 1
  negative_neg_iff := by
    intro a ha
    have : NeZero a := ⟨ha⟩
    have hodd : fieldOrder % 2 = 1 := by decide +kernel
    have hlt := ZMod.val_lt a
    rw [ZMod.val_neg_of_ne_zero]
    omega
  not_negative_zero := by
    rw [ZMod.val_zero]
    omega

theorem negative_iff (a : FieldElement) : sign.negative a ↔ a.val % 2 = 1 := Iff.rfl

instance : DecidablePred sign.negative := fun a => decidable_of_iff _ (negative_iff a).symm

theorem Reduced.isNegativeFe_ne_zero_iff {x : ℤ} (hx : Reduced x) :
    isNegativeFe x ≠ 0 ↔ sign.negative (x : FieldElement) := by
  have hval := hx.val_cast
  rw [negative_iff, isNegativeFe]
  omega

theorem reduced_absFe (x : ℤ) : Reduced (absFe x) := by
  unfold absFe
  split_ifs
  · exact reduced_emod _
  · exact reduced_emod _

theorem cast_absFe_sq (x : ℤ) : (absFe x : FieldElement) ^ 2 = (x : FieldElement) ^ 2 := by
  unfold absFe
  split_ifs
  · rw [cast_emod, Int.cast_sub, Int.cast_natCast, ZMod.natCast_self, zero_sub, neg_sq]
  · rw [cast_emod]

theorem Reduced.not_negative_absFe {x : ℤ} (hx : Reduced x) :
    ¬ sign.negative (absFe x : FieldElement) := by
  by_cases hneg : isNegativeFe x ≠ 0
  · rw [absFe, if_pos hneg, cast_emod, Int.cast_sub, Int.cast_natCast, ZMod.natCast_self, zero_sub]
    rw [hx.isNegativeFe_ne_zero_iff] at hneg
    have hne : (x : FieldElement) ≠ 0 := by
      intro hzero
      rw [hzero] at hneg
      exact sign.not_negative_zero hneg
    rw [sign.negative_neg_iff _ hne, not_not]
    exact hneg
  · rwa [absFe, if_neg hneg, cast_emod, ← hx.isNegativeFe_ne_zero_iff]

theorem ctEqFe_eq (a b : ℤ) : ctEqFe a b = if (a : FieldElement) = b then 1 else 0 := by
  have hiff : (a - b) % fieldOrder = 0 ↔ (a : FieldElement) = b := by
    rw [← cast_eq_zero_iff, Int.cast_sub, sub_eq_zero]
  rw [ctEqFe]
  exact if_congr hiff rfl rfl

/-! ### The square root of a ratio -/

theorem sqrtM1_sq : (sqrtM1 : FieldElement) ^ 2 = -1 := by
  have hcheck : sqrtM1 ^ 2 % fieldOrder = -1 % fieldOrder := by decide +kernel
  exact_mod_cast cast_eq_iff.2 hcheck

theorem not_isSquare_sqrtM1 : ¬ IsSquare (sqrtM1 : FieldElement) := by
  rw [isSquare_iff (by decide +kernel)]
  decide +kernel

/-- The first candidate is a square root up to a fourth root of unity. -/
theorem fourth_root_of_unity {w : FieldElement} (hw : w ≠ 0) :
    w ^ ((fieldOrder - 1) / 4) = 1 ∨ w ^ ((fieldOrder - 1) / 4) = -1 ∨
      w ^ ((fieldOrder - 1) / 4) = sqrtM1 ∨ w ^ ((fieldOrder - 1) / 4) = -sqrtM1 := by
  have hi := sqrtM1_sq
  have hexponent : (fieldOrder - 1) / 4 * 4 = fieldOrder - 1 := by decide +kernel
  have hfermat : (w ^ ((fieldOrder - 1) / 4)) ^ 4 = 1 := by
    rw [← pow_mul, hexponent, ZMod.pow_card_sub_one_eq_one hw]
  have hfactor : (w ^ ((fieldOrder - 1) / 4)) ^ 2 = 1 ∨
      (w ^ ((fieldOrder - 1) / 4)) ^ 2 = (sqrtM1 : FieldElement) ^ 2 := by
    rw [hi, ← sq_eq_one_iff, ← pow_mul, hfermat]
  rcases hfactor with h | h
  · exact (sq_eq_one_iff.1 h).imp_right .inl
  · exact .inr (.inr (sq_eq_sq_iff_eq_or_eq_neg.1 h))

theorem sqrtM1_ne : (sqrtM1 : FieldElement) ≠ 1 ∧ (sqrtM1 : FieldElement) ≠ -1 ∧
    (-1 : FieldElement) ≠ 1 ∧ (sqrtM1 : FieldElement) ≠ -sqrtM1 := by
  have htwo : (2 : FieldElement) ≠ 0 := by
    intro hzero
    have hcheck : (2 : ℤ) % fieldOrder ≠ 0 := by decide +kernel
    exact hcheck (cast_eq_zero_iff.1 (by exact_mod_cast hzero))
  have hone : (-1 : FieldElement) ≠ 1 := fun h => htwo (by linear_combination -h)
  have hi := sqrtM1_sq
  refine ⟨fun h => hone ?_, fun h => hone ?_, hone, fun h => hone ?_⟩
  · rw [← hi, h, one_pow]
  · rw [← hi, h, neg_one_sq]
  · refine absurd (mul_left_cancel₀ htwo ?_ : (sqrtM1 : FieldElement) = 0) ?_
    · linear_combination h
    · intro hzero
      rw [hzero] at hi
      norm_num at hi

/-- The candidate for the root, before its sign is chosen. -/
def sqrtCandidate (u v : ℤ) : ℤ :=
  let v3 := v * v * v % fieldOrder
  let v7 := v3 * v3 * v % fieldOrder
  u * v3 * powMod (u * v7 % fieldOrder) ((fieldOrder - 5) / 8) fieldOrder % fieldOrder

variable {u v : ℤ}

theorem mul_sqrtCandidate_sq (u v : ℤ) : (v : FieldElement) * (sqrtCandidate u v) ^ 2 =
    (u : FieldElement) * (u * v ^ 7) ^ ((fieldOrder - 1) / 4) := by
  have hexponent : (fieldOrder - 1) / 4 = (fieldOrder - 5) / 8 * 2 + 1 := by decide +kernel
  have hcast : (sqrtCandidate u v : FieldElement) =
      u * v ^ 3 * (u * v ^ 7) ^ ((fieldOrder - 5) / 8) := by
    simp only [sqrtCandidate, cast_emod, cast_powMod, Int.cast_mul]
    rw [show ((v : FieldElement) * v * v * (v * v * v) * v) = v ^ 7 by ring,
      show ((v : FieldElement) * v * v) = v ^ 3 by ring]
  have hpower : ((u : FieldElement) * v ^ 7) ^ ((fieldOrder - 1) / 4) =
      ((u * v ^ 7) ^ ((fieldOrder - 5) / 8)) ^ 2 * (u * v ^ 7) := by
    rw [hexponent, pow_succ, pow_mul]
  rw [hcast, hpower]
  ring

/-- The flags say which fourth root of unity the candidate has met. -/
theorem sqrtRatioM1_eq (hu : (u : FieldElement) ≠ 0) :
    let ζ := ((u : FieldElement) * v ^ 7) ^ ((fieldOrder - 1) / 4)
    let r := sqrtCandidate (u % fieldOrder) (v % fieldOrder)
    sqrtRatioM1 u v = ((if ζ = 1 then 1 else 0) ||| (if ζ = -1 then 1 else 0),
      absFe (if ζ = -1 ∨ ζ = -sqrtM1 then r * sqrtM1 % fieldOrder else r)) := by
  intro ζ r
  have hsquare : (v : FieldElement) * (r : FieldElement) ^ 2 = u * ζ := by
    have hcandidate := mul_sqrtCandidate_sq (u % fieldOrder) (v % fieldOrder)
    rwa [cast_emod, cast_emod] at hcandidate
  set check := v % fieldOrder * r * r % fieldOrder with hcheck
  have hflag : ∀ (a : ℤ) (x : FieldElement), (a : FieldElement) = x * u →
      ctEqFe check a = if ζ = x then 1 else 0 := by
    intro a x ha
    rw [ctEqFe_eq]
    refine if_congr ?_ rfl rfl
    rw [hcheck, ha, cast_emod, Int.cast_mul, Int.cast_mul, cast_emod, mul_assoc, ← pow_two, hsquare,
      mul_comm, mul_left_inj' hu]
  have hcorrect := hflag (u % fieldOrder) 1 (by simp)
  have hflipped := hflag (-(u % fieldOrder) % fieldOrder) (-1) (by simp)
  have hflippedI := hflag (-(u % fieldOrder) * sqrtM1 % fieldOrder) (-sqrtM1) (by simp [mul_comm])
  have htruth : ∀ (c : Prop) [Decidable c], (if c then 1 else 0) ≠ 0 ↔ c := by
    intro c _
    split_ifs with h <;> simp [h]
  show (ctEqFe check (u % fieldOrder) ||| ctEqFe check (-(u % fieldOrder) % fieldOrder),
    absFe (if ctEqFe check (-(u % fieldOrder) % fieldOrder) ≠ 0 ∨
      ctEqFe check (-(u % fieldOrder) * sqrtM1 % fieldOrder) ≠ 0
      then r * sqrtM1 % fieldOrder else r)) = _
  rw [hcorrect, hflipped, hflippedI]
  simp only [htruth]

/-- The square root of a ratio, if neither term is zero. -/
theorem sqrtRatioM1_of_ne_zero (hu : (u : FieldElement) ≠ 0) (hv : (v : FieldElement) ≠ 0) :
    ∃ w r, sqrtRatioM1 u v = (w, r) ∧ Reduced r ∧ ¬ sign.negative (r : FieldElement) ∧
      (w = 1 ∧ (v : FieldElement) * r ^ 2 = u ∨
        w = 0 ∧ (v : FieldElement) * r ^ 2 = sqrtM1 * u) := by
  obtain ⟨hne1, hneg1, hone, hself⟩ := sqrtM1_ne
  have hi := sqrtM1_sq
  set r := sqrtCandidate (u % fieldOrder) (v % fieldOrder) with hr
  have hreduced : Reduced r := reduced_emod _
  have hturned : Reduced (r * sqrtM1 % fieldOrder) := reduced_emod _
  have hsquare := mul_sqrtCandidate_sq (u % fieldOrder) (v % fieldOrder)
  rw [cast_emod, cast_emod, ← hr] at hsquare
  have hw : (u * v ^ 7 : FieldElement) ≠ 0 := mul_ne_zero hu (pow_ne_zero 7 hv)
  have hturn : (v : FieldElement) * (r * sqrtM1 % fieldOrder : ℤ) ^ 2 = -(v * r ^ 2) := by
    rw [cast_emod, Int.cast_mul]
    linear_combination (v * r ^ 2 : FieldElement) * hi
  have hone' : (1 : FieldElement) ≠ -1 := hone.symm
  have hneg1' : -(sqrtM1 : FieldElement) ≠ 1 := fun h => hneg1 (by rw [← h, neg_neg])
  have hne1' : -(sqrtM1 : FieldElement) ≠ -1 := fun h => hne1 (neg_inj.1 h)
  rw [sqrtRatioM1_eq hu]
  simp only [← hr]
  rcases fourth_root_of_unity hw with hζ | hζ | hζ | hζ <;> rw [hζ] at hsquare
  · refine ⟨1, absFe r, ?_, reduced_absFe r, hreduced.not_negative_absFe, .inl ⟨rfl, ?_⟩⟩
    · simp [hζ, hone', hneg1'.symm]
    · rw [cast_absFe_sq, hsquare, mul_one]
  · refine ⟨1, absFe (r * sqrtM1 % fieldOrder), ?_, reduced_absFe _, hturned.not_negative_absFe,
      .inl ⟨rfl, ?_⟩⟩
    · simp [hζ, hone]
    · rw [cast_absFe_sq, hturn, hsquare, mul_neg, mul_one, neg_neg]
  · refine ⟨0, absFe r, ?_, reduced_absFe r, hreduced.not_negative_absFe, .inr ⟨rfl, ?_⟩⟩
    · simp [hζ, hne1, hneg1, hself]
    · rw [cast_absFe_sq, hsquare, mul_comm]
  · refine ⟨0, absFe (r * sqrtM1 % fieldOrder), ?_, reduced_absFe _, hturned.not_negative_absFe,
      .inr ⟨rfl, ?_⟩⟩
    · simp [hζ, hneg1', hne1']
    · rw [cast_absFe_sq, hturn, hsquare, mul_neg, neg_neg, mul_comm]

/-- If the divisor is zero, there is no square root. -/
theorem sqrtRatioM1_of_eq_zero (hu : (u : FieldElement) ≠ 0) (hv : (v : FieldElement) = 0) :
    sqrtRatioM1 u v = (0, 0) := by
  have hexponent : (fieldOrder - 1) / 4 ≠ 0 := by decide +kernel
  have hi : (0 : FieldElement) ≠ -sqrtM1 := by
    intro hzero
    have hsquare := sqrtM1_sq
    rw [neg_eq_zero.1 hzero.symm] at hsquare
    norm_num at hsquare
  have hζ : ((u : FieldElement) * v ^ 7) ^ ((fieldOrder - 1) / 4) = 0 := by
    rw [hv, zero_pow (by norm_num), mul_zero, zero_pow hexponent]
  have hcandidate : sqrtCandidate (u % fieldOrder) (v % fieldOrder) = 0 := by
    have hv0 : v % fieldOrder = 0 := cast_eq_zero_iff.1 hv
    simp [sqrtCandidate, hv0]
  rw [sqrtRatioM1_eq hu]
  simp only [hζ, hcandidate]
  rw [if_neg zero_ne_one, if_neg (by norm_num), if_neg (not_or.2 ⟨by norm_num, hi⟩)]
  decide +kernel

/-- The inverse square root, as the codec asks for it. -/
theorem sqrtRatioM1_one {v : ℤ} {w : ℕ} {r : ℤ} (h : sqrtRatioM1 1 v = (w, r)) :
    w ≠ 0 ∧ (v : FieldElement) * r ^ 2 = 1 ∨
      w = 0 ∧ ((v : FieldElement) = 0 ∨ ¬ IsSquare (v : FieldElement)) := by
  have hone : ((1 : ℤ) : FieldElement) ≠ 0 := by
    rw [Int.cast_one]
    exact one_ne_zero
  by_cases hv : (v : FieldElement) = 0
  · rw [sqrtRatioM1_of_eq_zero hone hv] at h
    exact .inr ⟨(congrArg Prod.fst h).symm, .inl hv⟩
  · obtain ⟨w', r', heq, -, -, hroot⟩ := sqrtRatioM1_of_ne_zero hone hv
    rw [heq] at h
    obtain ⟨rfl, rfl⟩ := Prod.ext_iff.1 h
    rw [Int.cast_one, mul_one] at hroot
    refine hroot.imp (fun h => ⟨by omega, h.2⟩) fun h => ⟨h.1, .inr fun hsquare => ?_⟩
    refine not_isSquare_sqrtM1 ?_
    rw [← h.2]
    exact hsquare.mul (IsSquare.sq _)

end Cli

end Ghos
