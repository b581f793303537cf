import Ghos.Client.Field25519

/-!
# edwards25519

The points of `cli/ghos_cli/crypto/elgamal.py` in extended coordinates, and the points of the curve
that they represent.

* `Represents.add`, `Represents.negate`, `Represents.scalarMul`: the code computes in the group of
  the curve;
* `addOrderOf_generator`, `addOrderOf_eighthTurn`: a point of prime order and one of order eight;
* `card_coset25519`: there are `curveOrder` cosets of even points.
-/

namespace Ghos

/-- `-x² + y² = 1 + _D x² y²`. -/
def edwards25519 : EdwardsCurve FieldElement where
  d := Cli.curveD
  i := Cli.sqrtM1
  i_sq := Cli.sqrtM1_sq
  not_isSquare_d := by
    rw [Cli.isSquare_iff (by decide +kernel)]
    decide +kernel
  two_ne := by
    have hcheck : (2 : ℤ) % fieldOrder ≠ 0 := by decide +kernel
    exact_mod_cast mt Cli.cast_eq_zero_iff.1 hcheck

namespace Cli

/-! ### Extended coordinates -/

/-- An extended Edwards point: `x = X / Z`, `y = Y / Z`, `T = X Y / Z`. -/
structure ExtendedPoint where
  X : ℤ
  Y : ℤ
  Z : ℤ
  T : ℤ
  deriving DecidableEq

namespace ExtendedPoint

def identity : ExtendedPoint := ⟨0, 1, 1, 0⟩

/-- Unified addition for twisted Edwards curves. -/
def add (self other : ExtendedPoint) : ExtendedPoint :=
  let a := (self.Y - self.X) * (other.Y - other.X) % fieldOrder
  let b := (self.Y + self.X) * (other.Y + other.X) % fieldOrder
  let c := self.T * 2 * curveD * other.T % fieldOrder
  let dd := self.Z * 2 * other.Z % fieldOrder
  let e := (b - a) % fieldOrder
  let f := (dd - c) % fieldOrder
  let g := (dd + c) % fieldOrder
  let h := (b + a) % fieldOrder
  ⟨e * f % fieldOrder, g * h % fieldOrder, f * g % fieldOrder, e * h % fieldOrder⟩

def double (self : ExtendedPoint) : ExtendedPoint := self.add self

def negate (self : ExtendedPoint) : ExtendedPoint :=
  ⟨-self.X % fieldOrder, self.Y % fieldOrder, self.Z % fieldOrder, -self.T % fieldOrder⟩

/-- The loop of `scalar_mul`, from the least significant bit of `k` on. -/
def scalarMulLoop (k : ℕ) (result base : ExtendedPoint) : ExtendedPoint :=
  if _hk : k = 0 then result
  else scalarMulLoop (k / 2) (if k % 2 = 1 then result.add base else result) base.double
termination_by k

def scalarMul (self : ExtendedPoint) (k : ℤ) : ExtendedPoint :=
  scalarMulLoop (reduceScalar k) identity self

end ExtendedPoint

/-- The coordinates represent the point. -/
structure Represents (P : ExtendedPoint) (p : edwards25519.Point) : Prop where
  Z_ne_zero : (P.Z : FieldElement) ≠ 0
  X_eq : (P.X : FieldElement) = p.x * P.Z
  Y_eq : (P.Y : FieldElement) = p.y * P.Z
  T_eq : (P.T : FieldElement) = p.x * p.y * P.Z

open ExtendedPoint

variable {P Q : ExtendedPoint} {p q : edwards25519.Point}

theorem represents_identity : Represents identity 0 where
  Z_ne_zero := by simp [identity]
  X_eq := by simp [identity]
  Y_eq := by simp [identity]
  T_eq := by simp [identity]

/-- The coordinates of the sum, over the product of the denominators. -/
theorem Represents.cast_add (hP : Represents P p) (hQ : Represents Q q) :
    ((P.add Q).X : FieldElement) = 4 * (P.Z * Q.Z) ^ 2 *
        ((p.x * q.y + p.y * q.x) * (1 - p.product q)) ∧
      ((P.add Q).Y : FieldElement) = 4 * (P.Z * Q.Z) ^ 2 *
        ((p.y * q.y + p.x * q.x) * (1 + p.product q)) ∧
      ((P.add Q).Z : FieldElement) = 4 * (P.Z * Q.Z) ^ 2 *
        ((1 + p.product q) * (1 - p.product q)) ∧
      ((P.add Q).T : FieldElement) = 4 * (P.Z * Q.Z) ^ 2 *
        ((p.x * q.y + p.y * q.x) * (p.y * q.y + p.x * q.x)) := by
  have hd : edwards25519.d = curveD := rfl
  simp only [ExtendedPoint.add, cast_emod, Int.cast_mul, Int.cast_sub, Int.cast_add, Int.cast_ofNat,
    hP.X_eq, hP.Y_eq, hP.T_eq, hQ.X_eq, hQ.Y_eq, hQ.T_eq, EdwardsCurve.Point.product, hd]
  refine ⟨?_, ?_, ?_, ?_⟩ <;> ring

theorem Represents.add (hP : Represents P p) (hQ : Represents Q q) :
    Represents (P.add Q) (p + q) := by
  obtain ⟨hX, hY, hZ, hT⟩ := hP.cast_add hQ
  have hadd := p.one_add_product_ne_zero q
  have hsub := p.one_sub_product_ne_zero q
  have hfour : (4 : FieldElement) ≠ 0 := by
    have htwo := edwards25519.two_ne
    intro h
    exact mul_ne_zero htwo htwo (by linear_combination h)
  refine ⟨?_, ?_, ?_, ?_⟩
  · rw [hZ]
    exact mul_ne_zero (mul_ne_zero hfour (pow_ne_zero 2 (mul_ne_zero hP.Z_ne_zero hQ.Z_ne_zero)))
      (mul_ne_zero hadd hsub)
  · rw [hX, hZ, EdwardsCurve.Point.add_x]
    field_simp
  · rw [hY, hZ, EdwardsCurve.Point.add_y]
    field_simp
  · rw [hT, hZ, EdwardsCurve.Point.add_x, EdwardsCurve.Point.add_y]
    field_simp

theorem Represents.double (hP : Represents P p) : Represents P.double (p + p) := hP.add hP

theorem Represents.negate (hP : Represents P p) : Represents P.negate (-p) where
  Z_ne_zero := by
    simpa [ExtendedPoint.negate] using hP.Z_ne_zero
  X_eq := by simp [ExtendedPoint.negate, hP.X_eq]
  Y_eq := by simp [ExtendedPoint.negate, hP.Y_eq]
  T_eq := by simp [ExtendedPoint.negate, hP.T_eq]

/-- The loop adds the multiple by what is left of the scalar. -/
theorem Represents.scalarMulLoop {k : ℕ} {R : ExtendedPoint} {r : edwards25519.Point}
    (hR : Represents R r) (hP : Represents P p) :
    Represents (ExtendedPoint.scalarMulLoop k R P) (r + k • p) := by
  induction k, R, P using ExtendedPoint.scalarMulLoop.induct generalizing r p with
  | case1 R P =>
    rw [ExtendedPoint.scalarMulLoop, dif_pos rfl, zero_nsmul, add_zero]
    exact hR
  | case2 k R P hk ih =>
    rw [ExtendedPoint.scalarMulLoop, dif_neg hk]
    have hhalf : k • p = (k % 2) • p + (k / 2) • (p + p) := by
      rw [← two_nsmul, ← mul_nsmul', ← add_nsmul, mul_comm, Nat.mod_add_div]
    rw [hhalf, ← add_assoc]
    refine ih ?_ hP.double
    split_ifs with hodd
    · rw [hodd, one_nsmul]
      exact hR.add hP
    · rw [show k % 2 = 0 by omega, zero_nsmul, add_zero]
      exact hR

theorem Represents.scalarMul (hP : Represents P p) (k : ℤ) :
    Represents (P.scalarMul k) (reduceScalar k • p) := by
  have hloop := represents_identity.scalarMulLoop (k := reduceScalar k) hP
  rwa [zero_add] at hloop

/-! ### Points of known order -/

/-- The multiple by a number of at most `bits` bits, from the most significant bit on. -/
def ExtendedPoint.multiple (P : ExtendedPoint) : ℕ → ℕ → ExtendedPoint
  | 0, _ => identity
  | bits + 1, k =>
    if k % 2 = 1 then (P.multiple bits (k / 2)).double.add P else (P.multiple bits (k / 2)).double

theorem Represents.multiple {bits k : ℕ} (hk : k < 2 ^ bits) (hP : Represents P p) :
    Represents (P.multiple bits k) (k • p) := by
  induction bits generalizing k with
  | zero =>
    obtain rfl : k = 0 := by simpa using hk
    rw [zero_nsmul]
    exact represents_identity
  | succ bits ih =>
    have hhalf := (ih (k := k / 2) (by rw [pow_succ] at hk; omega)).double
    have hsplit : k • p = (k / 2) • p + (k / 2) • p + (k % 2) • p := by
      rw [← add_nsmul, ← add_nsmul]
      congr 1
      omega
    rw [ExtendedPoint.multiple, hsplit]
    split_ifs with hodd
    · rw [hodd, one_nsmul]
      exact hhalf.add hP
    · rw [show k % 2 = 0 by omega, zero_nsmul, add_zero]
      exact hhalf

/-- Whether the coordinates represent the neutral element. -/
theorem Represents.eq_zero_iff (hP : Represents P p) :
    p = 0 ↔ P.X % fieldOrder = 0 ∧ (P.Y - P.Z) % fieldOrder = 0 := by
  rw [← cast_eq_zero_iff, ← cast_eq_zero_iff, Int.cast_sub, sub_eq_zero, hP.X_eq, hP.Y_eq,
    mul_eq_zero, or_iff_left hP.Z_ne_zero, mul_eq_right₀ hP.Z_ne_zero]
  exact EdwardsCurve.Point.ext_iff

/-- Whether a multiple is the neutral element. -/
theorem Represents.nsmul_eq_zero_iff (hP : Represents P p) {n k : ℕ} (hk : k < 2 ^ n) :
    k • p = 0 ↔ (P.multiple n k).X % fieldOrder = 0 ∧
      ((P.multiple n k).Y - (P.multiple n k).Z) % fieldOrder = 0 :=
  (hP.multiple hk).eq_zero_iff

/-- A point from integers. -/
theorem onCurve_of_emod {x y : ℤ}
    (h : (-x ^ 2 + y ^ 2) % fieldOrder = (1 + curveD * x ^ 2 * y ^ 2) % fieldOrder) :
    -(x : FieldElement) ^ 2 + (y : FieldElement) ^ 2 =
      1 + edwards25519.d * (x : FieldElement) ^ 2 * (y : FieldElement) ^ 2 := by
  have hcast := cast_eq_iff.2 h
  push_cast at hcast
  exact hcast

def ExtendedPoint.ofAffine (x y : ℤ) : ExtendedPoint := ⟨x, y, 1, x * y % fieldOrder⟩

theorem represents_ofAffine {x y : ℤ} (hx : p.x = x) (hy : p.y = y) :
    Represents (ofAffine x y) p where
  Z_ne_zero := by simp [ofAffine]
  X_eq := by simp [ofAffine, hx]
  Y_eq := by simp [ofAffine, hy]
  T_eq := by simp [ofAffine, hx, hy]

def generatorX : ℤ :=
  15112221349535400772501151409588531511454012693041857206046113283949847762202

def generatorY : ℤ :=
  46316835694926478169428394003475163141307993866256225615783033603165251855960

def eighthTurnX : ℤ :=
  43496726750457979451437558183816721346016168361625936758514574428539776020131

def eighthTurnY : ℤ :=
  2707385501144840649318225287225658788936804267575313519463743609750303402022

/-- A point of prime order. -/
def generator : edwards25519.Point :=
  ⟨(generatorX : ℤ), (generatorY : ℤ), onCurve_of_emod (by decide +kernel)⟩

/-- A point half of which is a quarter turn. -/
def eighthTurn : edwards25519.Point :=
  ⟨(eighthTurnX : ℤ), (eighthTurnY : ℤ), onCurve_of_emod (by decide +kernel)⟩

theorem addOrderOf_generator : addOrderOf generator = curveOrder := by
  have hrepresents : Represents (ofAffine generatorX generatorY) generator :=
    represents_ofAffine rfl rfl
  have hlt : curveOrder < 2 ^ 253 := by decide +kernel
  refine addOrderOf_eq_prime ((hrepresents.nsmul_eq_zero_iff hlt).2 ?_)
    (mt hrepresents.eq_zero_iff.1 ?_)
  · decide +kernel
  · decide +kernel

theorem addOrderOf_eighthTurn : addOrderOf eighthTurn = 8 := by
  have hrepresents : Represents (ofAffine eighthTurnX eighthTurnY) eighthTurn :=
    represents_ofAffine rfl rfl
  refine addOrderOf_eq_prime_pow (p := 2) (n := 2)
    (mt (hrepresents.nsmul_eq_zero_iff (n := 4) (by decide)).1 ?_)
    ((hrepresents.nsmul_eq_zero_iff (n := 4) (by decide)).2 ?_)
  · decide +kernel
  · decide +kernel

theorem isSquare_one_add_d : IsSquare (1 + edwards25519.d) := by
  have hsquare : IsSquare ((1 + curveD : ℤ) : FieldElement) := by
    rw [isSquare_iff (by decide +kernel)]
    decide +kernel
  rwa [Int.cast_add, Int.cast_one] at hsquare

theorem mem_even_iff {x : ℤ} (hx : p.x = x) :
    p ∈ edwards25519.even ↔ IsSquare ((1 - curveD * x ^ 2 : ℤ) : FieldElement) := by
  rw [EdwardsCurve.mem_even_iff, hx]
  push_cast
  rfl

theorem generator_mem_even : generator ∈ edwards25519.even := by
  rw [mem_even_iff (x := generatorX) rfl, isSquare_iff (by decide +kernel)]
  decide +kernel

theorem eighthTurn_not_mem_even : eighthTurn ∉ edwards25519.even := by
  rw [mem_even_iff (x := eighthTurnX) rfl, isSquare_iff (by decide +kernel)]
  decide +kernel

/-- There are as many cosets of even points as the generator has multiples. -/
theorem card_coset25519 : Nat.card edwards25519.Coset = curveOrder := by
  refine EdwardsCurve.card_coset sign prime_curveOrder ?_ ?_ isSquare_one_add_d
    addOrderOf_generator generator_mem_even addOrderOf_eighthTurn eighthTurn_not_mem_even
  · decide +kernel
  · rw [Nat.card_zmod]
    decide +kernel

end Cli

end Ghos
