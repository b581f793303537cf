import Ghos.Client.Cli
import Ghos.Client.Edwards25519

/-!
# The encoding of Ristretto255 in the CLI

`_ristretto_equal`, `_ristretto_encode` and `_ristretto_decode` of
`cli/ghos_cli/crypto/elgamal.py`, on coordinates.

* `ristrettoEqual_iff`: two points are equal to the code if they are in one coset;
* `exists_ristrettoEncode`: the bytes are the code of the canonical point of the coset;
* `ristrettoDecode_of_encodes`, `ristrettoDecode_of_not_encodes`: they are decoded to that point,
  and all others are refused.
-/

namespace Ghos

namespace Cli.Coordinates

open EdwardsCurve ExtendedPoint

/-- Two points collapse to the same coset representative. -/
def ristrettoEqual (p q : ExtendedPoint) : Bool :=
  let lhs1 := p.X * q.Y % fieldOrder
  let rhs1 := p.Y * q.X % fieldOrder
  let lhs2 := p.Y * q.Y % fieldOrder
  let rhs2 := p.X * q.X % fieldOrder
  lhs1 == rhs1 || lhs2 == rhs2

/-- The end of the encoding, after a quarter turn or without. -/
def encodeTurned (X Y Z den2 zInv : ℤ) : ℤ :=
  let Y := if isNegativeFe (X * zInv % fieldOrder) ≠ 0 then -Y % fieldOrder else Y
  absFe ((Z - Y) * den2 % fieldOrder)

/-- Encode an extended Edwards point as 32 bytes. -/
def ristrettoEncode (p : ExtendedPoint) : List UInt8 :=
  let X := p.X % fieldOrder
  let Y := p.Y % fieldOrder
  let Z := p.Z % fieldOrder
  let T := p.T % fieldOrder
  let u1 := (Z + Y) * (Z - Y) % fieldOrder
  let u2 := X * Y % fieldOrder
  let invsqrt := (sqrtRatioM1 1 (u1 * u2 * u2 % fieldOrder)).2
  let den1 := invsqrt * u1 % fieldOrder
  let den2 := invsqrt * u2 % fieldOrder
  let zInv := den1 * den2 * T % fieldOrder
  let ix := X * sqrtM1 % fieldOrder
  let iy := Y * sqrtM1 % fieldOrder
  let enchantedDenominator := den1 * invsqrtAMinusD % fieldOrder
  let rotate := isNegativeFe (T * zInv % fieldOrder)
  let s := if rotate ≠ 0 then encodeTurned iy ix Z enchantedDenominator zInv
    else encodeTurned X Y Z den2 zInv
  leBytes 32 s.toNat

/-- Decode a 32-byte Ristretto255 string to an extended Edwards point. -/
def ristrettoDecode (data : List UInt8) : Except Error ExtendedPoint := do
  throwUnless (data.length = 32)
    (.cryptoError s!"invalid ristretto encoding length: {data.length}")
  let s : ℤ := leNat data
  throwUnless (s < fieldOrder) (.cryptoError "invalid ristretto encoding: non-canonical s")
  throwUnless (isNegativeFe s = 0) (.cryptoError "invalid ristretto encoding: s is negative")
  let ss := s * s % fieldOrder
  let u1 := (1 - ss) % fieldOrder
  let u2 := (1 + ss) % fieldOrder
  let u2Sqr := u2 * u2 % fieldOrder
  let v := (-(curveD * u1 * u1) - u2Sqr) % fieldOrder
  let root := sqrtRatioM1 1 (v * u2Sqr % fieldOrder)
  let wasSquare := root.1
  let invsqrt := root.2
  let denX := invsqrt * u2 % fieldOrder
  let denY := invsqrt * denX * v % fieldOrder
  let x := absFe (2 * s * denX % fieldOrder)
  let y := u1 * denY % fieldOrder
  let t := x * y % fieldOrder
  throwUnless (¬ (wasSquare = 0 ∨ isNegativeFe t ≠ 0 ∨ y = 0))
    (.cryptoError "invalid ristretto encoding: not a valid point")
  return ⟨x, y, 1, t⟩

variable {P Q : ExtendedPoint} {p q : edwards25519.Point}

theorem ristrettoEqual_iff (hP : Represents P p) (hQ : Represents Q q) :
    ristrettoEqual P Q = true ↔ p - q ∈ edwards25519.torsion := by
  have hZ : (P.Z : FieldElement) * Q.Z ≠ 0 := mul_ne_zero hP.Z_ne_zero hQ.Z_ne_zero
  have hscale : ∀ a b : FieldElement, a * (P.Z * Q.Z) = b * (P.Z * Q.Z) ↔ a = b :=
    fun a b => mul_left_inj' hZ
  rw [sub_mem_torsion_iff, ristrettoEqual, Bool.or_eq_true, beq_iff_eq, beq_iff_eq, ← cast_eq_iff,
    ← cast_eq_iff]
  simp only [Int.cast_mul, hP.X_eq, hP.Y_eq, hQ.X_eq, hQ.Y_eq,
    mul_mul_mul_comm _ (P.Z : FieldElement), hscale]

theorem invsqrtAMinusD_sq : (invsqrtAMinusD : FieldElement) ^ 2 * (-1 - edwards25519.d) = 1 := by
  have hcheck : invsqrtAMinusD ^ 2 * (-1 - curveD) % fieldOrder = 1 % fieldOrder := by
    decide +kernel
  have hcast := cast_eq_iff.2 hcheck
  push_cast at hcast
  exact hcast

section Turned

variable {X Y Z den2 zInv : ℤ}

theorem reduced_encodeTurned : Reduced (encodeTurned X Y Z den2 zInv) := reduced_absFe _

theorem not_negative_encodeTurned :
    ¬ sign.negative (encodeTurned X Y Z den2 zInv : FieldElement) :=
  (reduced_emod _).not_negative_absFe

/-- The half turn by the sign of `x`, and the code of what comes out. -/
theorem encodes_encodeTurned (hX : (X * zInv : FieldElement) = q.x)
    (hY : (Y : FieldElement) = q.y * Z)
    (hden : (Z : FieldElement) ^ 2 * (1 - q.y ^ 2) * den2 ^ 2 = 1) :
    Encodes sign (encodeTurned X Y Z den2 zInv : FieldElement)
      (if sign.negative q.x then q.antipode else q) := by
  refine ⟨not_negative_encodeTurned, ?_⟩
  have hsign : isNegativeFe (X * zInv % fieldOrder) ≠ 0 ↔ sign.negative q.x := by
    rw [(reduced_emod _).isNegativeFe_ne_zero_iff, cast_emod, Int.cast_mul, hX]
  simp only [encodeTurned, cast_absFe_sq, cast_emod, Int.cast_mul, Int.cast_sub, hsign]
  by_cases hneg : sign.negative q.x
  · rw [if_pos hneg, if_pos hneg, cast_emod, Int.cast_neg, hY, Point.antipode_y]
    linear_combination (1 + q.y) * hden
  · rw [if_neg hneg, if_neg hneg, hY]
    linear_combination (1 - q.y) * hden

/-- Without a denominator, nothing is left. -/
theorem encodeTurned_of_eq_zero (hden : (den2 : FieldElement) = 0) :
    encodeTurned X Y Z den2 zInv = 0 := by
  have hsquare : (encodeTurned X Y Z den2 zInv : FieldElement) ^ 2 = 0 := by
    simp only [encodeTurned, cast_absFe_sq, cast_emod, Int.cast_mul, hden, mul_zero]
    exact zero_pow two_ne_zero
  exact reduced_encodeTurned.cast_eq_zero_iff.1 (pow_eq_zero_iff two_ne_zero |>.1 hsquare)

/-- The integers of the encoding, by what they stand for. -/
structure Encoding (p : edwards25519.Point) (X Y Z T u1 u2 r zInv : ℤ) : Prop where
  Z_ne_zero : (Z : FieldElement) ≠ 0
  X_eq : (X : FieldElement) = p.x * Z
  Y_eq : (Y : FieldElement) = p.y * Z
  T_eq : (T : FieldElement) = p.x * p.y * Z
  u1_eq : (u1 : FieldElement) = Z ^ 2 * (1 - p.y ^ 2)
  u2_eq : (u2 : FieldElement) = Z ^ 2 * (p.x * p.y)
  zInv_eq : (zInv : FieldElement) = r ^ 2 * u1 * u2 * T

variable {T u1 u2 r : ℤ}

/-- With the inverse square root at hand, the code of the canonical point comes out. -/
theorem Encoding.encodes (h : Encoding p X Y Z T u1 u2 r zInv)
    (hroot : (u1 * u2 * u2 : FieldElement) * r ^ 2 = 1) :
    (T : FieldElement) * zInv = p.x * p.y ∧
      Encodes sign ((if sign.negative (p.x * p.y) then
          encodeTurned (Y * sqrtM1 % fieldOrder) (X * sqrtM1 % fieldOrder) Z
            (r * u1 % fieldOrder * invsqrtAMinusD % fieldOrder) zInv
        else encodeTurned X Y Z (r * u2 % fieldOrder) zInv : ℤ) : FieldElement)
        (p.representative sign) := by
  obtain ⟨-, hX, hY, hT, hu1, hu2, hzInv⟩ := h
  have hi := sqrtM1_sq
  have hc := invsqrtAMinusD_sq
  have hidef : edwards25519.i = sqrtM1 := rfl
  have hinverse : (zInv : FieldElement) * Z = 1 := by
    rw [hzInv, hT, ← hroot]
    linear_combination (-r ^ 2 * u1 * u2 : FieldElement) * hu2
  refine ⟨by rw [hT]; linear_combination (p.x * p.y) * hinverse, ?_⟩
  simp only [Point.representative]
  by_cases hneg : sign.negative (p.x * p.y)
  · rw [if_pos hneg, if_pos hneg]
    refine encodes_encodeTurned (q := p.rotate) ?_ ?_ ?_
    · rw [cast_emod, Int.cast_mul, hY, Point.rotate_x, hidef]
      linear_combination (p.y * sqrtM1) * hinverse
    · rw [cast_emod, Int.cast_mul, hX, Point.rotate_y, hidef]
      ring
    · rw [cast_emod, Int.cast_mul, cast_emod, Int.cast_mul, Point.rotate_y, hidef]
      set c : FieldElement := (invsqrtAMinusD : FieldElement)
      -- `(1 - y²) (1 + x²) = -(1 + d) x² y²` on the curve
      linear_combination (-Z ^ 2 * p.x ^ 2 * r ^ 2 * u1 ^ 2 * c ^ 2 : FieldElement) * hi +
        (Z ^ 2 * (1 + p.x ^ 2) * r ^ 2 * u1 * c ^ 2 : FieldElement) * hu1 -
        (Z ^ 4 * r ^ 2 * u1 * c ^ 2 : FieldElement) * p.onCurve +
        (Z ^ 4 * r ^ 2 * u1 * p.x ^ 2 * p.y ^ 2 : FieldElement) * hc -
        (r ^ 2 * u1 * (u2 + Z ^ 2 * p.x * p.y) : FieldElement) * hu2 + hroot
  · rw [if_neg hneg, if_neg hneg]
    refine encodes_encodeTurned (q := p) ?_ hY ?_
    · rw [hX]
      linear_combination p.x * hinverse
    · rw [cast_emod, Int.cast_mul, ← hu1, ← hroot]
      ring

end Turned

/-- Off the axes, even points have the root that the encoding asks for. -/
theorem Encoding.root {X Y Z T u1 u2 r zInv : ℤ} {w : ℕ} (h : Encoding p X Y Z T u1 u2 r zInv)
    (hr : sqrtRatioM1 1 (u1 * u2 * u2 % fieldOrder) = (w, r)) (hp : p ∈ edwards25519.even)
    (hxy : p.x * p.y ≠ 0) : (u1 * u2 * u2 : FieldElement) * r ^ 2 = 1 := by
  have hroot := sqrtRatioM1_one hr
  rw [cast_emod, Int.cast_mul, Int.cast_mul] at hroot
  rcases hroot with ⟨-, hroot⟩ | ⟨-, hzero | hnot⟩
  · exact hroot
  · have hy : 1 - p.y ^ 2 ≠ 0 := by
      intro hy
      refine mul_ne_zero (pow_ne_zero 2 (left_ne_zero_of_mul hxy))
        (edwards25519.one_add_d_mul_sq_ne_zero p.y) ?_
      linear_combination p.x_sq_mul - hy
    have hZ := pow_ne_zero 2 h.Z_ne_zero
    rw [h.u1_eq, h.u2_eq] at hzero
    exact absurd hzero (mul_ne_zero (mul_ne_zero (mul_ne_zero hZ hy) (mul_ne_zero hZ hxy))
      (mul_ne_zero hZ hxy))
  · refine absurd ?_ hnot
    rw [h.u1_eq, show ((Z : FieldElement) ^ 2 * (1 - p.y ^ 2) * u2 * u2) =
      (1 - p.y ^ 2) * (Z * u2) ^ 2 by ring]
    exact (isSquare_one_sub_y_sq hp invsqrtAMinusD_sq).mul (IsSquare.sq _)

/-- The encoding, by the inverse square root that it takes. -/
theorem exists_encoding (hP : Represents P p) : ∃ X Y Z T u1 u2 w r zInv,
    sqrtRatioM1 1 (u1 * u2 * u2 % fieldOrder) = (w, r) ∧ Encoding p X Y Z T u1 u2 r zInv ∧
      ristrettoEncode P = leBytes 32 (if isNegativeFe (T * zInv % fieldOrder) ≠ 0
        then encodeTurned (Y * sqrtM1 % fieldOrder) (X * sqrtM1 % fieldOrder) Z
          (r * u1 % fieldOrder * invsqrtAMinusD % fieldOrder) zInv
        else encodeTurned X Y Z (r * u2 % fieldOrder) zInv).toNat := by
  obtain ⟨X, hX⟩ : ∃ X, P.X % fieldOrder = X := ⟨_, rfl⟩
  obtain ⟨Y, hY⟩ : ∃ Y, P.Y % fieldOrder = Y := ⟨_, rfl⟩
  obtain ⟨Z, hZ⟩ : ∃ Z, P.Z % fieldOrder = Z := ⟨_, rfl⟩
  obtain ⟨T, hT⟩ : ∃ T, P.T % fieldOrder = T := ⟨_, rfl⟩
  obtain ⟨u1, hu1⟩ : ∃ u1, (Z + Y) * (Z - Y) % fieldOrder = u1 := ⟨_, rfl⟩
  obtain ⟨u2, hu2⟩ : ∃ u2, X * Y % fieldOrder = u2 := ⟨_, rfl⟩
  obtain ⟨⟨w, r⟩, hr⟩ : ∃ root, sqrtRatioM1 1 (u1 * u2 * u2 % fieldOrder) = root := ⟨_, rfl⟩
  obtain ⟨zInv, hzInv⟩ : ∃ zInv,
    r * u1 % fieldOrder * (r * u2 % fieldOrder) * T % fieldOrder = zInv := ⟨_, rfl⟩
  refine ⟨X, Y, Z, T, u1, u2, w, r, zInv, hr, ?_, ?_⟩
  · have hYZ : (Y : FieldElement) = p.y * Z := by
      rw [cast_of_emod_eq hY, cast_of_emod_eq hZ, hP.Y_eq]
    have hXZ : (X : FieldElement) = p.x * Z := by
      rw [cast_of_emod_eq hX, cast_of_emod_eq hZ, hP.X_eq]
    refine ⟨?_, hXZ, hYZ, ?_, ?_, ?_, ?_⟩
    · rw [cast_of_emod_eq hZ]
      exact hP.Z_ne_zero
    · rw [cast_of_emod_eq hT, cast_of_emod_eq hZ, hP.T_eq]
    · rw [cast_of_emod_eq hu1, Int.cast_mul, Int.cast_add, Int.cast_sub, hYZ]
      ring
    · rw [cast_of_emod_eq hu2, Int.cast_mul, hXZ, hYZ]
      ring
    · rw [cast_of_emod_eq hzInv, Int.cast_mul, Int.cast_mul, cast_emod, cast_emod]
      push_cast
      ring
  · simp only [ristrettoEncode, hX, hY, hZ, hT, hu1, hu2, hr, hzInv]

/-- The bytes hold the code of the canonical point of the coset. -/
theorem exists_ristrettoEncode (hP : Represents P p) (hp : p ∈ edwards25519.even) :
    ∃ q s, q - p ∈ edwards25519.torsion ∧ Canonical sign q ∧ Reduced s ∧
      Encodes sign (s : FieldElement) q ∧ ristrettoEncode P = leBytes 32 s.toNat := by
  obtain ⟨X, Y, Z, T, u1, u2, w, r, zInv, hr, hencoding, heq⟩ := exists_encoding hP
  have hrotate : isNegativeFe (T * zInv % fieldOrder) ≠ 0 ↔
      sign.negative ((T : FieldElement) * zInv) := by
    rw [(reduced_emod _).isNegativeFe_ne_zero_iff, cast_emod, Int.cast_mul]
  rw [heq]
  by_cases hxy : p.x * p.y = 0
  -- on the axes, every factor of the root is zero
  · have hu2 : (u2 : FieldElement) = 0 := by rw [hencoding.u2_eq, hxy, mul_zero]
    have hnot : ¬ isNegativeFe (T * zInv % fieldOrder) ≠ 0 := by
      rw [hrotate, hencoding.zInv_eq, hu2, mul_zero, zero_mul, mul_zero]
      exact sign.not_negative_zero
    rw [if_neg hnot, encodeTurned_of_eq_zero (by rw [cast_emod, Int.cast_mul, hu2, mul_zero])]
    refine ⟨0, 0, ?_, canonical_zero sign, reduced_emod 0, ⟨?_, ?_⟩, rfl⟩
    · rw [zero_sub]
      exact edwards25519.torsion.neg_mem hxy
    · rw [Int.cast_zero]
      exact sign.not_negative_zero
    · rw [Point.zero_y, Int.cast_zero]
      ring
  · have hroot := hencoding.root hr hp hxy
    obtain ⟨hproduct, hencodes⟩ := hencoding.encodes hroot
    rw [hproduct] at hrotate
    rw [if_congr hrotate rfl rfl]
    refine ⟨p.representative sign, _, p.representative_sub_mem_torsion sign,
      p.canonical_representative sign hxy, ?_, hencodes, rfl⟩
    split_ifs
    · exact reduced_encodeTurned
    · exact reduced_encodeTurned

/-! ### Decoding -/

/-- What is said of a number that is no code. -/
def notValid : Error := .cryptoError "invalid ristretto encoding: not a valid point"

/-- The integers of the decoding, by what they stand for. -/
structure Decoding (s : FieldElement) (v u2 r x y : ℤ) : Prop where
  u2_eq : (u2 : FieldElement) = 1 + s ^ 2
  v_eq : (v : FieldElement) = -edwards25519.d * (1 - s ^ 2) ^ 2 - (1 + s ^ 2) ^ 2
  reduced_x : Reduced x
  not_negative_x : ¬ sign.negative (x : FieldElement)
  x_sq : (x : FieldElement) ^ 2 = (2 * s * (r * u2)) ^ 2
  reduced_y : Reduced y
  y_eq : (y : FieldElement) = (1 - s ^ 2) * (r ^ 2 * u2 * v)

/-- The decoding, by the inverse square root that it takes. -/
theorem exists_decoding {data : List UInt8} {s : ℤ} (hlength : data.length = 32)
    (hdata : (leNat data : ℤ) = s) (hs : Reduced s) (heven : isNegativeFe s = 0) :
    ∃ v u2 w r x y, sqrtRatioM1 1 (v * (u2 * u2 % fieldOrder) % fieldOrder) = (w, r) ∧
      Decoding s v u2 r x y ∧
      ristrettoDecode data = if w = 0 ∨ isNegativeFe (x * y % fieldOrder) ≠ 0 ∨ y = 0
        then .error notValid else .ok (ofAffine x y) := by
  obtain ⟨ss, hss⟩ : ∃ ss, s * s % fieldOrder = ss := ⟨_, rfl⟩
  obtain ⟨u1, hu1⟩ : ∃ u1, (1 - ss) % fieldOrder = u1 := ⟨_, rfl⟩
  obtain ⟨u2, hu2⟩ : ∃ u2, (1 + ss) % fieldOrder = u2 := ⟨_, rfl⟩
  obtain ⟨v, hv⟩ : ∃ v, (-(curveD * u1 * u1) - u2 * u2 % fieldOrder) % fieldOrder = v := ⟨_, rfl⟩
  obtain ⟨⟨w, r⟩, hr⟩ : ∃ root, sqrtRatioM1 1 (v * (u2 * u2 % fieldOrder) % fieldOrder) = root :=
    ⟨_, rfl⟩
  obtain ⟨x, hx⟩ : ∃ x, absFe (2 * s * (r * u2 % fieldOrder) % fieldOrder) = x := ⟨_, rfl⟩
  obtain ⟨y, hy⟩ : ∃ y,
    u1 * (r * (r * u2 % fieldOrder) * v % fieldOrder) % fieldOrder = y := ⟨_, rfl⟩
  refine ⟨v, u2, w, r, x, y, hr, ?_, ?_⟩
  · have hd : (curveD : FieldElement) = edwards25519.d := rfl
    have hu1 : (u1 : FieldElement) = 1 - (s : FieldElement) ^ 2 := by
      rw [cast_of_emod_eq hu1, Int.cast_sub, cast_of_emod_eq hss, Int.cast_one, Int.cast_mul,
        pow_two]
    have hu2 : (u2 : FieldElement) = 1 + (s : FieldElement) ^ 2 := by
      rw [cast_of_emod_eq hu2, Int.cast_add, cast_of_emod_eq hss, Int.cast_one, Int.cast_mul,
        pow_two]
    refine ⟨hu2, ?_, hx ▸ reduced_absFe _, hx ▸ (reduced_emod _).not_negative_absFe, ?_,
      hy ▸ reduced_emod _, ?_⟩
    · rw [cast_of_emod_eq hv]
      push_cast
      rw [hu1, hu2, hd]
      ring
    · rw [← hx, cast_absFe_sq, cast_emod]
      push_cast
      rfl
    · rw [cast_of_emod_eq hy, Int.cast_mul, cast_emod, Int.cast_mul, Int.cast_mul, cast_emod, hu1]
      push_cast
      ring
  · have hlt : s < fieldOrder := hs.lt
    simp only [ristrettoDecode, throwUnless_bind, if_pos hlength, hdata, if_pos hlt, if_pos heven,
      hss, hu1, hu2, hv, hr, hx, hy]
    exact ite_not _ _ _

/-- What the decoding computes is the canonical point with that code. -/
theorem Decoding.encodes {s v u2 r x y : ℤ} (h : Decoding s v u2 r x y)
    (hs : ¬ sign.negative (s : FieldElement)) (hroot : (v * (u2 * u2) : FieldElement) * r ^ 2 = 1)
    (ht : ¬ sign.negative (x * y : FieldElement)) (hy : (y : FieldElement) ≠ 0) :
    ∃ q : edwards25519.Point, q.x = x ∧ q.y = y ∧ Canonical sign q ∧
      Encodes sign (s : FieldElement) q := by
  obtain ⟨hu2, hv, -, hx, hxsq, -, hyeq⟩ := h
  have hu2ne : (u2 : FieldElement) ≠ 0 := by
    intro hzero
    rw [hzero] at hroot
    norm_num at hroot
  have hyu2 : (y : FieldElement) * u2 = 1 - (s : FieldElement) ^ 2 := by
    rw [hyeq]
    linear_combination (1 - (s : FieldElement) ^ 2) * hroot
  have hxv : (x : FieldElement) ^ 2 * v = 4 * (s : FieldElement) ^ 2 := by
    rw [hxsq]
    linear_combination (4 * (s : FieldElement) ^ 2) * hroot
  have hcurve : -(x : FieldElement) ^ 2 + (y : FieldElement) ^ 2 =
      1 + edwards25519.d * (x : FieldElement) ^ 2 * (y : FieldElement) ^ 2 := by
    refine mul_right_cancel₀ (pow_ne_zero 2 hu2ne) ?_
    linear_combination
      ((y * u2 + (1 - s ^ 2)) * (1 - edwards25519.d * x ^ 2) : FieldElement) * hyu2 -
      ((1 + x ^ 2) * (u2 + 1 + s ^ 2) : FieldElement) * hu2 + hxv - (x : FieldElement) ^ 2 * hv
  have htwo := edwards25519.two_ne
  refine ⟨⟨x, y, hcurve⟩, rfl, rfl, ⟨hx, ht, hy, ?_⟩, ⟨hs, ?_⟩⟩
  · intro hneg
    replace hneg : (y : FieldElement) = -1 := hneg
    refine htwo ?_
    rw [hneg] at hyu2
    linear_combination -hyu2 - hu2
  · refine mul_right_cancel₀ hu2ne ?_
    show (s : FieldElement) ^ 2 * (1 + y) * u2 = (1 - y) * u2
    linear_combination (s ^ 2 + 1 : FieldElement) * hyu2 + ((s : FieldElement) ^ 2 - 1) * hu2

/-- A number with a canonical point has the root that the decoding asks for, and the decoding
computes that point. -/
theorem Decoding.root_of_encodes {s v u2 r x y : ℤ} (h : Decoding s v u2 r x y)
    (hq : Canonical sign q) (hcode : Encodes sign (s : FieldElement) q) :
    (v * (u2 * u2) : FieldElement) ≠ 0 ∧ IsSquare (v * (u2 * u2) : FieldElement) ∧
      ((v * (u2 * u2) : FieldElement) * r ^ 2 = 1 → q.x = x ∧ q.y = y) := by
  obtain ⟨hu2, hv, -, hx, hxsq, -, hyeq⟩ := h
  have hu2ne : (u2 : FieldElement) ≠ 0 := hu2 ▸ hcode.one_add_sq_ne_zero
  have hqy : q.y * u2 = 1 - (s : FieldElement) ^ 2 := by
    rw [hu2]
    linear_combination hcode.sq_mul
  have hvq : (v : FieldElement) = -(u2 ^ 2 * (1 + edwards25519.d * q.y ^ 2)) := by
    rw [hv, ← hu2, ← hqy]
    ring
  have hvne : (v : FieldElement) ≠ 0 := by
    rw [hvq]
    exact neg_ne_zero.2
      (mul_ne_zero (pow_ne_zero 2 hu2ne) (edwards25519.one_add_d_mul_sq_ne_zero q.y))
  have hqx : q.x ^ 2 * v = (2 * s : FieldElement) ^ 2 := by
    rw [hvq]
    linear_combination (-u2 ^ 2 : FieldElement) * q.x_sq_mul -
      (q.y * u2 + (1 - s ^ 2) : FieldElement) * hqy + (u2 + 1 + s ^ 2 : FieldElement) * hu2
  have hsquare : IsSquare (v : FieldElement) := by
    by_cases hzero : q.x = 0
    · have hs : (s : FieldElement) ^ 2 = 0 := by
        rw [hzero, zero_pow two_ne_zero, zero_mul] at hqx
        have htwo := edwards25519.two_ne
        refine (mul_eq_zero.1 (?_ : (2 : FieldElement) ^ 2 * s ^ 2 = 0)).resolve_left
          (pow_ne_zero 2 htwo)
        linear_combination -hqx
      have hroot := invsqrtAMinusD_sq
      rw [hv, hs, show -edwards25519.d * (1 - 0) ^ 2 - (1 + 0) ^ 2 = -1 - edwards25519.d by ring,
        eq_div_of_mul_eq (left_ne_zero_of_mul_eq_one hroot) ((mul_comm _ _).trans hroot)]
      exact IsSquare.one.div (IsSquare.sq _)
    · rw [eq_div_of_mul_eq (pow_ne_zero 2 hzero) ((mul_comm _ _).trans hqx)]
      exact (IsSquare.sq _).div (IsSquare.sq _)
  refine ⟨mul_ne_zero hvne (mul_ne_zero hu2ne hu2ne), hsquare.mul (IsSquare.mul_self _), ?_⟩
  intro hroot
  constructor
  · refine sign.eq_of_sq_eq (mul_right_cancel₀ hvne ?_) hq.x hx
    rw [hqx, hxsq]
    linear_combination (-(2 * s) ^ 2 : FieldElement) * hroot
  · refine mul_right_cancel₀ hu2ne ?_
    rw [hqy, hyeq]
    linear_combination (-(1 - s ^ 2) : FieldElement) * hroot

section Bytes

variable {data : List UInt8} {s : ℤ} (hlength : data.length = 32) (hdata : (leNat data : ℤ) = s)
  (hs : Reduced s)

include hlength hdata hs

/-- The last check of the decoding, by what the integers stand for. -/
theorem exists_decoding_check (heven : ¬ sign.negative (s : FieldElement)) :
    ∃ v u2 w r x y, sqrtRatioM1 1 (v * (u2 * u2 % fieldOrder) % fieldOrder) = (w, r) ∧
      Decoding s v u2 r x y ∧
      (w ≠ 0 ∧ (v * (u2 * u2) : FieldElement) * r ^ 2 = 1 ∨ w = 0 ∧
        ((v * (u2 * u2) : FieldElement) = 0 ∨ ¬ IsSquare (v * (u2 * u2) : FieldElement))) ∧
      ristrettoDecode data = if w = 0 ∨ sign.negative (x * y : FieldElement) ∨
          (y : FieldElement) = 0
        then .error notValid else .ok (ofAffine x y) := by
  rw [← hs.isNegativeFe_ne_zero_iff, not_not] at heven
  obtain ⟨v, u2, w, r, x, y, hr, hdecoding, heq⟩ := exists_decoding hlength hdata hs heven
  refine ⟨v, u2, w, r, x, y, hr, hdecoding, ?_, heq.trans (if_congr ?_ rfl rfl)⟩
  · have hroot := sqrtRatioM1_one hr
    rwa [cast_emod, Int.cast_mul, cast_emod, Int.cast_mul] at hroot
  · rw [(reduced_emod _).isNegativeFe_ne_zero_iff, cast_emod, Int.cast_mul,
      hdecoding.reduced_y.cast_eq_zero_iff]

/-- The bytes of a code are decoded to its canonical point. -/
theorem ristrettoDecode_of_encodes (hq : Canonical sign q)
    (hcode : Encodes sign (s : FieldElement) q) :
    ∃ Q, ristrettoDecode data = .ok Q ∧ Represents Q q := by
  obtain ⟨v, u2, w, r, x, y, -, hdecoding, hroot, heq⟩ :=
    exists_decoding_check hlength hdata hs hcode.not_negative
  obtain ⟨hne, hsquare, hcoordinates⟩ := hdecoding.root_of_encodes hq hcode
  rcases hroot with ⟨hw, hroot⟩ | ⟨-, hzero | hnot⟩
  · obtain ⟨hx, hy⟩ := hcoordinates hroot
    refine ⟨ofAffine x y, ?_, represents_ofAffine hx hy⟩
    rw [heq, ← hx, ← hy, if_neg (not_or.2 ⟨hw, not_or.2 ⟨hq.xy, hq.y_ne_zero⟩⟩)]
  · exact absurd hzero hne
  · exact absurd hsquare hnot

/-- All other bytes are refused. -/
theorem ristrettoDecode_of_not_encodes (heven : ¬ sign.negative (s : FieldElement))
    (hnot : ∀ q : edwards25519.Point, Canonical sign q → ¬ Encodes sign (s : FieldElement) q) :
    ristrettoDecode data = .error notValid := by
  obtain ⟨v, u2, w, r, x, y, -, hdecoding, hroot, heq⟩ :=
    exists_decoding_check hlength hdata hs heven
  rw [heq]
  refine if_pos ?_
  by_contra hpass
  obtain ⟨hw, ht, hy⟩ :
      w ≠ 0 ∧ ¬ sign.negative (x * y : FieldElement) ∧ (y : FieldElement) ≠ 0 := by
    simpa only [not_or] using hpass
  rcases hroot with ⟨-, hroot⟩ | ⟨hzero, -⟩
  · obtain ⟨q, -, -, hq, hcode⟩ := hdecoding.encodes heven hroot ht hy
    exact hnot q hq hcode
  · exact hw hzero

end Bytes

end Cli.Coordinates

end Ghos
