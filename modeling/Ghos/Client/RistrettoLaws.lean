import Ghos.Client.RistrettoGroup

/-!
# The laws of the points and of their encoding

What `cli/ghos_cli/crypto/elgamal.py` promises of its points, in terms of their coordinates.

* `unifiedAddition_complete`: no sum leaves the curve, and all are the sums of the affine points;
* `ristrettoCodec_lawful`: the encoding is one to one on the doubles, up to `_ristretto_equal`, and
  everything else is refused.
-/

namespace Ghos.Cli

open Coordinates

variable {P Q R : ExtendedPoint} {p q : edwards25519.Point}

/-! ### Coordinates on the curve -/

namespace ExtendedPoint

def affineX (P : ExtendedPoint) : FieldElement := P.X / P.Z

def affineY (P : ExtendedPoint) : FieldElement := P.Y / P.Z

/-- The coordinates of a point of the curve. -/
structure OnCurve (P : ExtendedPoint) : Prop where
  Z_ne_zero : (P.Z : FieldElement) ≠ 0
  curve : -P.affineX ^ 2 + P.affineY ^ 2 =
    1 + (curveD : FieldElement) * P.affineX ^ 2 * P.affineY ^ 2
  T_mul_Z : (P.T : FieldElement) * P.Z = P.X * P.Y

/-- The point with the affine coordinates. -/
def OnCurve.point (h : P.OnCurve) : edwards25519.Point := ⟨P.affineX, P.affineY, h.curve⟩

theorem OnCurve.represents (h : P.OnCurve) : Represents P h.point where
  Z_ne_zero := h.Z_ne_zero
  X_eq := (div_mul_cancel₀ _ h.Z_ne_zero).symm
  Y_eq := (div_mul_cancel₀ _ h.Z_ne_zero).symm
  T_eq := by
    have hZ := h.Z_ne_zero
    have hT := h.T_mul_Z
    show (P.T : FieldElement) = P.X / P.Z * (P.Y / P.Z) * P.Z
    field_simp
    linear_combination hT

end ExtendedPoint

open ExtendedPoint

theorem Represents.affineX_eq (hP : Represents P p) : P.affineX = p.x := by
  rw [affineX, hP.X_eq, mul_div_cancel_right₀ _ hP.Z_ne_zero]

theorem Represents.affineY_eq (hP : Represents P p) : P.affineY = p.y := by
  rw [affineY, hP.Y_eq, mul_div_cancel_right₀ _ hP.Z_ne_zero]

theorem Represents.onCurve (hP : Represents P p) : P.OnCurve where
  Z_ne_zero := hP.Z_ne_zero
  curve := by
    rw [hP.affineX_eq, hP.affineY_eq]
    exact p.onCurve
  T_mul_Z := by
    rw [hP.T_eq, hP.X_eq, hP.Y_eq]
    ring

/-! ### The sum is complete -/

/-- `R` has the coordinates of the sum of the affine points of `P` and `Q`. -/
structure IsSum (P Q R : ExtendedPoint) : Prop where
  onCurve : R.OnCurve
  denominators : 1 + (curveD : FieldElement) * P.affineX * Q.affineX * P.affineY * Q.affineY ≠ 0 ∧
    1 - (curveD : FieldElement) * P.affineX * Q.affineX * P.affineY * Q.affineY ≠ 0
  affineX : R.affineX = (P.affineX * Q.affineY + P.affineY * Q.affineX) /
    (1 + (curveD : FieldElement) * P.affineX * Q.affineX * P.affineY * Q.affineY)
  affineY : R.affineY = (P.affineY * Q.affineY + P.affineX * Q.affineX) /
    (1 - (curveD : FieldElement) * P.affineX * Q.affineX * P.affineY * Q.affineY)

theorem isSum_add (hP : P.OnCurve) (hQ : Q.OnCurve) : IsSum P Q (P.add Q) where
  onCurve := (hP.represents.add hQ.represents).onCurve
  denominators := ⟨hP.point.one_add_product_ne_zero hQ.point,
    hP.point.one_sub_product_ne_zero hQ.point⟩
  affineX := (hP.represents.add hQ.represents).affineX_eq
  affineY := (hP.represents.add hQ.represents).affineY_eq

/-- The values of `result` and `base` in the loop of `scalar_mul`. -/
def scalarMulStates (k : ℕ) (result base : ExtendedPoint) : List (ExtendedPoint × ExtendedPoint) :=
  (result, base) :: if _hk : k = 0 then []
    else scalarMulStates (k / 2) (if k % 2 = 1 then result.add base else result) base.double
termination_by k

/-- The loop returns the last value of `result`. -/
theorem getLast?_scalarMulStates (k : ℕ) (R P : ExtendedPoint) :
    (scalarMulStates k R P).getLast?.map Prod.fst = some (ExtendedPoint.scalarMulLoop k R P) := by
  induction k, R, P using ExtendedPoint.scalarMulLoop.induct with
  | case1 R P =>
    rw [scalarMulStates, ExtendedPoint.scalarMulLoop, dif_pos rfl, dif_pos rfl]
    rfl
  | case2 k R P hk ih =>
    simp only [dite_eq_ite] at ih
    rw [scalarMulStates, ExtendedPoint.scalarMulLoop, dif_neg hk, dif_neg hk, ← ih,
      scalarMulStates, List.getLast?_cons_cons]

theorem onCurve_scalarMulStates (k : ℕ) (hR : R.OnCurve) (hP : P.OnCurve) :
    ∀ s ∈ scalarMulStates k R P, s.1.OnCurve ∧ s.2.OnCurve := by
  induction k, R, P using ExtendedPoint.scalarMulLoop.induct with
  | case1 R P =>
    rw [scalarMulStates, dif_pos rfl]
    simpa using ⟨hR, hP⟩
  | case2 k R P hk ih =>
    rw [scalarMulStates, dif_neg hk, List.forall_mem_cons]
    refine ⟨⟨hR, hP⟩, ih ?_ (isSum_add hP hP).onCurve⟩
    split_ifs
    · exact (isSum_add hR hP).onCurve
    · exact hR

/-- The sum of any two points of the curve is the Edwards sum, so doubles, negatives and the loop of
`scalar_mul` stay on the curve. -/
theorem unifiedAddition_complete :
    (∀ P Q : ExtendedPoint, P.OnCurve → Q.OnCurve → IsSum P Q (P.add Q)) ∧
    (∀ P : ExtendedPoint, P.OnCurve → IsSum P P P.double ∧ P.negate.OnCurve) ∧
    identity.OnCurve ∧
    ∀ (k : ℤ) (P : ExtendedPoint), P.OnCurve → (P.scalarMul k).OnCurve ∧
      (scalarMulStates (reduceScalar k) identity P).getLast?.map Prod.fst = some (P.scalarMul k) ∧
      ∀ s ∈ scalarMulStates (reduceScalar k) identity P, s.1.OnCurve ∧ s.2.OnCurve := by
  refine ⟨fun P Q => isSum_add, fun P hP => ⟨isSum_add hP hP, hP.represents.negate.onCurve⟩,
    represents_identity.onCurve, fun k P hP => ⟨(hP.represents.scalarMul k).onCurve, ?_, ?_⟩⟩
  · exact getLast?_scalarMulStates _ _ _
  · exact onCurve_scalarMulStates _ represents_identity.onCurve hP

theorem represents_basepointPoint :
    Represents (ofAffine basepointX basepointY) basepointPoint :=
  represents_ofAffine rfl rfl

theorem unifiedAddition_complete_sample :
    IsSum (ofAffine basepointX basepointY) (ofAffine basepointX basepointY).negate
        ((ofAffine basepointX basepointY).add (ofAffine basepointX basepointY).negate) ∧
      ((ofAffine basepointX basepointY).scalarMul 5).OnCurve := by
  obtain ⟨hadd, hdouble, -, hmul⟩ := unifiedAddition_complete
  have hbase := represents_basepointPoint.onCurve
  exact ⟨hadd _ _ hbase (hdouble _ hbase).2, (hmul 5 _ hbase).1⟩

/-! ### The doubles and their encodings -/

namespace Coordinates

/-- The points with the coordinates of a double, the group `2E`. -/
def IsDouble (P : ExtendedPoint) : Prop := ∃ p : edwards25519.Point, Represents P (p + p)

variable {b c : Coset}

theorem add_self_mem_even (p : edwards25519.Point) : p + p ∈ edwards25519.even :=
  EdwardsCurve.Point.isSquare_one_sub_add_x_sq (IsSquare.mul_self _)

theorem IsDouble.exists_representsCoset (hP : IsDouble P) : ∃ c, RepresentsCoset P c := by
  obtain ⟨p, hp⟩ := hP
  exact ⟨_, p + p, add_self_mem_even p, hp, rfl⟩

/-- The group of the cosets has odd order. -/
theorem exists_add_self_eq (c : Coset) : ∃ b : Coset, b + b = c := by
  refine ⟨((curveOrder + 1) / 2) • c, ?_⟩
  have hodd : (curveOrder + 1) / 2 + (curveOrder + 1) / 2 = curveOrder + 1 := by decide +kernel
  have horder : curveOrder • c = 0 := by
    rw [← card_coset25519]
    exact card_nsmul_eq_zero'
  rw [← add_nsmul, hodd, succ_nsmul, horder, zero_add]

/-- Every coset has a double in it. -/
theorem exists_isDouble (c : Coset) : ∃ P, IsDouble P ∧ RepresentsCoset P c := by
  obtain ⟨b, rfl⟩ := exists_add_self_eq c
  obtain ⟨p, hp, hPp, hpb⟩ := representsCoset_ofCoset b
  have hdouble := hPp.add hPp
  refine ⟨_, ⟨p, hdouble⟩, p + p, edwards25519.even.add_mem hp hp, hdouble, ?_⟩
  rw [← hpb]
  rfl

theorem ristrettoEncode_of_cosetOf {data : List UInt8} (h : cosetOf data = some c)
    (hP : RepresentsCoset P c) : ristrettoEncode P = data := by
  unfold cosetOf at h
  split_ifs at h with hex
  obtain rfl := Option.some.inj h
  rw [← hex.choose_spec]
  exact (ristrettoEncode_coset_iff hP (representsCoset_ofCoset _)).2 rfl

/-- What the decoder returns for the bytes that it accepts. -/
theorem ristrettoDecode_ok {data : List UInt8} (h : ristrettoDecode data = .ok P) :
    (P.Z = 1 ∧ P.T = P.X * P.Y % fieldOrder) ∧
      ∃ c, RepresentsCoset P c ∧ ristrettoEncode P = data := by
  constructor
  · simp only [ristrettoDecode, throwUnless_bind_eq_ok] at h
    obtain ⟨-, -, -, -, h⟩ := h
    generalize absFe _ = x at h
    obtain rfl := Except.ok.inj h
    exact ⟨rfl, rfl⟩
  · have hagrees := agrees_ristrettoDecode data
    rw [h] at hagrees
    obtain ⟨c, hc, hP⟩ : ∃ c : Coset, Cli.ristrettoDecode data = .ok c ∧ RepresentsCoset P c := by
      generalize (Cli.ristrettoDecode data : Except Error Coset) = r at hagrees
      cases hagrees with
      | ok hP => exact ⟨_, rfl, hP⟩
    refine ⟨c, hP, ristrettoEncode_of_cosetOf ?_ hP⟩
    simp only [Cli.ristrettoDecode, throwUnless_bind_eq_ok] at hc
    obtain ⟨-, -, -, hc⟩ := hc
    rw [show (Ristretto255.decode data : Option Coset) = cosetOf data from rfl] at hc
    cases hcoset : cosetOf data with
    | none => rw [hcoset] at hc; cases hc
    | some c' =>
      rw [hcoset] at hc
      rw [Except.ok.inj hc]

theorem exists_ristrettoDecode (hP : RepresentsCoset P c) :
    ∃ Q, ristrettoDecode (ristrettoEncode P) = .ok Q ∧ RepresentsCoset Q c := by
  have hagrees := agrees_ristrettoDecode (ristrettoEncode P)
  have hclass : Cli.ristrettoDecode (ristrettoEncode P) = .ok c := by
    rw [← encode_coset hP, Cli.ristrettoDecode_encode]
  rw [hclass] at hagrees
  generalize ristrettoDecode (ristrettoEncode P) = r at hagrees ⊢
  cases hagrees with
  | ok hQ => exact ⟨_, rfl, hQ⟩

/-- The bytes that the codec is for: the encodings of doubles. -/
theorem exists_isDouble_iff (data : List UInt8) :
    (∃ P, IsDouble P ∧ ristrettoEncode P = data) ↔ ∃ P, ristrettoDecode data = .ok P := by
  constructor
  · rintro ⟨P, hdouble, rfl⟩
    obtain ⟨c, hP⟩ := hdouble.exists_representsCoset
    obtain ⟨Q, hQ, -⟩ := exists_ristrettoDecode hP
    exact ⟨Q, hQ⟩
  · rintro ⟨P, hP⟩
    obtain ⟨-, c, hPc, hencode⟩ := ristrettoDecode_ok hP
    obtain ⟨Q, hdouble, hQc⟩ := exists_isDouble c
    exact ⟨Q, hdouble, ((ristrettoEncode_coset_iff hQc hPc).2 rfl).trans hencode⟩

/-- Negative numbers, those that are not reduced, and those off the image are refused. -/
theorem ristrettoDecode_error {data : List UInt8}
    (h : fieldOrder ≤ leNat data ∨ isNegativeFe (leNat data) ≠ 0 ∨
      ¬ ∃ P, IsDouble P ∧ ristrettoEncode P = data) :
    ∃ message, ristrettoDecode data = .error (.cryptoError message) := by
  cases hdecode : ristrettoDecode data with
  | error e => exact ⟨_, rfl⟩
  | ok P =>
    exfalso
    obtain ⟨-, c, hPc, rfl⟩ := ristrettoDecode_ok hdecode
    obtain ⟨hlt, heven⟩ := leNat_ristrettoEncode hPc
    rcases h with hlarge | hnegative | himage
    · omega
    · rw [isNegativeFe] at hnegative
      omega
    · exact himage ((exists_isDouble_iff _).2 ⟨P, hdecode⟩)

/-- Decoding inverts encoding, on the bytes that are accepted and on the doubles, whose encodings
are the same just for the points that `_ristretto_equal` takes for one. -/
theorem ristrettoCodec_lawful :
    (∀ (data : List UInt8) (P : ExtendedPoint), data.length = 32 → ristrettoDecode data = .ok P →
      P.OnCurve ∧ P.Z = 1 ∧ P.T = P.X * P.Y % fieldOrder ∧ ristrettoEncode P = data) ∧
    (∀ data : List UInt8, data.length = 32 →
      fieldOrder ≤ leNat data ∨ isNegativeFe (leNat data) ≠ 0 ∨
        (¬ ∃ P, IsDouble P ∧ ristrettoEncode P = data) →
      ∃ message, ristrettoDecode data = .error (.cryptoError message)) ∧
    (∀ P Q : ExtendedPoint, IsDouble P → IsDouble Q →
      (ristrettoEncode P = ristrettoEncode Q ↔ ristrettoEqual P Q = true)) ∧
    ∀ P : ExtendedPoint, IsDouble P →
      ∃ Q, ristrettoDecode (ristrettoEncode P) = .ok Q ∧ ristrettoEqual Q P = true := by
  refine ⟨fun data P _ hdecode => ?_, fun data _ h => ristrettoDecode_error h,
    fun P Q hP hQ => ?_, fun P hP => ?_⟩
  · obtain ⟨⟨hZ, hT⟩, c, ⟨p, -, hPp, -⟩, hencode⟩ := ristrettoDecode_ok hdecode
    exact ⟨hPp.onCurve, hZ, hT, hencode⟩
  · obtain ⟨b, hPb⟩ := hP.exists_representsCoset
    obtain ⟨c, hQc⟩ := hQ.exists_representsCoset
    rw [ristrettoEncode_coset_iff hPb hQc, ristrettoEqual_coset hPb hQc]
  · obtain ⟨c, hPc⟩ := hP.exists_representsCoset
    obtain ⟨Q, hQ, hQc⟩ := exists_ristrettoDecode hPc
    exact ⟨Q, hQ, (ristrettoEqual_coset hQc hPc).2 rfl⟩

theorem ristrettoCodec_lawful_sample :
    (∃ P, ristrettoDecode basepointEncoding = .ok P ∧ ristrettoEncode P = basepointEncoding) ∧
      (∃ message, ristrettoDecode (List.replicate 32 255) = .error (.cryptoError message)) ∧
      ∃ Q, ristrettoDecode (ristrettoEncode identity) = .ok Q ∧
        ristrettoEqual Q identity = true := by
  obtain ⟨hdecode, herror, -, hround⟩ := ristrettoCodec_lawful
  obtain ⟨P, hP, -⟩ := exists_basepoint
  refine ⟨⟨P, hP, (hdecode _ P rfl hP).2.2.2⟩, herror _ (List.length_replicate ..) (.inl ?_),
    hround _ ⟨0, ?_⟩⟩
  · decide +kernel
  · rw [add_zero]
    exact represents_identity

end Coordinates

end Ghos.Cli
