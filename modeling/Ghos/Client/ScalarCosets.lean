import Ghos.Client.RistrettoLaws

/-!
# Scalars on decoded points

`scalar_mul` of `cli/ghos_cli/crypto/elgamal.py` reduces the scalar modulo `_L`, although a decoded
point need not have that order: on the curve the multiple by `_L` is a point on the axes
(`not_samePoint_basepoint`).

* `mem_even25519_iff`, `card_doubles25519`: decoded points are doubles, and these are `4 * _L`;
* `scalarMul_respectsCosets`: sums and products of scalars are respected up to `_ristretto_equal`,
  and for a reduced scalar the multiple is the sum itself.
-/

namespace Ghos.Cli

open Coordinates EdwardsCurve

variable {P Q : ExtendedPoint} {p q : edwards25519.Point}

namespace ExtendedPoint

/-- The sum of `k` copies of a point. -/
def addTimes (P : ExtendedPoint) : ℕ → ExtendedPoint
  | 0 => identity
  | k + 1 => (P.addTimes k).add P

/-- The coordinates of one point of the curve. -/
structure SamePoint (P Q : ExtendedPoint) : Prop where
  left : P.OnCurve
  right : Q.OnCurve
  affineX : P.affineX = Q.affineX
  affineY : P.affineY = Q.affineY

end ExtendedPoint

open ExtendedPoint

theorem Represents.addTimes (hP : Represents P p) (k : ℕ) : Represents (P.addTimes k) (k • p) := by
  induction k with
  | zero =>
    rw [zero_nsmul]
    exact represents_identity
  | succ k ih =>
    rw [succ_nsmul]
    exact ih.add hP

theorem Represents.samePoint_iff (hP : Represents P p) (hQ : Represents Q q) :
    SamePoint P Q ↔ p = q := by
  constructor
  · intro h
    have hx := h.affineX
    have hy := h.affineY
    rw [hP.affineX_eq, hQ.affineX_eq] at hx
    rw [hP.affineY_eq, hQ.affineY_eq] at hy
    exact Point.ext hx hy
  · rintro rfl
    exact ⟨hP.onCurve, hQ.onCurve, by rw [hP.affineX_eq, hQ.affineX_eq],
      by rw [hP.affineY_eq, hQ.affineY_eq]⟩

/-! ### The doubles -/

/-- A half of a quarter turn. -/
theorem neg_eighthTurn_add_self : -eighthTurn + -eighthTurn = Point.rotate 0 := by
  have heighth : Represents (ofAffine eighthTurnX eighthTurnY) eighthTurn :=
    represents_ofAffine rfl rfl
  have hquarter : Represents (ofAffine sqrtM1 0) (Point.rotate 0) :=
    represents_ofAffine (by simp; rfl) (by simp)
  have hdifference := (heighth.negate.add heighth.negate).add hquarter.negate
  rw [← sub_eq_zero, sub_eq_add_neg, hdifference.eq_zero_iff]
  decide +kernel

theorem mem_even25519_iff : p ∈ edwards25519.even ↔ ∃ q, q + q = p :=
  mem_even_iff_exists_add_self neg_eighthTurn_add_self exists_add_self_eq

theorem card_point25519 : Nat.card edwards25519.Point = 8 * curveOrder := by
  refine card_point sign ?_ ?_ addOrderOf_generator addOrderOf_eighthTurn
  · decide +kernel
  · rw [Nat.card_zmod]
    decide +kernel

theorem card_doubles25519 :
    Nat.card {p : edwards25519.Point // ∃ q, q + q = p} = 4 * curveOrder := by
  have heven : {p : edwards25519.Point // ∃ q, q + q = p} ≃ edwards25519.even :=
    Equiv.subtypeEquivRight fun _ => mem_even25519_iff.symm
  rw [Nat.card_congr heven, card_even isSquare_one_add_d, card_coset25519]

namespace Coordinates

variable {c : Coset}

theorem RepresentsCoset.isDouble (hP : RepresentsCoset P c) : IsDouble P := by
  obtain ⟨p, hp, hPp, -⟩ := hP
  obtain ⟨q, rfl⟩ := mem_even25519_iff.1 hp
  exact ⟨q, hPp⟩

/-! ### Scalars -/

/-- In the group of cosets, a scalar may be reduced. -/
theorem reduceScalar_nsmul (k : ℤ) (c : Coset) : reduceScalar k • c = k • c := by
  rw [← Nat.cast_smul_eq_nsmul (ZMod curveOrder), cast_reduceScalar, Int.cast_smul_eq_zsmul]

theorem RepresentsCoset.zsmul_scalarMul (hP : RepresentsCoset P c) (k : ℤ) :
    RepresentsCoset (P.scalarMul k) (k • c) := by
  rw [← reduceScalar_nsmul]
  exact hP.nsmul_scalarMul k

theorem RepresentsCoset.addTimes (hP : RepresentsCoset P c) (k : ℕ) :
    RepresentsCoset (P.addTimes k) (k • c) := by
  obtain ⟨p, hp, hPp, rfl⟩ := hP
  exact ⟨k • p, edwards25519.even.nsmul_mem hp k, hPp.addTimes k, rfl⟩

/-- For a reduced scalar, double-and-add is repeated addition. -/
theorem samePoint_scalarMul (hP : Represents P p) {k : ℕ} (hk : k < curveOrder) :
    SamePoint (P.scalarMul k) (P.addTimes k) := by
  have hmul := hP.scalarMul k
  rw [reduceScalar_of_lt hk] at hmul
  exact (hmul.samePoint_iff (hP.addTimes k)).2 rfl

/-- The multiple of the basepoint by the order of the group of cosets is not the neutral element. -/
theorem not_samePoint_basepoint :
    ∃ G, basepoint = .ok G ∧ ¬ SamePoint (G.addTimes curveOrder) identity := by
  obtain ⟨G, hG, hrepresents⟩ := ristrettoDecode_of_encodes rfl rfl reduced_basepointEncoding
    canonical_basepointPoint encodes_basepointPoint
  refine ⟨G, hG, ?_⟩
  have hlt : curveOrder < 2 ^ 253 := by decide +kernel
  rw [(hrepresents.addTimes curveOrder).samePoint_iff represents_identity,
    represents_basepointPoint.nsmul_eq_zero_iff hlt]
  decide +kernel

/-- A decoded point is one of `4 * _L` doubles.  On these, `scalar_mul` respects sums and products of
scalars up to `_ristretto_equal`, a reduced scalar gives the sum of so many copies, and any other
one the same encoding as that. -/
theorem scalarMul_respectsCosets {data : List UInt8} (h : ristrettoDecode data = .ok P) (a b : ℤ) :
    (Nat.card edwards25519.Point = 8 * curveOrder ∧
        Nat.card {p : edwards25519.Point // ∃ q, q + q = p} = 4 * curveOrder ∧ IsDouble P) ∧
      ristrettoEqual ((P.scalarMul a).add (P.scalarMul b)) (P.scalarMul (a + b)) = true ∧
      ristrettoEqual ((P.scalarMul a).scalarMul b) (P.scalarMul (a * b)) = true ∧
      (∀ k : ℕ, k < curveOrder → SamePoint (P.scalarMul k) (P.addTimes k)) ∧
      (∀ k : ℕ, ristrettoEqual (P.scalarMul k) (P.addTimes k) = true ∧
        ristrettoEncode (P.scalarMul k) = ristrettoEncode (P.addTimes k)) ∧
      ∃ G, basepoint = .ok G ∧ ¬ SamePoint (G.addTimes curveOrder) identity := by
  obtain ⟨-, c, hP, -⟩ := ristrettoDecode_ok h
  refine ⟨⟨card_point25519, card_doubles25519, hP.isDouble⟩, ?_, ?_, fun k hk => ?_, fun k => ?_, not_samePoint_basepoint⟩
  · rw [ristrettoEqual_coset ((hP.zsmul_scalarMul a).add (hP.zsmul_scalarMul b))
      (hP.zsmul_scalarMul (a + b)), add_zsmul]
  · rw [ristrettoEqual_coset ((hP.zsmul_scalarMul a).zsmul_scalarMul b)
      (hP.zsmul_scalarMul (a * b)), mul_zsmul']
  · obtain ⟨p, -, hPp, -⟩ := hP
    exact samePoint_scalarMul hPp hk
  · have hmul := hP.zsmul_scalarMul k
    rw [natCast_zsmul] at hmul
    exact ⟨(ristrettoEqual_coset hmul (hP.addTimes k)).2 rfl,
      (ristrettoEncode_coset_iff hmul (hP.addTimes k)).2 rfl⟩

theorem scalarMul_respectsCosets_sample : ∃ G, ristrettoDecode basepointEncoding = .ok G ∧
    ristrettoEqual ((G.scalarMul 7).add (G.scalarMul (-9))) (G.scalarMul (7 + -9)) = true := by
  obtain ⟨G, hG, -⟩ := exists_basepoint
  exact ⟨G, hG, (scalarMul_respectsCosets hG 7 (-9)).2.1⟩

end Coordinates

end Ghos.Cli
