import Ghos.Lib.Bounded
import Ghos.Lib.Modular

/-!
# Ristretto255

Both clients compute in the same group and write its points in the same 32 bytes.  `Ristretto255`
is what they rely on; the CLI computes with coordinates, the SDK with a package.

* `prime_curveOrder`: the order of the group is prime, by Lucas' test down the chain of primes
  `curveOrderCertificate`;
* `addOrderOf_of_ne_zero`: every point but the identity generates the group.
-/

namespace Ghos

/-- `CURVE_ORDER` of the SDK, `_L` of the CLI. -/
def curveOrder : ℕ := 2 ^ 252 + 27742317777372353535851937790883648493

/-- Primes with an element of order one less and the prime factors of one less. -/
def curveOrderCertificate : List Modular.LucasEntry :=
  [⟨2, 1, []⟩, ⟨3, 2, [2]⟩, ⟨5, 2, [2, 2]⟩, ⟨7, 3, [2, 3]⟩, ⟨11, 2, [2, 5]⟩, ⟨13, 2, [2, 2, 3]⟩,
   ⟨17, 3, [2, 2, 2, 2]⟩, ⟨19, 2, [2, 3, 3]⟩, ⟨23, 5, [2, 11]⟩, ⟨41, 6, [2, 2, 2, 5]⟩,
   ⟨43, 3, [2, 3, 7]⟩, ⟨47, 5, [2, 23]⟩, ⟨67, 2, [2, 3, 11]⟩, ⟨73, 5, [2, 2, 2, 3, 3]⟩,
   ⟨79, 3, [2, 3, 13]⟩, ⟨113, 3, [2, 2, 2, 2, 7]⟩, ⟨269, 2, [2, 2, 67]⟩, ⟨307, 5, [2, 3, 3, 17]⟩,
   ⟨1361, 3, [2, 2, 2, 2, 5, 17]⟩, ⟨1723, 3, [2, 3, 7, 41]⟩, ⟨2551, 6, [2, 3, 5, 5, 17]⟩,
   ⟨2851, 2, [2, 3, 5, 5, 19]⟩, ⟨2939, 2, [2, 13, 113]⟩, ⟨3797, 2, [2, 2, 13, 73]⟩,
   ⟨5879, 11, [2, 2939]⟩, ⟨17231, 13, [2, 5, 1723]⟩, ⟨22111, 6, [2, 3, 5, 11, 67]⟩,
   ⟨30703, 3, [2, 3, 7, 17, 43]⟩, ⟨34123, 2, [2, 3, 11, 11, 47]⟩, ⟨41081, 3, [2, 2, 2, 5, 13, 79]⟩,
   ⟨82163, 2, [2, 41081]⟩, ⟨132667, 5, [2, 3, 22111]⟩, ⟨137849, 3, [2, 2, 2, 17231]⟩,
   ⟨409477, 2, [2, 2, 3, 34123]⟩, ⟨531581, 2, [2, 2, 5, 7, 3797]⟩,
   ⟨1224481, 13, [2, 2, 2, 2, 2, 3, 5, 2551]⟩, ⟨14741173, 2, [2, 2, 3, 3, 409477]⟩,
   ⟨58964693, 2, [2, 2, 14741173]⟩, ⟨292386187, 2, [2, 3, 3, 3, 3, 307, 5879]⟩,
   ⟨213441916511, 13, [2, 5, 73, 292386187]⟩,
   ⟨1257559732178653, 2, [2, 2, 3, 7, 23, 531581, 1224481]⟩,
   ⟨4434155615661930479, 17, [2, 41, 43, 1257559732178653]⟩,
   ⟨3044861653679985063343, 5, [2, 3, 11, 30703, 82163, 132667, 137849]⟩,
   ⟨172054593956031949258510691, 2, [2, 5, 1361, 2851, 4434155615661930479]⟩,
   ⟨198211423230930754013084525763697, 5, [2, 2, 2, 2, 3, 23, 58964693, 3044861653679985063343]⟩,
   ⟨19757330305831588566944191468367130476339, 2,
     [2, 269, 213441916511, 172054593956031949258510691]⟩,
   ⟨276602624281642239937218680557139826668747, 2,
     [2, 7, 19757330305831588566944191468367130476339]⟩,
   ⟨7237005577332262213973186563042994240857116359379907606001950938285454250989, 2,
     [2, 2, 3, 11, 198211423230930754013084525763697, 276602624281642239937218680557139826668747]⟩]

theorem prime_curveOrder : curveOrder.Prime := by
  have hcheck : Modular.checkLucas [] curveOrderCertificate = true := by decide +kernel
  exact Modular.prime_of_checkLucas (List.forall_mem_nil _) hcheck (by decide +kernel)

instance : Fact curveOrder.Prime := ⟨prime_curveOrder⟩

instance : NeZero curveOrder := ⟨prime_curveOrder.ne_zero⟩

theorem curveOrder_pos : 0 < curveOrder := prime_curveOrder.pos

/-- `mod(x, CURVE_ORDER)`, `x % _L`. -/
def reduceScalar (x : ℤ) : ℕ := (x % curveOrder).toNat

theorem reduceScalar_natCast (n : ℕ) : reduceScalar n = n % curveOrder := by
  rw [reduceScalar, ← Int.natCast_mod, Int.toNat_natCast]

theorem reduceScalar_of_lt {n : ℕ} (h : n < curveOrder) : reduceScalar n = n := by
  rw [reduceScalar_natCast, Nat.mod_eq_of_lt h]

theorem reduceScalar_lt (x : ℤ) : reduceScalar x < curveOrder := by
  have hpos : (0 : ℤ) < curveOrder := Int.natCast_pos.2 curveOrder_pos
  have hnonneg : 0 ≤ x % curveOrder := Int.emod_nonneg _ hpos.ne'
  have hlt : x % curveOrder < curveOrder := Int.emod_lt_of_pos _ hpos
  unfold reduceScalar
  omega

theorem cast_reduceScalar (x : ℤ) : (reduceScalar x : ZMod curveOrder) = x := by
  have hnonneg : 0 ≤ x % curveOrder := Int.emod_nonneg _ (Int.natCast_pos.2 curveOrder_pos).ne'
  calc (reduceScalar x : ZMod curveOrder) = ((x % curveOrder : ℤ) : ZMod curveOrder) := by
        rw [reduceScalar, ← Int.cast_natCast, Int.toNat_of_nonneg hnonneg]
    _ = x := ZMod.intCast_mod x curveOrder

theorem curveOrder_lt : curveOrder < 256 ^ 32 := by decide +kernel

/-- A nonzero scalar modulo the order. -/
def IsScalar (s : ℕ) : Prop := 0 < s ∧ s < curveOrder

theorem isScalar_one : IsScalar 1 := ⟨Nat.one_pos, prime_curveOrder.one_lt⟩

theorem natCast_eq_zero_iff_of_lt {n : ℕ} (hn : n < curveOrder) :
    (n : ZMod curveOrder) = 0 ↔ n = 0 := by
  rw [ZMod.natCast_eq_zero_iff]
  exact ⟨fun hdvd => Nat.eq_zero_of_dvd_of_lt hdvd hn, fun h => h ▸ dvd_zero _⟩

theorem natCast_inj_of_lt {m n : ℕ} (hm : m < curveOrder) (hn : n < curveOrder) :
    (m : ZMod curveOrder) = n ↔ m = n := by
  rw [ZMod.natCast_eq_natCast_iff', Nat.mod_eq_of_lt hm, Nat.mod_eq_of_lt hn]

theorem IsScalar.cast_ne_zero {s : ℕ} (hs : IsScalar s) : (s : ZMod curveOrder) ≠ 0 :=
  mt (natCast_eq_zero_iff_of_lt hs.2).1 hs.1.ne'

/-- Different scalars are different modulo the order. -/
theorem IsScalar.cast_ne {s t : ℕ} (hs : IsScalar s) (ht : IsScalar t) (h : s ≠ t) :
    (s : ZMod curveOrder) ≠ t := mt (natCast_inj_of_lt hs.2 ht.2).1 h

/-! ### The group -/

/-- `_P`, the order of the field below the curve. -/
def fieldOrder : ℕ := 2 ^ 255 - 19

/-- The group of prime order with the encoding of its points.  Points are written canonically: the
number in the 32 bytes is even and below the order of the field.  `multiplyError` is what the
package of the SDK says of a scalar out of range. -/
class Ristretto255 (Point : Type) extends AddCommGroup Point where
  base : Point
  base_ne_zero : base ≠ 0
  card : Nat.card Point = curveOrder
  multiplyError : ℕ → String
  encode : Point → Vector UInt8 32
  decode : List UInt8 → Option Point
  decode_encode : ∀ p, decode (encode p).toList = some p
  encode_lt : ∀ p, leNat (encode p).toList < fieldOrder
  encode_even : ∀ p, leNat (encode p).toList % 2 = 0

namespace Ristretto255

variable {Point : Type} [Ristretto255 Point]

theorem curveOrder_nsmul (p : Point) : curveOrder • p = 0 := by
  rw [← (card : Nat.card Point = curveOrder), card_nsmul_eq_zero']

theorem mod_nsmul (k : ℕ) (p : Point) : (k % curveOrder) • p = k • p := by
  conv_rhs => rw [← Nat.mod_add_div k curveOrder]
  rw [add_nsmul, mul_nsmul, curveOrder_nsmul, nsmul_zero, add_zero]

theorem addOrderOf_of_ne_zero {p : Point} (hp : p ≠ 0) : addOrderOf p = curveOrder :=
  addOrderOf_eq_prime (curveOrder_nsmul p) hp

/-- Every point but the identity generates the group. -/
theorem exists_nsmul_eq {p : Point} (hp : p ≠ 0) (q : Point) : ∃ k : ℕ, k • p = q :=
  (AddSubmonoid.mem_multiples_iff q p).1 (mem_multiples_of_prime_card card hp)

theorem addOrderOf_base : addOrderOf (base : Point) = curveOrder :=
  addOrderOf_of_ne_zero base_ne_zero

theorem nsmul_base_ne_zero {k : ℕ} (hk : IsScalar k) : k • (base : Point) ≠ 0 := by
  intro hzero
  have hle := addOrderOf_le_of_nsmul_eq_zero hk.1 hzero
  rw [addOrderOf_base] at hle
  exact absurd hk.2 hle.not_gt

/-- The scalars modulo the order act on the points. -/
instance : Module (ZMod curveOrder) Point := AddCommGroup.zmodModule curveOrder_nsmul

theorem encode_injective : Function.Injective fun p : Point => (encode p).toList := by
  intro p q (h : (encode p).toList = (encode q).toList)
  exact Option.some.inj ((decode_encode p).symm.trans (h ▸ decode_encode q))

end Ristretto255

/-! ### A concrete group -/

theorem two_mul_val_lt (p : ZMod curveOrder) : 2 * p.val < fieldOrder := by
  have hval := ZMod.val_lt p
  have horder : 2 * curveOrder < fieldOrder := by decide +kernel
  omega

theorem leNat_double (p : ZMod curveOrder) : leNat (leBytes 32 (2 * p.val)) = 2 * p.val := by
  have hlt := two_mul_val_lt p
  have hfield : fieldOrder < 256 ^ 32 := by decide +kernel
  exact leNat_leBytes_of_lt (by omega)

/-- The scalars, with twice the scalar as the encoding. -/
instance : Ristretto255 (ZMod curveOrder) where
  base := 1
  base_ne_zero := one_ne_zero
  card := Nat.card_zmod curveOrder
  multiplyError k := s!"expected valid scalar: 1 <= n < {curveOrder}, got {k}"
  encode p := ⟨(leBytes 32 (2 * p.val)).toArray, by simp [length_leBytes]⟩
  decode b := some ((leNat b / 2 : ℕ) : ZMod curveOrder)
  decode_encode p := by
    have hdouble := leNat_double p
    simp only [Vector.toList_mk, hdouble, Nat.mul_div_cancel_left _ two_pos, ZMod.natCast_zmod_val]
  encode_lt p := (leNat_double p).trans_lt (two_mul_val_lt p)
  encode_even p := by
    have hdouble := leNat_double p
    simp only [Vector.toList_mk, hdouble, Nat.mul_mod_right]

end Ghos
