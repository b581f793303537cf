import Ghos.Client.Pdas

/-!
# The integer encoders of the SDK

`encodeU64Le`, `encodeI64Le`, `encodeU16Le` and `encodeU8Le` are what the other modules import from
`sdk/src/instructions/initialize.ts`, and `sdk/src/pdas.ts` has the like.  A `BN` is taken as it is,
just like a `bigint`.

* `encodeI64LeBy_eq`: the complement of the library matters from `-2^64` down only;
* `integerEncoders_exact_iff`: which numbers are not encoded as others.
-/

namespace Ghos

namespace Sdk

/-- The integer that is given to an encoder. -/
def JsInteger.value : JsInteger → ℤ
  | .bigint v => v
  | .number v => v

/-- `new BN(value)` fails on a `number` from 2^53 on. -/
def JsInteger.TooLarge : JsInteger → Prop
  | .bigint _ => False
  | .number v => 2 ^ 53 ≤ v.natAbs

/-- Two's complement with eight bytes. -/
def leInt64 (data : List UInt8) : ℤ :=
  if leNat data < 2 ^ 63 then leNat data else leNat data - 2 ^ 64

/-- Encode a signed integer as eight bytes, where `toTwos` is `bn.toTwos(64)`. -/
def encodeI64LeBy (toTwos : ℤ → ℤ) (value : JsInteger) : Except SdkError (List UInt8) := do
  let bn ← value.toBN
  toArrayLike 8 (toTwos bn)

/-- Encode a u16 as two bytes, little-endian. -/
def toLeBytes16 (value : ℤ) : List UInt8 := leBytes 2 (value % 2 ^ 16).toNat

/-- Encode a u8 as a single byte. -/
def toLeByte (value : ℤ) : List UInt8 := [UInt8.ofNat (value % 2 ^ 8).toNat]

/-- An encoder that returns has kept the number. -/
def ExactOrThrows (decode : List UInt8 → ℤ) (encoded : Except SdkError (List UInt8)) (v : ℤ) :
    Prop :=
  ∀ data, encoded = .ok data → decode data = v

variable {toTwos : ℤ → ℤ} {value : JsInteger} {data : List UInt8} {v : ℤ}

theorem toBN_eq_ok : value.toBN = .ok v ↔ ¬ value.TooLarge ∧ value.value = v := by
  cases value with
  | bigint w => simp [JsInteger.toBN, JsInteger.TooLarge, JsInteger.value]
  | number w =>
    simp only [JsInteger.toBN, JsInteger.TooLarge, JsInteger.value, throwUnless_bind_eq_ok,
      except_pure_eq_ok, not_le]

theorem exactOrThrows_toArrayLike {decode : List UInt8 → ℤ} (f : ℤ → ℤ) :
    ExactOrThrows decode (value.toBN >>= fun bn => toArrayLike 8 (f bn)) value.value ↔
      value.TooLarge ∨ 2 ^ 64 ≤ (f value.value).natAbs ∨
        decode (leBytes 8 (f value.value).natAbs) = value.value := by
  simp only [ExactOrThrows, except_bind_eq_ok, toBN_eq_ok, toArrayLike_eq_ok]
  constructor
  · intro h
    by_cases hlarge : value.TooLarge
    · exact .inl hlarge
    · by_cases hfits : (f value.value).natAbs < 256 ^ 8
      · exact .inr (.inr (h _ ⟨_, ⟨hlarge, rfl⟩, hfits, rfl⟩))
      · exact .inr (.inl (not_lt.1 hfits))
  · rintro h data ⟨_, ⟨hsmall, rfl⟩, hfits, rfl⟩
    rcases h with hlarge | hlong | hexact
    · exact absurd hlarge hsmall
    · exact absurd hlong (not_le.2 hfits)
    · exact hexact

/-- Only the sign can be lost. -/
theorem encodeU64Le_exact_iff (value : JsInteger) :
    ExactOrThrows (fun data => leNat data) (encodeU64Le value) value.value ↔
      0 ≤ value.value ∨ 2 ^ 64 ≤ value.value.natAbs ∨ value.TooLarge := by
  have hencode : ExactOrThrows (fun data => leNat data) (encodeU64Le value) value.value ↔
      value.TooLarge ∨ 2 ^ 64 ≤ value.value.natAbs ∨
        (leNat (leBytes 8 value.value.natAbs) : ℤ) = value.value :=
    exactOrThrows_toArrayLike fun bn => bn
  refine hencode.trans ?_
  by_cases hlong : 2 ^ 64 ≤ value.value.natAbs
  · exact iff_of_true (.inr (.inl hlong)) (.inr (.inl hlong))
  · have hsign : (leNat (leBytes 8 value.value.natAbs) : ℤ) = value.value ↔ 0 ≤ value.value := by
      rw [leNat_leBytes_of_lt (by omega)]
      omega
    constructor
    · rintro (hlarge | hlong' | hexact)
      · exact .inr (.inr hlarge)
      · exact absurd hlong' hlong
      · exact .inl (hsign.1 hexact)
    · rintro (hnonneg | hlong' | hlarge)
      · exact .inr (.inr (hsign.2 hnonneg))
      · exact absurd hlong' hlong
      · exact .inl hlarge

section Complement

variable (hnonneg : ∀ v, 0 ≤ v → toTwos v = v)
  (hneg : ∀ v, -2 ^ 64 < v → v < 0 → toTwos v = 2 ^ 64 + v)

include hnonneg hneg

/-- What has more than eight bytes after the complement had so before. -/
theorem long_of_toTwos (h : 2 ^ 64 ≤ (toTwos v).natAbs) : 2 ^ 64 ≤ v ∨ v ≤ -2 ^ 64 := by
  by_contra hbetween
  rcases le_or_gt 0 v with hv | hv
  · rw [hnonneg v hv] at h
    omega
  · rw [hneg v (by omega) hv] at h
    omega

/-- Eight bytes of the complement decode to the number in the range of an `i64` only. -/
theorem leInt64_toTwos_iff (h : (toTwos v).natAbs < 2 ^ 64) :
    leInt64 (leBytes 8 (toTwos v).natAbs) = v ↔ -2 ^ 63 ≤ v ∧ v < 2 ^ 63 := by
  unfold leInt64
  rw [leNat_leBytes_of_lt (by omega)]
  by_cases hv : 0 ≤ v
  · rw [hnonneg v hv] at h ⊢
    split_ifs <;> omega
  · by_cases hlow : -2 ^ 64 < v
    · rw [hneg v hlow (not_le.1 hv)]
      split_ifs <;> omega
    · split_ifs <;> omega

/-- The complement is written, which must be the one of eight bytes. -/
theorem encodeI64LeBy_exact_iff (value : JsInteger) :
    ExactOrThrows leInt64 (encodeI64LeBy toTwos value) value.value ↔
      -2 ^ 63 ≤ value.value ∧ value.value < 2 ^ 63 ∨ 2 ^ 64 ≤ value.value ∨
        value.value ≤ -2 ^ 64 ∧ 2 ^ 64 ≤ (toTwos value.value).natAbs ∨ value.TooLarge := by
  refine (exactOrThrows_toArrayLike toTwos).trans ?_
  by_cases hlong : 2 ^ 64 ≤ (toTwos value.value).natAbs
  · refine iff_of_true (.inr (.inl hlong)) (.inr ?_)
    rcases long_of_toTwos hnonneg hneg hlong with hhigh | hlow
    · exact .inl hhigh
    · exact .inr (.inl ⟨hlow, hlong⟩)
  · have hdecode := leInt64_toTwos_iff hnonneg hneg (not_le.1 hlong)
    have hfits : ¬ 2 ^ 64 ≤ value.value := by
      intro hv
      rw [hnonneg _ (by omega)] at hlong
      omega
    constructor
    · rintro (hlarge | hlong' | hexact)
      · exact .inr (.inr (.inr hlarge))
      · exact absurd hlong' hlong
      · exact .inl (hdecode.1 hexact)
    · rintro (hrange | hhigh | ⟨-, hlong'⟩ | hlarge)
      · exact .inr (.inr (hdecode.2 hrange))
      · exact absurd hhigh hfits
      · exact absurd hlong' hlong
      · exact .inl hlarge

end Complement

theorem encodeU16Le_exact_iff (v : ℤ) :
    (leNat (encodeU16Le v) : ℤ) = v ↔ 0 ≤ v ∧ v < 2 ^ 16 := by
  rw [encodeU16Le, leNat_leBytes_of_lt (by omega)]
  omega

theorem encodeU8Le_exact_iff (v : ℤ) : (leNat (encodeU8Le v) : ℤ) = v ↔ 0 ≤ v ∧ v < 2 ^ 8 := by
  rw [encodeU8Le, leNat_leBytes_of_lt (by omega)]
  omega

/-- From `-2^64` up it does not matter which complement the library makes. -/
theorem encodeI64LeBy_eq (hnonneg : ∀ v, 0 ≤ v → toTwos v = v)
    (hneg : ∀ v, -2 ^ 64 < v → v < 0 → toTwos v = 2 ^ 64 + v) (h : -2 ^ 64 < value.value) :
    encodeI64LeBy toTwos value = encodeI64Le value := by
  have htwos : toTwos value.value = toTwos64 value.value := by
    by_cases hv : value.value < 0
    · rw [hneg _ h hv, toTwos64_of_neg h hv]
    · rw [hnonneg _ (not_lt.1 hv), toTwos64_of_nonneg (not_lt.1 hv)]
  rw [encodeI64LeBy, encodeI64Le]
  cases hbn : value.toBN with
  | error e => rfl
  | ok bn =>
    obtain ⟨-, rfl⟩ := toBN_eq_ok.1 hbn
    exact congrArg (toArrayLike 8) htwos

/-- The encoders of the seeds are the same. -/
theorem toLeBytes_eq :
    toLeBytes64 = encodeU64Le ∧ toLeBytes16 = encodeU16Le ∧ toLeByte = encodeU8Le :=
  ⟨rfl, rfl, rfl⟩

/-- Out of range, negative and too large numbers are encoded as others, unless the array of eight
bytes is too short for them. -/
theorem integerEncoders_exact_iff (toTwos : ℤ → ℤ) (hnonneg : ∀ v, 0 ≤ v → toTwos v = v)
    (hneg : ∀ v, -2 ^ 64 < v → v < 0 → toTwos v = 2 ^ 64 + v) :
    (∀ value : JsInteger,
      ExactOrThrows (fun data => leNat data) (encodeU64Le value) value.value ↔
        0 ≤ value.value ∨ 2 ^ 64 ≤ value.value.natAbs ∨ value.TooLarge) ∧
    (∀ value : JsInteger, ExactOrThrows leInt64 (encodeI64LeBy toTwos value) value.value ↔
      -2 ^ 63 ≤ value.value ∧ value.value < 2 ^ 63 ∨ 2 ^ 64 ≤ value.value ∨
        value.value ≤ -2 ^ 64 ∧ 2 ^ 64 ≤ (toTwos value.value).natAbs ∨ value.TooLarge) ∧
    (∀ v : ℤ, (leNat (encodeU16Le v) : ℤ) = v ↔ 0 ≤ v ∧ v < 2 ^ 16) ∧
    ∀ v : ℤ, (leNat (encodeU8Le v) : ℤ) = v ↔ 0 ≤ v ∧ v < 2 ^ 8 :=
  ⟨encodeU64Le_exact_iff, encodeI64LeBy_exact_iff hnonneg hneg, encodeU16Le_exact_iff,
    encodeU8Le_exact_iff⟩

theorem integerEncoders_exact_iff_sample :
    ExactOrThrows (fun data => leNat data) (encodeU64Le (.number 7)) 7 ∧
      ExactOrThrows leInt64 (encodeI64LeBy toTwos64 (.bigint (-5))) (-5) ∧
      ¬ ExactOrThrows leInt64 (encodeI64LeBy toTwos64 (.bigint (-2 ^ 63 - 1))) (-2 ^ 63 - 1) := by
  obtain ⟨hu64, hi64, -⟩ := integerEncoders_exact_iff toTwos64 (fun _ => toTwos64_of_nonneg)
    fun _ => toTwos64_of_neg
  refine ⟨(hu64 (.number 7)).2 (.inl (by decide)), (hi64 (.bigint (-5))).2 (.inl (by decide)),
    fun h => ?_⟩
  rcases (hi64 (.bigint (-2 ^ 63 - 1))).1 h with hrange | hhigh | hlow | hlarge
  · exact absurd hrange (by decide)
  · exact absurd hhigh (by decide)
  · exact absurd hlow.1 (by decide)
  · exact hlarge

/-- Each encoder takes a number for another one. -/
theorem integerEncoders_inexact :
    encodeU64Le (.bigint (-1)) = .ok [1, 0, 0, 0, 0, 0, 0, 0] ∧
      encodeI64Le (.bigint (2 ^ 63)) = .ok [0, 0, 0, 0, 0, 0, 0, 0x80] ∧
      encodeU16Le 65536 = [0, 0] ∧ encodeU8Le 256 = [0] ∧
      ¬ ExactOrThrows (fun data => leNat data) (encodeU64Le (.bigint (-1))) (-1) ∧
      ¬ ExactOrThrows leInt64 (encodeI64Le (.bigint (2 ^ 63))) (2 ^ 63) := by
  refine ⟨by decide, by decide, by decide, by decide, fun h => ?_, fun h => ?_⟩
  · exact absurd (h [1, 0, 0, 0, 0, 0, 0, 0] (by decide)) (by decide)
  · exact absurd (h [0, 0, 0, 0, 0, 0, 0, 0x80] (by decide)) (by decide)

end Sdk

end Ghos
