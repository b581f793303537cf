import Ghos.Client.ElGamal
import Ghos.Client.RistrettoCodec

/-!
# The group that the CLI computes in

The cosets of even points of edwards25519, with the encoding of the CLI, are a `Ristretto255`.
Points in extended coordinates represent cosets (`RepresentsCoset`), and the functions of the CLI
respect this.

* `encode_coset`, `agrees_ristrettoDecode`: encoding and decoding;
* `RepresentsCoset.add`, `RepresentsCoset.negate`, `RepresentsCoset.scalarMul`: arithmetic;
* `ristrettoEqual_coset`: comparison.
-/

namespace Ghos

namespace Cli.Coordinates

open EdwardsCurve ExtendedPoint

/-- The cosets that the encodings stand for. -/
abbrev Coset : Type := edwards25519.Coset

/-- The coset of an even point. -/
def coset (p : edwards25519.Point) (hp : p ∈ edwards25519.even) : Coset :=
  QuotientAddGroup.mk ⟨p, hp⟩

/-- The coordinates represent a point of the coset. -/
def RepresentsCoset (P : ExtendedPoint) (c : Coset) : Prop :=
  ∃ p hp, Represents P p ∧ coset p hp = c

variable {P Q : ExtendedPoint} {p q : edwards25519.Point} {b c : Coset}

theorem coset_eq_iff (hp : p ∈ edwards25519.even) (hq : q ∈ edwards25519.even) :
    coset p hp = coset q hq ↔ p - q ∈ edwards25519.torsion := by
  rw [coset, coset, QuotientAddGroup.eq, AddSubgroup.mem_addSubgroupOf, ← neg_mem_iff]
  show -(-p + q) ∈ edwards25519.torsion ↔ _
  rw [neg_add, neg_neg, sub_eq_add_neg]

/-! ### Arithmetic -/

theorem representsCoset_identity : RepresentsCoset identity 0 :=
  ⟨0, edwards25519.even.zero_mem, represents_identity, rfl⟩

theorem RepresentsCoset.add (hP : RepresentsCoset P b) (hQ : RepresentsCoset Q c) :
    RepresentsCoset (P.add Q) (b + c) := by
  obtain ⟨p, hp, hPp, rfl⟩ := hP
  obtain ⟨q, hq, hQq, rfl⟩ := hQ
  exact ⟨p + q, edwards25519.even.add_mem hp hq, hPp.add hQq, rfl⟩

theorem RepresentsCoset.negate (hP : RepresentsCoset P b) : RepresentsCoset P.negate (-b) := by
  obtain ⟨p, hp, hPp, rfl⟩ := hP
  exact ⟨-p, edwards25519.even.neg_mem hp, hPp.negate, rfl⟩

theorem RepresentsCoset.nsmul_scalarMul (hP : RepresentsCoset P b) (k : ℤ) :
    RepresentsCoset (P.scalarMul k) (reduceScalar k • b) := by
  obtain ⟨p, hp, hPp, rfl⟩ := hP
  exact ⟨_, edwards25519.even.nsmul_mem hp _, hPp.scalarMul k, rfl⟩

/-- Comparison is equality of cosets. -/
theorem ristrettoEqual_coset (hP : RepresentsCoset P b) (hQ : RepresentsCoset Q c) :
    ristrettoEqual P Q = true ↔ b = c := by
  obtain ⟨p, hp, hPp, rfl⟩ := hP
  obtain ⟨q, hq, hQq, rfl⟩ := hQ
  rw [ristrettoEqual_iff hPp hQq, coset_eq_iff]

/-! ### Encoding -/

/-- The number in an encoding. -/
theorem leNat_leBytes_of_reduced {s : ℤ} (hs : Reduced s) :
    (leNat (leBytes 32 s.toNat) : ℤ) = s := by
  have hfield : (fieldOrder : ℤ) < 256 ^ 32 := by decide +kernel
  have hnonneg := hs.nonneg
  have hlt := hs.lt
  have htoNat : (s.toNat : ℤ) = s := Int.toNat_of_nonneg hnonneg
  have hbytes : s.toNat < 256 ^ 32 := by
    zify
    omega
  rw [leNat_leBytes_of_lt hbytes, htoNat]

/-- Points have the same encoding if they are in one coset. -/
theorem ristrettoEncode_eq_iff (hP : Represents P p) (hp : p ∈ edwards25519.even)
    (hQ : Represents Q q) (hq : q ∈ edwards25519.even) :
    ristrettoEncode P = ristrettoEncode Q ↔ p - q ∈ edwards25519.torsion := by
  obtain ⟨p', s, hpp', hcanonical, hs, hcode, hbytes⟩ := exists_ristrettoEncode hP hp
  obtain ⟨q', t, hqq', hcanonical', ht, hcode', hbytes'⟩ := exists_ristrettoEncode hQ hq
  have hsame : p - q ∈ edwards25519.torsion ↔ p' - q' ∈ edwards25519.torsion := by
    have hsplit : p' - q' = p - q + ((p' - p) - (q' - q)) := by abel
    rw [hsplit, AddSubgroup.add_mem_cancel_right _ (edwards25519.torsion.sub_mem hpp' hqq')]
  rw [hbytes, hbytes', hsame]
  constructor
  · intro h
    have hst : s = t := by
      have hnumber := congrArg (fun l => (leNat l : ℤ)) h
      simpa only [leNat_leBytes_of_reduced hs, leNat_leBytes_of_reduced ht] using hnumber
    subst hst
    rw [hcanonical.eq_of_encodes hcanonical' hcode hcode', sub_self]
    exact edwards25519.torsion.zero_mem
  · intro h
    obtain rfl := hcanonical.eq_of_sub_mem_torsion hcanonical' h
    rw [(hs.cast_inj ht).1 (hcanonical.encodes_unique hcode hcode')]

theorem length_ristrettoEncode (P : ExtendedPoint) : (ristrettoEncode P).length = 32 := by
  simp only [ristrettoEncode, length_leBytes]

/-- Coordinates for a coset. -/
noncomputable def ofCoset (c : Coset) : ExtendedPoint :=
  ofAffine c.out.1.x.val c.out.1.y.val

theorem representsCoset_ofCoset (c : Coset) : RepresentsCoset (ofCoset c) c := by
  refine ⟨c.out.1, c.out.2, represents_ofAffine ?_ ?_, Quotient.out_eq c⟩
  · rw [Int.cast_natCast, ZMod.natCast_zmod_val]
  · rw [Int.cast_natCast, ZMod.natCast_zmod_val]

theorem ristrettoEncode_coset_iff (hP : RepresentsCoset P b) (hQ : RepresentsCoset Q c) :
    ristrettoEncode P = ristrettoEncode Q ↔ b = c := by
  obtain ⟨p, hp, hPp, rfl⟩ := hP
  obtain ⟨q, hq, hQq, rfl⟩ := hQ
  rw [ristrettoEncode_eq_iff hPp hp hQq hq, coset_eq_iff]

/-- An encoding holds an even number below the order of the field. -/
theorem leNat_ristrettoEncode (hP : RepresentsCoset P c) :
    leNat (ristrettoEncode P) < fieldOrder ∧ leNat (ristrettoEncode P) % 2 = 0 := by
  obtain ⟨p, hp, hPp, rfl⟩ := hP
  obtain ⟨q, s, -, -, hs, hcode, hbytes⟩ := exists_ristrettoEncode hPp hp
  have hnumber := leNat_leBytes_of_reduced hs
  have hlt := hs.lt
  have hsign := hcode.not_negative
  rw [← hs.isNegativeFe_ne_zero_iff, not_not, isNegativeFe] at hsign
  rw [hbytes]
  omega

/-! ### The group -/

/-- `_BASEPOINT_ENCODING`. -/
def basepointEncoding : List UInt8 :=
  [0xe2, 0xf2, 0xae, 0x0a, 0x6a, 0xbc, 0x4e, 0x71, 0xa8, 0x84, 0xa9, 0x61, 0xc5, 0x00, 0x51, 0x5f,
    0x58, 0xe3, 0x0b, 0x6a, 0xa5, 0x82, 0xdd, 0x8d, 0xb6, 0xa6, 0x59, 0x45, 0xe0, 0x8d, 0x2d, 0x76]

/-- The canonical basepoint as an internal point. -/
def basepoint : Except Error ExtendedPoint := ristrettoDecode basepointEncoding

def basepointX : ℤ :=
  7413488746097234319268533557746747958297143720389000677696299943083562100178

def basepointY : ℤ :=
  9771384041963202563870679428059935816164187996444183106833894008023910952347

/-- The canonical point that the encoding stands for. -/
def basepointPoint : edwards25519.Point :=
  ⟨(basepointX : ℤ), (basepointY : ℤ), onCurve_of_emod (by decide +kernel)⟩

theorem reduced_basepointX : Reduced basepointX := ⟨by decide +kernel, by decide +kernel⟩

theorem canonical_basepointPoint : Canonical sign basepointPoint where
  x := by
    show ¬ sign.negative (basepointX : FieldElement)
    rw [← reduced_basepointX.isNegativeFe_ne_zero_iff]
    decide +kernel
  xy := by
    show ¬ sign.negative (basepointX * basepointY : FieldElement)
    rw [← Int.cast_mul, ← cast_emod, ← (reduced_emod _).isNegativeFe_ne_zero_iff]
    decide +kernel
  y_ne_zero := by
    show (basepointY : FieldElement) ≠ 0
    rw [Ne, cast_eq_zero_iff]
    decide +kernel
  y_ne_neg_one := by
    show (basepointY : FieldElement) ≠ -1
    rw [← Int.cast_one, ← Int.cast_neg, Ne, cast_eq_iff]
    decide +kernel

theorem reduced_basepointEncoding : Reduced (leNat basepointEncoding) :=
  ⟨by decide +kernel, by decide +kernel⟩

theorem encodes_basepointPoint :
    Encodes sign ((leNat basepointEncoding : ℤ) : FieldElement) basepointPoint where
  not_negative := by
    rw [← reduced_basepointEncoding.isNegativeFe_ne_zero_iff]
    decide +kernel
  sq_mul := by
    have hcheck : (leNat basepointEncoding : ℤ) ^ 2 * (1 + basepointY) % fieldOrder =
        (1 - basepointY) % fieldOrder := by decide +kernel
    have hcast := cast_eq_iff.2 hcheck
    push_cast at hcast ⊢
    exact hcast

theorem basepointPoint_mem_even : basepointPoint ∈ edwards25519.even :=
  encodes_basepointPoint.mem_even invsqrtAMinusD_sq

theorem exists_basepoint : ∃ G, basepoint = .ok G ∧
    RepresentsCoset G (coset basepointPoint basepointPoint_mem_even) := by
  obtain ⟨G, hG, hrepresents⟩ := ristrettoDecode_of_encodes rfl rfl reduced_basepointEncoding
    canonical_basepointPoint encodes_basepointPoint
  exact ⟨G, hG, _, _, hrepresents, rfl⟩

open Classical in
/-- The coset that an encoding stands for. -/
noncomputable def cosetOf (data : List UInt8) : Option Coset :=
  if h : ∃ c, ristrettoEncode (ofCoset c) = data then some h.choose else none

theorem cosetOf_ristrettoEncode (hP : RepresentsCoset P c) :
    cosetOf (ristrettoEncode P) = some c := by
  have hself := ristrettoEncode_coset_iff (representsCoset_ofCoset c) hP
  have hex : ∃ c, ristrettoEncode (ofCoset c) = ristrettoEncode P := ⟨c, hself.2 rfl⟩
  have heq := ristrettoEncode_coset_iff (representsCoset_ofCoset hex.choose) hP
  rw [cosetOf, dif_pos hex, heq.1 hex.choose_spec]

noncomputable instance : Ristretto255 Coset where
  base := coset basepointPoint basepointPoint_mem_even
  base_ne_zero := by
    intro hzero
    have hmem : basepointPoint - 0 ∈ edwards25519.torsion :=
      (coset_eq_iff _ edwards25519.even.zero_mem).1 hzero
    rw [sub_zero, EdwardsCurve.mem_torsion_iff] at hmem
    replace hmem : (basepointX * basepointY : FieldElement) = 0 := hmem
    rw [← Int.cast_mul, cast_eq_zero_iff] at hmem
    exact absurd hmem (by decide +kernel)
  card := card_coset25519
  multiplyError k := s!"expected valid scalar: 1 <= n < {curveOrder}, got {k}"
  encode c := ⟨(ristrettoEncode (ofCoset c)).toArray, length_ristrettoEncode _⟩
  decode := cosetOf
  decode_encode c := cosetOf_ristrettoEncode (representsCoset_ofCoset c)
  encode_lt c := (leNat_ristrettoEncode (representsCoset_ofCoset c)).1
  encode_even c := (leNat_ristrettoEncode (representsCoset_ofCoset c)).2

/-! ### The code computes in the group -/

open Ristretto255

theorem encode_coset (hP : RepresentsCoset P c) : (encode c).toList = ristrettoEncode P :=
  (ristrettoEncode_coset_iff (representsCoset_ofCoset c) hP).2 rfl

theorem RepresentsCoset.scalarMul (hP : RepresentsCoset P b) (k : ℤ) :
    RepresentsCoset (P.scalarMul k) (Cli.scalarMul b k) := by
  rw [Cli.scalarMul, scalarMulLoop_eq, zero_add]
  exact hP.nsmul_scalarMul k

/-- The results stand for one another, or the errors are the same. -/
inductive Agrees : Except Error ExtendedPoint → Except Error Coset → Prop
  | ok {P : ExtendedPoint} {c : Coset} (h : RepresentsCoset P c) : Agrees (.ok P) (.ok c)
  | error (e : Error) : Agrees (.error e) (.error e)

/-- Codes of canonical points are the encodings. -/
theorem cosetOf_of_encodes {data : List UInt8} {s : ℤ} (hlength : data.length = 32)
    (hdata : (leNat data : ℤ) = s) (hs : Reduced s) (hq : Canonical sign q)
    (hcode : Encodes sign (s : FieldElement) q) :
    cosetOf data = some (coset q (hcode.mem_even invsqrtAMinusD_sq)) := by
  have heven := hcode.mem_even invsqrtAMinusD_sq
  obtain ⟨Q, -, hQ⟩ := ristrettoDecode_of_encodes hlength hdata hs hq hcode
  obtain ⟨q', t, hqq', hcanonical, ht, hcode', hbytes⟩ := exists_ristrettoEncode hQ heven
  obtain rfl := hcanonical.eq_of_sub_mem_torsion hq hqq'
  obtain rfl := (hs.cast_inj ht).1 (hcanonical.encodes_unique hcode hcode')
  have hself : data = ristrettoEncode Q := by
    rw [hbytes, ← hdata, Int.toNat_natCast, leBytes_leNat hlength]
  rw [hself]
  exact cosetOf_ristrettoEncode ⟨q', heven, hQ, rfl⟩

/-- And nothing else is one. -/
theorem cosetOf_of_not_encodes {data : List UInt8} {s : ℤ} (hdata : (leNat data : ℤ) = s)
    (hnot : ∀ q : edwards25519.Point, Canonical sign q → ¬ Encodes sign (s : FieldElement) q) :
    cosetOf data = none := by
  rw [cosetOf, dif_neg]
  rintro ⟨c, rfl⟩
  obtain ⟨p, hp, hPp, -⟩ := representsCoset_ofCoset c
  obtain ⟨q, t, -, hcanonical, ht, hcode, hbytes⟩ := exists_ristrettoEncode hPp hp
  rw [hbytes, leNat_leBytes_of_reduced ht] at hdata
  exact hnot q hcanonical (hdata ▸ hcode)

/-- After the checks of the number, both sides look for its canonical point. -/
theorem agrees_of_checks {data : List UInt8} {s : ℤ} (hlength : data.length = 32)
    (hdata : (leNat data : ℤ) = s) (hs : Reduced s) (heven : ¬ sign.negative (s : FieldElement)) :
    Agrees (ristrettoDecode data) (match cosetOf data with
      | some c => .ok c
      | none => .error notValid) := by
  by_cases hex : ∃ q : edwards25519.Point, Canonical sign q ∧ Encodes sign (s : FieldElement) q
  · obtain ⟨q, hq, hcode⟩ := hex
    obtain ⟨Q, hQ, hrepresents⟩ := ristrettoDecode_of_encodes hlength hdata hs hq hcode
    rw [hQ, cosetOf_of_encodes hlength hdata hs hq hcode]
    exact .ok ⟨q, _, hrepresents, rfl⟩
  · have hnot : ∀ q : edwards25519.Point, Canonical sign q →
        ¬ Encodes sign (s : FieldElement) q := fun q hq hcode => hex ⟨q, hq, hcode⟩
    rw [ristrettoDecode_of_not_encodes hlength hdata hs heven hnot,
      cosetOf_of_not_encodes hdata hnot]
    exact .error _

theorem agrees_ristrettoDecode (data : List UInt8) :
    Agrees (ristrettoDecode data) (Cli.ristrettoDecode data) := by
  obtain ⟨s, hdata⟩ : ∃ s : ℤ, (leNat data : ℤ) = s := ⟨_, rfl⟩
  by_cases hlength : data.length = 32
  · by_cases hlt : leNat data < fieldOrder
    · have hs : Reduced s := ⟨by omega, by omega⟩
      have hparity : isNegativeFe s = 0 ↔ leNat data % 2 = 0 := by
        rw [isNegativeFe]
        omega
      by_cases heven : leNat data % 2 = 0
      · have hsign : ¬ sign.negative (s : FieldElement) := by
          rwa [← hs.isNegativeFe_ne_zero_iff, not_not, hparity]
        have hclass : Cli.ristrettoDecode data = match cosetOf data with
            | some c => .ok c
            | none => .error notValid := by
          simp only [Cli.ristrettoDecode, throwUnless_bind, if_pos hlength, if_pos hlt,
            if_pos heven]
          rw [show (decode data : Option Coset) = cosetOf data from rfl]
          cases cosetOf data with
          | none => rfl
          | some c => rfl
        rw [hclass]
        exact agrees_of_checks hlength hdata hs hsign
      · have hint : (leNat data : ℤ) < fieldOrder := by omega
        have hodd : ¬ isNegativeFe (leNat data : ℤ) = 0 := by rwa [hdata, hparity]
        simp only [ristrettoDecode, Cli.ristrettoDecode, throwUnless_bind, if_pos hlength,
          if_pos hlt, if_pos hint, if_neg heven, if_neg hodd]
        exact .error _
    · have hint : ¬ (leNat data : ℤ) < fieldOrder := by omega
      simp only [ristrettoDecode, Cli.ristrettoDecode, throwUnless_bind, if_pos hlength, if_neg hlt,
        if_neg hint]
      exact .error _
  · simp only [ristrettoDecode, Cli.ristrettoDecode, throwUnless_bind, if_neg hlength]
    exact .error _

end Cli.Coordinates

end Ghos
