import Ghos.Client.RangeCheck
import Ghos.Client.RistrettoGroup

/-!
# What the sigma verifiers accept

The verifiers of `sdk/src/crypto/sigma.ts` read points and responses from slots of 32 bytes.  A
response is reduced modulo the order of the group, so that a number and the same number with the
order added are the same response; and `verifyPubkeyValidity` does not look whether the key is zero.

* `reencoding_iff`: when two accepted strings that are read alike are equal;
* `pubkey_ne_zero_iff`: when the key of an accepted proof is not zero.
-/

namespace Ghos.Sdk

open Ristretto255

/-! ### Slots -/

/-- The 32 bytes in a slot. -/
def slot (bytes : List UInt8) (i : ℕ) : List UInt8 := slice bytes (32 * i) (32 * i + 32)

theorem getElem?_slot (bytes : List UInt8) (i : ℕ) {j : ℕ} (hj : j < 32) :
    (slot bytes i)[j]? = bytes[32 * i + j]? := by
  rw [slot, slice, Nat.add_sub_cancel_left, List.getElem?_take_of_lt hj, List.getElem?_drop]

theorem length_slot {bytes : List UInt8} {n i : ℕ} (h : bytes.length = 32 * n) (hi : i < n) :
    (slot bytes i).length = 32 := by
  rw [slot, slice, List.length_take, List.length_drop]
  omega

/-- Strings of whole slots are equal if their slots are. -/
theorem eq_of_slots {bytes bytes' : List UInt8} {n : ℕ} (h : bytes.length = 32 * n)
    (h' : bytes'.length = 32 * n) (hslots : ∀ i < n, slot bytes i = slot bytes' i) :
    bytes = bytes' := by
  refine List.ext_getElem? fun k => ?_
  rcases Nat.lt_or_ge k (32 * n) with hk | hk
  · have hj : k % 32 < 32 := Nat.mod_lt k (by decide)
    have hi : k / 32 < n := Nat.div_lt_of_lt_mul hk
    rw [← Nat.div_add_mod k 32, ← getElem?_slot bytes _ hj, ← getElem?_slot bytes' _ hj,
      hslots _ hi]
  · rw [List.getElem?_eq_none (h ▸ hk), List.getElem?_eq_none (h' ▸ hk)]

/-! ### Strings that are read alike -/

variable {Point : Type} [Ristretto255 Point] {sha512 : List UInt8 → Vector UInt8 64}

theorem pointFromBytes_eq_ok {bytes : List UInt8} {p : Point} :
    pointFromBytes bytes = .ok p ↔ bytes.length = 32 ∧ decode bytes = some p := by
  rw [pointFromBytes, throwUnless_bind_eq_ok]
  refine and_congr_right fun _ => ?_
  cases (decode bytes : Option Point) with
  | none => simp [throw, throwThe, MonadExceptOf.throw]
  | some q => simp [pure, Except.pure]

variable (Point) in
/-- A point has only one encoding. -/
def CanonicalEncoding : Prop := ∀ data (p : Point), decode data = some p → data = (encode p).toList

variable (Point) in
/-- The strings hold the same points in the first slots, and behind them responses that are
congruent modulo the order. -/
structure ReadAlike (points responses : ℕ) (bytes bytes' : List UInt8) : Prop where
  point : ∀ i < points, ∃ p : Point,
    pointFromBytes (slot bytes i) = .ok p ∧ pointFromBytes (slot bytes' i) = .ok p
  response : ∀ i < responses,
    leNat (slot bytes (points + i)) ≡ leNat (slot bytes' (points + i)) [MOD curveOrder]

/-- To each response the same multiple of the order is added. -/
def SameMultiples (points responses : ℕ) (bytes bytes' : List UInt8) : Prop :=
  ∀ i < responses,
    leNat (slot bytes (points + i)) / curveOrder = leNat (slot bytes' (points + i)) / curveOrder

theorem ReadAlike.eq_iff {points responses : ℕ} {bytes bytes' : List UInt8}
    (hcanonical : CanonicalEncoding Point) (h : ReadAlike Point points responses bytes bytes')
    (hlength : bytes.length = 32 * (points + responses))
    (hlength' : bytes'.length = 32 * (points + responses)) :
    bytes = bytes' ↔ SameMultiples points responses bytes bytes' := by
  constructor
  · rintro rfl i _
    rfl
  · intro hsame
    refine eq_of_slots hlength hlength' fun i hi => ?_
    rcases Nat.lt_or_ge i points with hpoint | hresponse
    · obtain ⟨p, hp, hp'⟩ := h.point i hpoint
      rw [hcanonical _ p (pointFromBytes_eq_ok.1 hp).2,
        hcanonical _ p (pointFromBytes_eq_ok.1 hp').2]
    · obtain ⟨k, rfl⟩ := Nat.exists_eq_add_of_le hresponse
      have hk : k < responses := by omega
      have hnumber : leNat (slot bytes (points + k)) = leNat (slot bytes' (points + k)) := by
        rw [← Nat.div_add_mod (leNat (slot bytes (points + k))) curveOrder, hsame k hk,
          h.response k hk, Nat.div_add_mod]
      rw [← leBytes_leNat (length_slot hlength hi), hnumber,
        leBytes_leNat (length_slot hlength' hi)]

/-! ### The other encodings -/

/-- The string with another part in a slot. -/
def writeSlot (n : ℕ) (bytes : List UInt8) (i : ℕ) (part : List UInt8) : List UInt8 :=
  ((List.range n).map fun j => if j = i then part else slot bytes j).flatten

section WriteSlot

variable {bytes part : List UInt8} {n i : ℕ}

theorem length_of_mem_slots (hbytes : bytes.length = 32 * n) (hpart : part.length = 32) :
    ∀ p ∈ (List.range n).map fun j => if j = i then part else slot bytes j, p.length = 32 := by
  simp only [List.forall_mem_map, List.mem_range]
  intro j hj
  split_ifs
  · exact hpart
  · exact length_slot hbytes hj

theorem length_writeSlot (hbytes : bytes.length = 32 * n) (hpart : part.length = 32) :
    (writeSlot n bytes i part).length = 32 * n := by
  rw [writeSlot, length_flatten (length_of_mem_slots hbytes hpart), List.length_map,
    List.length_range]

theorem slot_writeSlot (hbytes : bytes.length = 32 * n) (hpart : part.length = 32) {j : ℕ}
    (hj : j < n) :
    slot (writeSlot n bytes i part) j = if j = i then part else slot bytes j := by
  refine slice_flatten (length_of_mem_slots hbytes hpart) ?_
  rw [List.getElem?_map, List.getElem?_range hj]
  rfl

end WriteSlot

/-- Another number that is read as the same response. -/
def otherNumber (m : ℕ) : ℕ := if m < curveOrder then m + curveOrder else m % curveOrder

theorem otherNumber_ne (m : ℕ) : otherNumber m ≠ m := by
  have hpos := curveOrder_pos
  have hmod := Nat.mod_lt m hpos
  rw [otherNumber]
  split_ifs <;> omega

theorem otherNumber_modEq (m : ℕ) : m ≡ otherNumber m [MOD curveOrder] := by
  rw [otherNumber]
  split_ifs
  · exact (Nat.add_mod_right m curveOrder).symm
  · exact (Nat.mod_mod m curveOrder).symm

theorem otherNumber_lt (m : ℕ) : otherNumber m < 256 ^ 32 := by
  have hdouble : curveOrder + curveOrder < 256 ^ 32 := by decide +kernel
  have hmod := Nat.mod_lt m curveOrder_pos
  rw [otherNumber]
  split_ifs <;> omega

/-- The string with another number for the response behind the points. -/
def reencode (n points : ℕ) (bytes : List UInt8) : List UInt8 :=
  writeSlot n bytes points (leBytes 32 (otherNumber (leNat (slot bytes points))))

theorem slot_reencode {n points : ℕ} {bytes : List UInt8} (hbytes : bytes.length = 32 * n) {j : ℕ}
    (hj : j < n) (hne : j ≠ points) : slot (reencode n points bytes) j = slot bytes j := by
  rw [reencode, slot_writeSlot hbytes (length_leBytes 32 _) hj, if_neg hne]

theorem leNat_slot_reencode {n points : ℕ} {bytes : List UInt8} (hbytes : bytes.length = 32 * n)
    (hpoints : points < n) :
    leNat (slot (reencode n points bytes) points) = otherNumber (leNat (slot bytes points)) := by
  rw [reencode, slot_writeSlot hbytes (length_leBytes 32 _) hpoints, if_pos rfl,
    leNat_leBytes_of_lt (otherNumber_lt _)]

theorem scalarFromLE32_of_length {bytes : List UInt8} (h : bytes.length = 32) :
    scalarFromLE32 bytes = .ok (leNat bytes % curveOrder) := by
  rw [scalarFromLE32, throwUnless_bind, if_pos h]
  rfl

theorem scalarFromLE32_slot_reencode {n points : ℕ} {bytes : List UInt8}
    (hbytes : bytes.length = 32 * n) (hpoints : points < n) :
    scalarFromLE32 (slot (reencode n points bytes) points) =
      scalarFromLE32 (slot bytes points) := by
  have hlength : (reencode n points bytes).length = 32 * n :=
    length_writeSlot hbytes (length_leBytes 32 _)
  have hmod : otherNumber (leNat (slot bytes points)) % curveOrder =
      leNat (slot bytes points) % curveOrder := (otherNumber_modEq _).symm
  rw [scalarFromLE32_of_length (length_slot hlength hpoints),
    scalarFromLE32_of_length (length_slot hbytes hpoints), leNat_slot_reencode hbytes hpoints, hmod]

theorem reencode_ne {n points : ℕ} {bytes : List UInt8} (hbytes : bytes.length = 32 * n)
    (hpoints : points < n) : reencode n points bytes ≠ bytes := by
  intro h
  have hnumber := leNat_slot_reencode hbytes hpoints
  rw [h] at hnumber
  exact otherNumber_ne _ hnumber.symm

theorem readAlike_reencode {points responses : ℕ} {bytes : List UInt8}
    (hbytes : bytes.length = 32 * (points + (responses + 1)))
    (hpoint : ∀ i < points, ∃ p : Point, pointFromBytes (slot bytes i) = .ok p) :
    ReadAlike Point points (responses + 1) bytes
      (reencode (points + (responses + 1)) points bytes) where
  point i hi := by
    obtain ⟨p, hp⟩ := hpoint i hi
    exact ⟨p, hp, (slot_reencode hbytes (by omega) hi.ne).symm ▸ hp⟩
  response i hi := by
    rcases Nat.eq_zero_or_pos i with rfl | hpos
    · rw [add_zero, leNat_slot_reencode hbytes (by omega)]
      exact otherNumber_modEq _
    · rw [slot_reencode hbytes (by omega) (by omega)]

theorem verifyEquality_reencode {params : EqualityStatement} {proof : EqualityProof}
    (h : verifyEquality Point sha512 params proof = true) :
    verifyEquality Point sha512 params
        { proof with proofBytes := reencode (4 + 3) 4 proof.proofBytes } = true ∧
      ReadAlike Point 4 3 proof.proofBytes (reencode (4 + 3) 4 proof.proofBytes) := by
  obtain ⟨hbytes, hcheck⟩ := verifyEquality_iff.1 h
  set bytes := reencode (4 + 3) 4 proof.proofBytes with hset
  have hlength : bytes.length = 32 * (4 + 3) := length_writeSlot hbytes (length_leBytes 32 _)
  have hslot : ∀ j < 4 + 3, j ≠ 4 → slot bytes j = slot proof.proofBytes j :=
    fun j => slot_reencode hbytes
  have h0 : slice bytes 0 32 = _ := hslot 0 (by decide) (by decide)
  have h1 : slice bytes 32 64 = _ := hslot 1 (by decide) (by decide)
  have h2 : slice bytes 64 96 = _ := hslot 2 (by decide) (by decide)
  have h3 : slice bytes 96 128 = _ := hslot 3 (by decide) (by decide)
  have h4 : scalarFromLE32 (slice bytes 128 160) =
      scalarFromLE32 (slice proof.proofBytes 128 160) :=
    scalarFromLE32_slot_reencode hbytes (show 4 < 4 + 3 by decide)
  have h5 : slice bytes 160 192 = _ := hslot 5 (by decide) (by decide)
  have h6 : slice bytes 192 224 = _ := hslot 6 (by decide) (by decide)
  constructor
  · refine verifyEquality_iff.2 ⟨hlength, ?_⟩
    rw [← hcheck]
    simp only [checkEquality, h0, h1, h2, h3, h4, h5, h6]
    rfl
  · simp only [checkEquality, except_bind_eq_ok] at hcheck
    obtain ⟨sourcePk, -, destPk, -, a1, ha1, a2, ha2, a3, ha3, a4, ha4, -⟩ := hcheck
    refine readAlike_reencode hbytes fun i hi => ?_
    interval_cases i
    · exact ⟨a1, ha1⟩
    · exact ⟨a2, ha2⟩
    · exact ⟨a3, ha3⟩
    · exact ⟨a4, ha4⟩

theorem verifyPubkeyValidity_reencode {pubkey bytes : List UInt8}
    (h : verifyPubkeyValidity Point sha512 ⟨bytes, pubkey⟩ = true) :
    verifyPubkeyValidity Point sha512 ⟨reencode (1 + 1) 1 bytes, pubkey⟩ = true ∧
      ReadAlike Point 1 1 bytes (reencode (1 + 1) 1 bytes) := by
  obtain ⟨hbytes, hcheck⟩ := verifyPubkeyValidity_iff.1 h
  have hlength : (reencode (1 + 1) 1 bytes).length = 32 * (1 + 1) :=
    length_writeSlot hbytes (length_leBytes 32 _)
  have h0 : slice (reencode (1 + 1) 1 bytes) 0 32 = slice bytes 0 32 :=
    slot_reencode hbytes (show 0 < 1 + 1 by decide) (by decide)
  have h1 : scalarFromLE32 (slice (reencode (1 + 1) 1 bytes) 32 64) =
      scalarFromLE32 (slice bytes 32 64) :=
    scalarFromLE32_slot_reencode hbytes (show 1 < 1 + 1 by decide)
  constructor
  · refine verifyPubkeyValidity_iff.2 ⟨hlength, ?_⟩
    rw [← hcheck]
    simp only [checkPubkeyValidity, h0, h1]
  · simp only [checkPubkeyValidity, except_bind_eq_ok] at hcheck
    obtain ⟨pkPoint, -, r, hr, -⟩ := hcheck
    refine readAlike_reencode hbytes fun i hi => ?_
    obtain rfl := Nat.lt_one_iff.1 hi
    exact ⟨r, hr⟩

theorem verifyZeroBalance_reencode {pk bytes : List UInt8} {ciphertext : ElGamalCiphertext}
    (h : verifyZeroBalance Point sha512 pk ⟨bytes, ciphertext⟩ = true) :
    verifyZeroBalance Point sha512 pk ⟨reencode (2 + 1) 2 bytes, ciphertext⟩ = true ∧
      ReadAlike Point 2 1 bytes (reencode (2 + 1) 2 bytes) := by
  obtain ⟨hbytes, hcheck⟩ := verifyZeroBalance_iff.1 h
  have hlength : (reencode (2 + 1) 2 bytes).length = 32 * (2 + 1) :=
    length_writeSlot hbytes (length_leBytes 32 _)
  have h0 : slice (reencode (2 + 1) 2 bytes) 0 32 = slice bytes 0 32 :=
    slot_reencode hbytes (show 0 < 2 + 1 by decide) (by decide)
  have h1 : slice (reencode (2 + 1) 2 bytes) 32 64 = slice bytes 32 64 :=
    slot_reencode hbytes (show 1 < 2 + 1 by decide) (by decide)
  have h2 : scalarFromLE32 (slice (reencode (2 + 1) 2 bytes) 64 96) =
      scalarFromLE32 (slice bytes 64 96) :=
    scalarFromLE32_slot_reencode hbytes (show 2 < 2 + 1 by decide)
  constructor
  · refine verifyZeroBalance_iff.2 ⟨hlength, ?_⟩
    rw [← hcheck]
    simp only [checkZeroBalance, h0, h1, h2]
  · simp only [checkZeroBalance, except_bind_eq_ok] at hcheck
    obtain ⟨pkPoint, -, a1, ha1, a2, ha2, -⟩ := hcheck
    refine readAlike_reencode hbytes fun i hi => ?_
    interval_cases i
    · exact ⟨a1, ha1⟩
    · exact ⟨a2, ha2⟩

/-- Every accepted string has another one that is accepted and read alike. -/
theorem exists_reencoding (Point : Type) [Ristretto255 Point]
    (sha512 : List UInt8 → Vector UInt8 64) :
    (∀ params proof, verifyEquality Point sha512 params proof = true →
      ∃ bytes, bytes ≠ proof.proofBytes ∧
        verifyEquality Point sha512 params { proof with proofBytes := bytes } = true ∧
          ReadAlike Point 4 3 proof.proofBytes bytes) ∧
    (∀ pubkey bytes, verifyPubkeyValidity Point sha512 ⟨bytes, pubkey⟩ = true →
      ∃ bytes', bytes' ≠ bytes ∧ verifyPubkeyValidity Point sha512 ⟨bytes', pubkey⟩ = true ∧
        ReadAlike Point 1 1 bytes bytes') ∧
    ∀ pk ciphertext bytes, verifyZeroBalance Point sha512 pk ⟨bytes, ciphertext⟩ = true →
      ∃ bytes', bytes' ≠ bytes ∧ verifyZeroBalance Point sha512 pk ⟨bytes', ciphertext⟩ = true ∧
        ReadAlike Point 2 1 bytes bytes' := by
  refine ⟨fun params proof h => ?_, fun pubkey bytes h => ?_, fun pk ciphertext bytes h => ?_⟩
  · exact ⟨_, reencode_ne (verifyEquality_iff.1 h).1 (by decide), verifyEquality_reencode h⟩
  · exact ⟨_, reencode_ne (verifyPubkeyValidity_iff.1 h).1 (by decide),
      verifyPubkeyValidity_reencode h⟩
  · exact ⟨_, reencode_ne (verifyZeroBalance_iff.1 h).1 (by decide),
      verifyZeroBalance_reencode h⟩

/-! ### Samples in the group -/

open Cli.Coordinates (Coset)

theorem canonicalEncoding_coset : CanonicalEncoding Coset := by
  intro data c h
  replace h : Cli.Coordinates.cosetOf data = some c := h
  rw [Cli.Coordinates.cosetOf] at h
  split_ifs at h with hex
  rw [← Option.some.inj h]
  exact hex.choose_spec.symm

/-- A proof for a hash whose challenges are `2`. -/
theorem verifyPubkeyValidity_twoHash {pkPoint r : Point} {z : ℕ} (hz : IsScalar z)
    (haccepts : PubkeyValidityAccepts pkPoint r (2 : ℕ) z) :
    verifyPubkeyValidity Point Sample.twoHash
      ⟨[(encode r).toList, scalarToLE32 z].flatten, (encode pkPoint).toList⟩ = true := by
  have htwo : IsScalar 2 := ⟨two_pos, by decide +kernel⟩
  have hchallenge : 2 = pubkeyValidityChallenge Sample.twoHash pkPoint r :=
    (scalarFromUniform64_constantHash htwo.2 []).symm
  have hhonest : PubkeyValidityRun.Honest Sample.twoHash ⟨pkPoint, r, 2, z⟩ :=
    ⟨hchallenge, haccepts, htwo.2, hz.2⟩
  exact hhonest.verifies htwo.1.ne' hz.1.ne'

/-- The generator as a key, with the response `3`. -/
theorem verifyPubkeyValidity_base : verifyPubkeyValidity Point Sample.twoHash
    ⟨[(encode (base : Point)).toList, scalarToLE32 (3 : ℕ)].flatten,
      (encode (base : Point)).toList⟩ = true := by
  refine verifyPubkeyValidity_twoHash ⟨three_pos, by decide +kernel⟩ ?_
  show _ = _
  push_cast
  module

/-! ### Re-encoding -/

variable (sha512) in
/-- Two strings that a verifier accepts, and reads alike, are equal exactly if the same multiples of
the order are added to their responses. -/
theorem reencoding_iff (hcanonical : CanonicalEncoding Point) :
    (∀ params proof proof', verifyEquality Point sha512 params proof = true →
      verifyEquality Point sha512 params proof' = true →
      ReadAlike Point 4 3 proof.proofBytes proof'.proofBytes →
      (proof.proofBytes = proof'.proofBytes ↔
        SameMultiples 4 3 proof.proofBytes proof'.proofBytes)) ∧
    (∀ pubkey bytes bytes', verifyPubkeyValidity Point sha512 ⟨bytes, pubkey⟩ = true →
      verifyPubkeyValidity Point sha512 ⟨bytes', pubkey⟩ = true →
      ReadAlike Point 1 1 bytes bytes' → (bytes = bytes' ↔ SameMultiples 1 1 bytes bytes')) ∧
    ∀ pk ciphertext bytes bytes', verifyZeroBalance Point sha512 pk ⟨bytes, ciphertext⟩ = true →
      verifyZeroBalance Point sha512 pk ⟨bytes', ciphertext⟩ = true →
      ReadAlike Point 2 1 bytes bytes' → (bytes = bytes' ↔ SameMultiples 2 1 bytes bytes') := by
  refine ⟨fun params proof proof' h h' hread => ?_, fun pubkey bytes bytes' h h' hread => ?_,
    fun pk ciphertext bytes bytes' h h' hread => ?_⟩
  · exact hread.eq_iff hcanonical (verifyEquality_iff.1 h).1 (verifyEquality_iff.1 h').1
  · exact hread.eq_iff hcanonical (verifyPubkeyValidity_iff.1 h).1
      (verifyPubkeyValidity_iff.1 h').1
  · exact hread.eq_iff hcanonical (verifyZeroBalance_iff.1 h).1 (verifyZeroBalance_iff.1 h').1

theorem reencoding_iff_sample : ∃ pubkey bytes bytes' : List UInt8,
    verifyPubkeyValidity Coset Sample.twoHash ⟨bytes, pubkey⟩ = true ∧
      verifyPubkeyValidity Coset Sample.twoHash ⟨bytes', pubkey⟩ = true ∧
        ¬ SameMultiples 1 1 bytes bytes' := by
  have hbase : verifyPubkeyValidity Coset Sample.twoHash _ = true := verifyPubkeyValidity_base
  obtain ⟨bytes', hne, h, hread⟩ := (exists_reencoding Coset Sample.twoHash).2.1 _ _ hbase
  refine ⟨_, _, bytes', hbase, h, fun hsame => hne ?_⟩
  have hiff := (reencoding_iff Sample.twoHash canonicalEncoding_coset).2.1 _ _ bytes' hbase h hread
  exact (hiff.2 hsame).symm

/-- Two proofs for one key that are read alike. -/
theorem exists_two_encodings : CanonicalEncoding Coset ∧ ∃ bytes : List UInt8,
    let proofBytes := (encode (base : Coset)).toList ++ scalarToLE32 (3 : ℕ)
    let pubkey := (encode (base : Coset)).toList
    bytes ≠ proofBytes ∧ verifyPubkeyValidity Coset Sample.twoHash ⟨proofBytes, pubkey⟩ = true ∧
      verifyPubkeyValidity Coset Sample.twoHash ⟨bytes, pubkey⟩ = true ∧
        ReadAlike Coset 1 1 proofBytes bytes := by
  refine ⟨canonicalEncoding_coset, ?_⟩
  have hbase : verifyPubkeyValidity Coset Sample.twoHash
      ⟨(encode (base : Coset)).toList ++ scalarToLE32 (3 : ℕ), (encode (base : Coset)).toList⟩ =
        true := by
    have hflatten : verifyPubkeyValidity Coset Sample.twoHash _ = true := verifyPubkeyValidity_base
    simpa using hflatten
  obtain ⟨bytes, hne, h, hread⟩ := (exists_reencoding Coset Sample.twoHash).2.1 _ _ hbase
  exact ⟨bytes, hne, hbase, h, hread⟩

/-! ### The zero key -/

/-- Every point is a multiple of the base, of zero only if it is the identity. -/
theorem exists_smul_base_iff (p : Point) :
    (∃ x : ZMod curveOrder, x ≠ 0 ∧ p = x • base) ↔ p ≠ 0 := by
  constructor
  · rintro ⟨x, hx, rfl⟩
    rwa [ne_eq, smul_eq_zero_iff_left base_ne_zero]
  · intro hp
    obtain ⟨k, hk⟩ := exists_nsmul_eq base_ne_zero p
    have hcast : p = (k : ZMod curveOrder) • base := by rw [Nat.cast_smul_eq_nsmul, hk]
    refine ⟨k, ?_, hcast⟩
    rintro hzero
    rw [hzero, zero_smul] at hcast
    exact hp hcast

theorem pubkeyValidity_of_verify {proof : PubkeyValidityProof}
    (h : verifyPubkeyValidity Point sha512 proof = true) : ∃ (pkPoint r : Point) (c z : ℕ),
      pointFromBytes proof.pubkey = .ok pkPoint ∧
        pointFromBytes (slice proof.proofBytes 0 32) = .ok r ∧
          scalarFromLE32 (slice proof.proofBytes 32 64) = .ok z ∧
            IsScalar c ∧ PubkeyValidityAccepts pkPoint r c z := by
  obtain ⟨-, hcheck⟩ := verifyPubkeyValidity_iff.1 h
  simp only [checkPubkeyValidity, except_bind_eq_ok, pubkeyValidityEquations_eq_ok_true] at hcheck
  obtain ⟨pkPoint, hpk, r, hr, z, hz, ⟨hc, -⟩, haccepts⟩ := hcheck
  exact ⟨pkPoint, r, _, z, hpk, hr, hz, hc, haccepts⟩

variable (sha512) in
/-- The key of an accepted proof is a multiple of the base that is not zero, exactly if the
commitment in the proof is not the response times the base. -/
theorem pubkey_ne_zero_iff {proof : PubkeyValidityProof}
    (h : verifyPubkeyValidity Point sha512 proof = true) : ∃ (pkPoint r : Point) (z : ℕ),
      pointFromBytes proof.pubkey = .ok pkPoint ∧
        pointFromBytes (slice proof.proofBytes 0 32) = .ok r ∧
          scalarFromLE32 (slice proof.proofBytes 32 64) = .ok z ∧
            ((pkPoint ≠ 0 ∧ ∃ x : ZMod curveOrder, x ≠ 0 ∧ pkPoint = x • base) ↔
              r ≠ (z : ZMod curveOrder) • base) := by
  obtain ⟨pkPoint, r, c, z, hpk, hr, hz, hc, haccepts⟩ := pubkeyValidity_of_verify h
  refine ⟨pkPoint, r, z, hpk, hr, hz, ?_⟩
  rw [exists_smul_base_iff, and_self, haccepts, ne_eq, ne_eq, left_eq_add,
    smul_eq_zero_iff_right hc.cast_ne_zero]

theorem pubkey_ne_zero_iff_sample : ∃ pkPoint : Coset,
    pointFromBytes (encode (base : Coset)).toList = .ok pkPoint ∧ pkPoint ≠ 0 := by
  have hthree : IsScalar 3 := ⟨three_pos, by decide +kernel⟩
  have hbase : verifyPubkeyValidity Coset Sample.twoHash _ = true := verifyPubkeyValidity_base
  obtain ⟨pkPoint, r, z, hpk, hr, hz, hiff⟩ := pubkey_ne_zero_iff Sample.twoHash hbase
  have hparts : ∀ part ∈ [(encode (base : Coset)).toList, scalarToLE32 (3 : ℕ)],
      part.length = 32 := by
    simp [length_scalarToLE32]
  have h0 : slice [(encode (base : Coset)).toList, scalarToLE32 (3 : ℕ)].flatten 0 32 = _ :=
    slice_flatten hparts (i := 0) rfl
  have h1 : slice [(encode (base : Coset)).toList, scalarToLE32 (3 : ℕ)].flatten 32 64 = _ :=
    slice_flatten hparts (i := 1) rfl
  rw [h0, pointFromBytes_encode, Except.ok.injEq] at hr
  rw [h1, scalarFromLE32_scalarToLE32 hthree.2, Except.ok.injEq] at hz
  refine ⟨pkPoint, hpk, (hiff.2 ?_).1⟩
  rw [← hr, ← hz]
  intro h
  have hzero : ((3 : ℕ) - 1 : ZMod curveOrder) • (base : Coset) = 0 := by
    rw [sub_smul, one_smul, ← h, sub_self]
  rw [smul_eq_zero_iff_left base_ne_zero] at hzero
  exact absurd hzero (by decide +kernel)

/-- A proof for the key of the identity. -/
theorem verifyPubkeyValidity_zero :
    verifyPubkeyValidity Coset Sample.twoHash
        ⟨(encode (base : Coset)).toList ++ scalarToLE32 (1 : ℕ), (encode (0 : Coset)).toList⟩ =
          true ∧
      pointFromBytes (encode (0 : Coset)).toList = .ok (0 : Coset) := by
  have haccepts : PubkeyValidityAccepts (0 : Coset) base (2 : ℕ) (1 : ℕ) := by
    rw [PubkeyValidityAccepts, smul_zero, add_zero, Nat.cast_one, one_smul]
  refine ⟨?_, pointFromBytes_encode 0⟩
  simpa using verifyPubkeyValidity_twoHash isScalar_one haccepts

end Ghos.Sdk
