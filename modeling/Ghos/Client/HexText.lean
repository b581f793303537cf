import Ghos.Client.ElGamal
import Ghos.Lib.JsText

/-!
# Hexadecimal text in the SDK

`hexEncode` and `hexDecode` of `sdk/src/utils.ts`.  The decoder reads two characters at a time with
`parseInt`, which takes what it finds at their beginning.

* `exists_decodeSlices_iff`: what is accepted;
* `decodesHex_iff`: this is hexadecimal text unless all slices can be read and not all are digits.
-/

namespace Ghos

namespace Sdk

open Js (digitValue forall_isDigit isDigit isDigit_ne isWhitespace map_cast_eq parseDigits
  parseDigits_isSome parseInt parseInt_of_no_sign skipMark)

/-- `SDK_ERROR_CODES.DecodingFailed`. -/
def decodingFailed : ℕ := 9007

/-- The character of a code unit.  Half of a surrogate pair becomes the null character, which, like
it, is neither a digit nor white space nor a sign. -/
def unitChar (u : UInt16) : Char := Char.ofNat u.toNat

/-- The code unit of a character of the basic plane. -/
def codeUnit (c : Char) : UInt16 := UInt16.ofNat c.toNat

/-- Hex-encode a `Uint8Array`. -/
def hexEncode (bytes : List UInt8) : List UInt16 := (bytes.flatMap hexByte).map codeUnit

/-- What follows an optional `0x`. -/
def hexBody (hex : List UInt16) : List UInt16 :=
  if hex.take 2 = [codeUnit '0', codeUnit 'x'] then hex.drop 2 else hex

/-- A leading zero makes the length even. -/
def evenBody (hex : List UInt16) : List UInt16 :=
  if (hexBody hex).length % 2 ≠ 0 then codeUnit '0' :: hexBody hex else hexBody hex

/-- The slices of two characters. -/
def slices : List Char → List (Char × Char)
  | a :: b :: rest => (a, b) :: slices rest
  | _ => []

/-- The bytes of the slices, from the `i`th on. -/
def decodeSlices : ℕ → List (Char × Char) → Except SdkError (List UInt8)
  | _, [] => .ok []
  | i, (a, b) :: rest =>
    match parseInt 16 [a, b] with
    | none => .error (.ghosSdkError decodingFailed s!"invalid hex byte at offset {i}")
    | some byte => do
      let out ← decodeSlices (i + 1) rest
      -- the array takes the number modulo 256
      return UInt8.ofInt byte :: out

/-- Hex-decode a string into a `Uint8Array`. -/
def hexDecode (hex : List UInt16) : Except SdkError (List UInt8) :=
  decodeSlices 0 (slices ((evenBody hex).map unitChar))

/-! ### One slice -/

/-- `parseInt` finds a digit in two characters. -/
def Readable (a b : Char) : Prop :=
  isDigit 16 a = true ∧ ¬ (a = '0' ∧ (b = 'x' ∨ b = 'X')) ∨
    (isWhitespace a = true ∨ a = '-' ∨ a = '+') ∧ isDigit 16 b = true

instance (a b : Char) : Decidable (Readable a b) :=
  inferInstanceAs (Decidable (_ ∧ ¬ _ ∨ _ ∧ _))

variable {a b c : Char}

/-- A digit of the encoding is the lower case of the digit that was read. -/
theorem exists_digitChar : ∀ c, isDigit 16 c = true →
    ∃ v < 16, digitValue c = some v ∧ Nat.digitChar v = c.toLower :=
  forall_isDigit (by decide)

theorem skipMark_singleton (c : Char) : skipMark 16 [c] = [c] := by
  unfold skipMark
  split
  · next h => cases h
  · next h => cases h
  · rfl

theorem skipMark_pair (h : ¬ (a = '0' ∧ (b = 'x' ∨ b = 'X'))) : skipMark 16 [a, b] = [a, b] := by
  unfold skipMark
  split
  · next hmark =>
    cases hmark
    exact absurd ⟨rfl, .inl rfl⟩ h
  · next hmark =>
    cases hmark
    exact absurd ⟨rfl, .inr rfl⟩ h
  · rfl

theorem parseInt_singleton (c : Char) : (parseInt 16 [c]).isSome = isDigit 16 c := by
  by_cases hspace : isWhitespace c = true
  · have hdigit : isDigit 16 c = false := by
      by_contra hdigit
      rw [Bool.not_eq_false] at hdigit
      simp [(isDigit_ne c hdigit).1] at hspace
    have hnone : parseInt 16 [c] = none := by
      rw [parseInt, List.dropWhile_cons_of_pos hspace]
      rfl
    rw [hnone, hdigit]
    rfl
  · rw [Bool.not_eq_true] at hspace
    by_cases hminus : c = '-'
    · subst hminus
      decide
    · by_cases hplus : c = '+'
      · subst hplus
        decide
      · rw [parseInt_of_no_sign hspace hminus hplus, Option.isSome_map, skipMark_singleton,
          parseDigits_isSome]
        rfl

/-- A sign or white space may stand before a digit, and a digit before anything but a mark. -/
theorem parseInt_isSome_iff : (parseInt 16 [a, b]).isSome = true ↔ Readable a b := by
  by_cases hfirst : isWhitespace a = true ∨ a = '-' ∨ a = '+'
  · have hdigit : isDigit 16 a = false := by
      by_contra hdigit
      rw [Bool.not_eq_false] at hdigit
      obtain ⟨hspace, hminus, hplus, -⟩ := isDigit_ne a hdigit
      simp [hspace, hminus, hplus] at hfirst
    have hread : (parseInt 16 [a, b]).isSome = isDigit 16 b := by
      rcases hfirst with hspace | rfl | rfl
      · rw [← parseInt_singleton b]
        simp [parseInt, hspace]
      · have hrest : parseInt 16 ['-', b] =
            Option.map (fun n : ℕ => -(n : ℤ)) (parseDigits 16 (skipMark 16 [b])) :=
          map_cast_eq _ _
        rw [hrest, Option.isSome_map, skipMark_singleton, parseDigits_isSome]
        rfl
      · have hrest : parseInt 16 ['+', b] =
            Option.map (fun n : ℕ => (n : ℤ)) (parseDigits 16 (skipMark 16 [b])) :=
          map_cast_eq _ _
        rw [hrest, Option.isSome_map, skipMark_singleton, parseDigits_isSome]
        rfl
    simp [hread, Readable, hdigit, hfirst]
  · have hsome := hfirst
    simp only [not_or, Bool.not_eq_true] at hsome
    obtain ⟨hspace, hminus, hplus⟩ := hsome
    rw [parseInt_of_no_sign hspace hminus hplus, Option.isSome_map, parseDigits_isSome, Readable]
    simp only [hfirst, false_and, or_false]
    by_cases hmark : a = '0' ∧ (b = 'x' ∨ b = 'X')
    · obtain ⟨rfl, rfl | rfl⟩ := hmark <;> decide
    · rw [skipMark_pair hmark]
      simp [hmark]

/-- Two digits are read as a byte. -/
theorem parseInt_digits (ha : isDigit 16 a = true) (hb : isDigit 16 b = true) :
    ∃ byte : UInt8, parseInt 16 [a, b] = some (byte.toNat : ℤ) ∧
      hexByte byte = [a.toLower, b.toLower] := by
  obtain ⟨v, hv, hav, hlow⟩ := exists_digitChar a ha
  obtain ⟨w, hw, hbw, hblow⟩ := exists_digitChar b hb
  obtain ⟨hspace, hminus, hplus, -⟩ := isDigit_ne a ha
  obtain ⟨-, -, -, hx, hX⟩ := isDigit_ne b hb
  have hbyte : (UInt8.ofNat (16 * v + w)).toNat = 16 * v + w := by
    rw [UInt8.toNat_ofNat', Nat.mod_eq_of_lt (by omega)]
  refine ⟨UInt8.ofNat (16 * v + w), ?_, ?_⟩
  · rw [parseInt_of_no_sign hspace hminus hplus, skipMark_pair fun h => by simp [hx, hX] at h,
      hbyte]
    simp [parseDigits, ha, hb, hav, hbw]
  · rw [hexByte_eq, hbyte, ← hlow, ← hblow]
    have hdiv : (16 * v + w) / 16 = v := by omega
    have hmod : (16 * v + w) % 16 = w := by omega
    rw [hdiv, hmod]

/-! ### All slices -/

variable {text : List Char} {pairs : List (Char × Char)} {i : ℕ}

/-- The text is accepted if every slice can be read. -/
theorem exists_decodeSlices_iff :
    (∃ out, decodeSlices i pairs = .ok out) ↔ ∀ p ∈ pairs, Readable p.1 p.2 := by
  induction pairs generalizing i with
  | nil => simp [decodeSlices]
  | cons p pairs ih =>
    obtain ⟨a, b⟩ := p
    rw [List.forall_mem_cons, ← ih (i := i + 1), ← parseInt_isSome_iff, decodeSlices]
    cases parseInt 16 [a, b] with
    | none => simp
    | some byte =>
      constructor
      · rintro ⟨out, h⟩
        obtain ⟨out', hout, -⟩ := except_bind_eq_ok.1 h
        exact ⟨rfl, out', hout⟩
      · rintro ⟨-, out, hout⟩
        exact ⟨_, except_bind_eq_ok.2 ⟨out, hout, rfl⟩⟩

theorem ofInt_toNat (byte : UInt8) : UInt8.ofInt (byte.toNat : ℤ) = byte := by
  have hlt := byte.toNat_lt
  have hmod : ((byte.toNat : ℤ) % 2 ^ 8).toNat = byte.toNat := by omega
  rw [UInt8.ofInt, hmod, UInt8.ofNat_toNat]

/-- Digits are decoded, and encoded again in lower case. -/
theorem exists_decodeSlices_digits
    (h : ∀ p ∈ pairs, isDigit 16 p.1 = true ∧ isDigit 16 p.2 = true) :
    ∃ out, decodeSlices i pairs = .ok out ∧
      out.flatMap hexByte = pairs.flatMap fun p => [p.1.toLower, p.2.toLower] := by
  induction pairs generalizing i with
  | nil => exact ⟨[], rfl, rfl⟩
  | cons p pairs ih =>
    obtain ⟨a, b⟩ := p
    obtain ⟨⟨ha, hb⟩, hrest⟩ := List.forall_mem_cons.1 h
    obtain ⟨byte, hbyte, hencode⟩ := parseInt_digits ha hb
    obtain ⟨out, hout, hlower⟩ := ih (i := i + 1) hrest
    refine ⟨byte :: out, ?_, ?_⟩
    · rw [decodeSlices, hbyte]
      refine except_bind_eq_ok.2 ⟨out, hout, ?_⟩
      rw [ofInt_toNat]
      rfl
    · rw [List.flatMap_cons, List.flatMap_cons, hencode, hlower]

theorem flatMap_slices (f : Char → Char) (heven : text.length % 2 = 0) :
    (slices text).flatMap (fun p => [f p.1, f p.2]) = text.map f := by
  induction text using slices.induct with
  | case1 a b rest ih =>
    rw [List.length_cons, List.length_cons] at heven
    simp only [slices, List.flatMap_cons, ih (by omega)]
    rfl
  | case2 text hshort =>
    cases text with
    | nil => rfl
    | cons a rest =>
      cases rest with
      | nil => simp at heven
      | cons b rest => exact absurd rfl (hshort a b rest)

/-! ### The two functions -/

theorem unitChar_codeUnit {c : Char} (h : c.toNat < 2 ^ 16) : unitChar (codeUnit c) = c := by
  rw [unitChar, codeUnit, UInt16.toNat_ofNat', Nat.mod_eq_of_lt h, Char.ofNat_toNat]

/-- The digits of the encoding. -/
theorem digitChar_spec : ∀ v < 16, isDigit 16 (Nat.digitChar v) = true ∧
    (Nat.digitChar v).toLower = Nat.digitChar v ∧ (Nat.digitChar v).toNat < 2 ^ 16 ∧
      codeUnit (Nat.digitChar v) ≠ codeUnit 'x' := by
  decide

/-- A byte is decoded from its two digits. -/
theorem decodeSlices_hexByte (bytes : List UInt8) :
    decodeSlices i (slices (bytes.flatMap hexByte)) = .ok bytes := by
  induction bytes generalizing i with
  | nil => rfl
  | cons byte bytes ih =>
    have hlt := byte.toNat_lt
    obtain ⟨hhigh, hhighLower, -⟩ := digitChar_spec (byte.toNat / 16) (by omega)
    obtain ⟨hlow, hlowLower, -⟩ := digitChar_spec (byte.toNat % 16) (by omega)
    obtain ⟨byte', hread, hencode⟩ := parseInt_digits hhigh hlow
    rw [hhighLower, hlowLower, ← hexByte_eq] at hencode
    obtain rfl := hexByte_injective hencode
    rw [List.flatMap_cons, hexByte_eq]
    simp only [List.cons_append, List.nil_append, slices, decodeSlices, hread]
    refine except_bind_eq_ok.2 ⟨bytes, ih, ?_⟩
    rw [ofInt_toNat]
    rfl

theorem evenBody_hexEncode (bytes : List UInt8) :
    (evenBody (hexEncode bytes)).map unitChar = bytes.flatMap hexByte := by
  have hbody : hexBody (hexEncode bytes) = hexEncode bytes := by
    cases bytes with
    | nil => rfl
    | cons byte bytes =>
      have hx := (digitChar_spec (byte.toNat % 16) (by omega)).2.2.2
      rw [hexBody, if_neg]
      simp only [hexEncode, List.flatMap_cons, hexByte_eq]
      simp [hx]
  have hlength : (hexEncode bytes).length % 2 = 0 := by
    have htwice : (hexEncode bytes).length = bytes.length * 2 := by
      simp [hexEncode, List.length_flatMap, hexByte_eq]
    omega
  have hdigits : ∀ c ∈ bytes.flatMap hexByte, unitChar (codeUnit c) = c := by
    intro c hc
    obtain ⟨byte, -, hc⟩ := List.mem_flatMap.1 hc
    have hlt := byte.toNat_lt
    rw [hexByte_eq] at hc
    rcases List.mem_pair.1 hc with rfl | rfl
    · exact unitChar_codeUnit (digitChar_spec _ (by omega)).2.2.1
    · exact unitChar_codeUnit (digitChar_spec _ (by omega)).2.2.1
  rw [evenBody, hbody, if_neg (not_not.2 hlength), hexEncode, List.map_map]
  exact (List.map_congr_left hdigits).trans (List.map_id _)

theorem length_evenBody (hex : List UInt16) : (evenBody hex).length % 2 = 0 := by
  unfold evenBody
  split_ifs with hodd
  · rw [List.length_cons]
    omega
  · omega

/-- The lower case of a code unit. -/
def lowerUnit (u : UInt16) : UInt16 := codeUnit (unitChar u).toLower

/-- The string consists of hexadecimal digits, after an optional `0x`. -/
def IsHex (hex : List UInt16) : Prop := ∀ u ∈ hexBody hex, isDigit 16 (unitChar u) = true

/-- What `hexDecode` should do with a string. -/
structure DecodesHex (hex : List UInt16) : Prop where
  returns_iff : (∃ out, hexDecode hex = .ok out) ↔ IsHex hex
  encode_eq : ∀ out, hexDecode hex = .ok out → hexEncode out = (evenBody hex).map lowerUnit

theorem isHex_iff {hex : List UInt16} :
    IsHex hex ↔ ∀ p ∈ slices ((evenBody hex).map unitChar),
      isDigit 16 p.1 = true ∧ isDigit 16 p.2 = true := by
  have hall : IsHex hex ↔ ∀ c ∈ (evenBody hex).map unitChar, isDigit 16 c = true := by
    rw [List.forall_mem_map, evenBody, IsHex]
    split_ifs
    · rw [List.forall_mem_cons]
      exact (and_iff_right (by decide)).symm
    · rfl
  have hflat : (slices ((evenBody hex).map unitChar)).flatMap (fun p => [p.1, p.2]) =
      (evenBody hex).map unitChar := by
    have heven : ((evenBody hex).map unitChar).length % 2 = 0 := by
      rw [List.length_map, length_evenBody]
    exact (flatMap_slices id heven).trans (List.map_id _)
  rw [hall]
  nth_rewrite 1 [← hflat]
  simp only [List.mem_flatMap, List.mem_pair]
  constructor
  · intro h p hp
    exact ⟨h _ ⟨p, hp, .inl rfl⟩, h _ ⟨p, hp, .inr rfl⟩⟩
  · rintro h c ⟨p, hp, rfl | rfl⟩
    · exact (h p hp).1
    · exact (h p hp).2

/-- Encoded bytes are decoded.  A string is decoded as it should be if it consists of digits, or if
a slice of it cannot be read. -/
theorem hexDecode_iff (bytes : List UInt8) (hex : List UInt16) :
    hexDecode (hexEncode bytes) = .ok bytes ∧
      (DecodesHex hex ↔
        IsHex hex ∨ ∃ p ∈ slices ((evenBody hex).map unitChar), ¬ Readable p.1 p.2) := by
  refine ⟨?_, ?_⟩
  · rw [hexDecode, evenBody_hexEncode, decodeSlices_hexByte]
  · constructor
    · intro h
      by_contra hneither
      rw [not_or, not_exists] at hneither
      obtain ⟨hnot, hread⟩ := hneither
      refine hnot (h.returns_iff.1 (exists_decodeSlices_iff.2 fun p hp => ?_))
      by_contra hp'
      exact hread p ⟨hp, hp'⟩
    · rintro (hhex | ⟨p, hp, hunreadable⟩)
      · obtain ⟨out, hout, hlower⟩ := exists_decodeSlices_digits (i := 0) (isHex_iff.1 hhex)
        refine ⟨iff_of_true ⟨out, hout⟩ hhex, fun out' hout' => ?_⟩
        rw [hexDecode, hout] at hout'
        obtain rfl := Except.ok.inj hout'
        rw [hexEncode, hlower, flatMap_slices _ (by rw [List.length_map, length_evenBody]),
          List.map_map, List.map_map]
        rfl
      · have hthrows : ¬ ∃ out, hexDecode hex = .ok out := fun hout =>
          hunreadable (exists_decodeSlices_iff.1 hout p hp)
        refine ⟨iff_of_false hthrows fun hhex => ?_, fun out hout => absurd ⟨out, hout⟩ hthrows⟩
        obtain ⟨out, hout, -⟩ := exists_decodeSlices_digits (i := 0) (isHex_iff.1 hhex)
        exact hthrows ⟨out, hout⟩

/-- The slice `1g` can be read, although `g` is not a digit. -/
theorem not_decodesHex_1g :
    hexDecode ("1g".toList.map codeUnit) = .ok [1] ∧
      ¬ DecodesHex ("1g".toList.map codeUnit) := by
  have hdecode : hexDecode ("1g".toList.map codeUnit) = .ok [1] := by decide
  refine ⟨hdecode, fun h => ?_⟩
  have hhex := h.returns_iff.1 ⟨_, hdecode⟩ (codeUnit 'g') (by decide)
  exact absurd hhex (by decide)

end Sdk

end Ghos
