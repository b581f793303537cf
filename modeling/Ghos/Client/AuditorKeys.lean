import Ghos.Client.Commands
import Ghos.Client.Units
import Ghos.Lib.TextCodes

/-!
# Auditor keys as text

`_decode_auditor_pubkey` of `cli/ghos_cli/commands/audit.py` takes 64 hexadecimal digits, or Base58.
Only the second way ends in `PublicKey.from_bytes`, and what that raises is not an `AuditorError`.

* `decodeAuditorPubkey_hexText`, `decodeAuditorPubkey_base58Text`: the two forms of 32 bytes;
* `auditorKey_validated_iff`: they agree on the encodings of points and nowhere else.
-/

namespace Ghos

namespace Cli

variable {Point : Type} [Ristretto255 Point]

/-- `b.hex()`. -/
def hexText (b : List UInt8) : String := String.ofList (b.flatMap Sdk.hexByte)

def base58Text (b : List UInt8) : String := String.ofList (Base58.encode b)

variable (Point) in
/-- The bytes are accepted by `_ristretto_decode`. -/
def IsEncoding (data : List UInt8) : Prop := ∃ p : Point, ristrettoDecode data = .ok p

section Paths

variable (Point) (fromString : String → Option (Vector UInt8 32)) (b : Vector UInt8 32)

def BothAccept : Prop :=
  decodeAuditorPubkey Point fromString (hexText b.toList) = .ok b.toList ∧
    decodeAuditorPubkey Point fromString (base58Text b.toList) = .ok b.toList

def Rejects (value : String) : Prop :=
  ∃ message shown, decodeAuditorPubkey Point fromString value = .error (.auditorError message shown)

def BothReject : Prop :=
  Rejects Point fromString (hexText b.toList) ∧ Rejects Point fromString (base58Text b.toList)

end Paths

variable {fromString : String → Option (Vector UInt8 32)} {value : String} {data : List UInt8}

/-! ### The hexadecimal form -/

theorem strip_eq_self (h : ∀ c ∈ value.toList, isSpace c = false) : strip value = value := by
  apply String.toList_injective
  rw [toList_strip, Decimal.trim_eq_self h]

theorem hexValue_digitChar : ∀ v < 16, hexValue (Nat.digitChar v) = some v ∧
    isAsciiSpace (Nat.digitChar v) = false ∧ isSpace (Nat.digitChar v) = false := by
  decide

theorem fromHex_hexByte (data : List UInt8) : fromHex (data.flatMap Sdk.hexByte) = some data := by
  induction data with
  | nil => rfl
  | cons x data ih =>
    have hx := x.toNat_lt
    obtain ⟨hhigh, hspace, -⟩ := hexValue_digitChar (x.toNat / 16) (by omega)
    obtain ⟨hlow, -⟩ := hexValue_digitChar (x.toNat % 16) (by omega)
    have hvalue : 16 * (x.toNat / 16) + x.toNat % 16 = x.toNat := by omega
    rw [List.flatMap_cons, Sdk.hexByte_eq]
    simp only [List.cons_append, List.nil_append, fromHex, hspace, hhigh, hlow, ih,
      Bool.false_eq_true, if_false]
    show some (UInt8.ofNat (16 * (x.toNat / 16) + x.toNat % 16) :: data) = some (x :: data)
    rw [hvalue, UInt8.ofNat_toNat]

theorem length_hexText (data : List UInt8) : (hexText data).length = 2 * data.length := by
  have hlength : (data.flatMap Sdk.hexByte).length = data.length * 2 := by
    simp [List.length_flatMap, Sdk.hexByte_eq]
  rw [hexText, String.length_ofList, hlength, mul_comm]

theorem strip_hexText (data : List UInt8) : strip (hexText data) = hexText data := by
  refine strip_eq_self fun c hc => ?_
  rw [hexText, String.toList_ofList] at hc
  obtain ⟨x, -, hc⟩ := List.mem_flatMap.1 hc
  have hx := x.toNat_lt
  rw [Sdk.hexByte_eq] at hc
  rcases List.mem_pair.1 hc with rfl | rfl
  · exact (hexValue_digitChar _ (by omega)).2.2
  · exact (hexValue_digitChar _ (by omega)).2.2

/-- The hexadecimal form is accepted whatever the bytes are. -/
theorem decodeAuditorPubkey_hexText (b : Vector UInt8 32) :
    decodeAuditorPubkey Point fromString (hexText b.toList) = .ok b.toList := by
  have hlength : (hexText b.toList).length = 2 * auditorPubkeyLen := by
    rw [length_hexText, Vector.length_toList, auditorPubkeyLen]
  simp only [decodeAuditorPubkey, strip_hexText, if_pos hlength]
  rw [hexText, String.toList_ofList, fromHex_hexByte]

/-! ### The Base58 form -/

theorem strip_base58Text (data : List UInt8) : strip (base58Text data) = base58Text data := by
  have halphabet : (Base58.alphabet.all fun c => !isSpace c) = true := by decide
  refine strip_eq_self fun c hc => ?_
  rw [base58Text, String.toList_ofList] at hc
  have hspace := List.all_eq_true.1 halphabet c (Base58.mem_encode c hc)
  rwa [Bool.not_eq_true'] at hspace

theorem length_base58Text_le (b : Vector UInt8 32) : (base58Text b.toList).length ≤ 44 := by
  rw [base58Text, String.length_ofList]
  apply Base58.length_encode_le
  rw [Vector.length_toList]
  norm_num

theorem fromBytes_eq (data : List UInt8) : PublicKey.fromBytes Point data =
    if data.length = 32 then (ristrettoDecode data : Except Error Point).map fun _ => ⟨data⟩
    else .error (.cryptoError s!"PublicKey must be 32 bytes, got {data.length}") := by
  rw [PublicKey.fromBytes, throwUnless_bind]
  split_ifs
  · cases (ristrettoDecode data : Except Error Point) <;> rfl
  · rfl

/-- The Base58 form is accepted if the bytes are an encoding; another error is raised if not. -/
theorem decodeAuditorPubkey_base58Text {b : Vector UInt8 32}
    (hfrom : fromString (base58Text b.toList) = some b) :
    decodeAuditorPubkey Point fromString (base58Text b.toList) =
      match (ristrettoDecode b.toList : Except Error Point) with
      | .ok _ => .ok b.toList
      | .error e => .error (.crypto e) := by
  have hlength : ¬ (base58Text b.toList).length = 2 * auditorPubkeyLen := by
    have hle := length_base58Text_le b
    rw [auditorPubkeyLen]
    omega
  simp only [decodeAuditorPubkey, strip_base58Text, if_neg hlength, hfrom, fromBytes_eq,
    Vector.length_toList, if_true]
  cases (ristrettoDecode b.toList : Except Error Point) <;> rfl

/-! ### Both -/

/-- What is accepted as Base58 is an encoding; what is accepted as digits need not be one. -/
theorem decodeAuditorPubkey_ok (h : decodeAuditorPubkey Point fromString value = .ok data) :
    (strip value).length = 64 ∧ fromHex (strip value).toList = some data ∨
      (strip value).length ≠ 64 ∧ IsEncoding Point data := by
  have hlen : 2 * auditorPubkeyLen = 64 := rfl
  rw [decodeAuditorPubkey, hlen] at h
  by_cases hlength : (strip value).length = 64
  · refine .inl ⟨hlength, ?_⟩
    simp only [if_pos hlength] at h
    cases hhex : fromHex (strip value).toList with
    | none =>
      rw [hhex] at h
      cases h
    | some bytes =>
      rw [hhex] at h
      rw [Except.ok.inj h]
  · refine .inr ⟨hlength, ?_⟩
    simp only [if_neg hlength] at h
    cases hbytes : fromString (strip value) with
    | none =>
      rw [hbytes] at h
      cases h
    | some bytes =>
      rw [hbytes] at h
      simp only [fromBytes_eq, Vector.length_toList, if_true, except_bind_eq_ok, mapError_eq_ok,
        except_pure_eq_ok] at h
      obtain ⟨pk, hpk, rfl⟩ := h
      cases hdecode : (ristrettoDecode bytes.toList : Except Error Point) with
      | error e =>
        rw [hdecode] at hpk
        cases hpk
      | ok p =>
        rw [hdecode] at hpk
        obtain rfl := Except.ok.inj hpk
        exact ⟨p, hdecode⟩

/-- A key that was accepted is an encoding if, given as hexadecimal digits, it was one.  The two
forms of a byte string are treated alike if it is an encoding. -/
theorem auditorKey_validated_iff (fromString : String → Option (Vector UInt8 32))
    (hfrom : ∀ s b, fromString s = some b ↔ s = base58Text b.toList) :
    (∀ value data, decodeAuditorPubkey Point fromString value = .ok data →
      (IsEncoding Point data ↔ ((strip value).length = 64 →
        ∃ bytes, fromHex (strip value).toList = some bytes ∧ IsEncoding Point bytes))) ∧
    ∀ b : Vector UInt8 32, BothAccept Point fromString b ∨ BothReject Point fromString b ↔
      IsEncoding Point b.toList := by
  refine ⟨fun value data h => ?_, fun b => ?_⟩
  · rcases decodeAuditorPubkey_ok h with ⟨hlength, hok⟩ | ⟨hlength, hok⟩
    · constructor
      · intro hdata _
        exact ⟨data, hok, hdata⟩
      · intro hhex
        obtain ⟨bytes, hbytes, hencoding⟩ := hhex hlength
        rw [hok] at hbytes
        rwa [Option.some.inj hbytes]
    · exact iff_of_true hok fun h64 => absurd h64 hlength
  · have hbase58 : decodeAuditorPubkey Point fromString (base58Text b.toList) = _ :=
      decodeAuditorPubkey_base58Text ((hfrom _ b).2 rfl)
    constructor
    · rintro (⟨-, haccept⟩ | ⟨⟨message, shown, hreject⟩, -⟩)
      · rw [hbase58] at haccept
        cases hdecode : (ristrettoDecode b.toList : Except Error Point) with
        | ok p => exact ⟨p, hdecode⟩
        | error e =>
          rw [hdecode] at haccept
          cases haccept
      · rw [decodeAuditorPubkey_hexText] at hreject
        cases hreject
    · rintro ⟨p, hp⟩
      rw [hp] at hbase58
      exact .inl ⟨decodeAuditorPubkey_hexText b, hbase58⟩

/-- `Pubkey.from_string`, as far as Base58 goes. -/
def Sample.pubkeyOfText (s : String) : Option (Vector UInt8 32) := Base58.decode 32 s.toList

theorem Sample.pubkeyOfText_eq_some (s : String) (b : Vector UInt8 32) :
    Sample.pubkeyOfText s = some b ↔ s = base58Text b.toList := by
  rw [Sample.pubkeyOfText, Base58.decode_eq_some, base58Text, ← String.toList_inj,
    String.toList_ofList]

theorem auditorKey_validated_iff_sample :
    (BothAccept (ZMod curveOrder) Sample.pubkeyOfText (.replicate 32 0) ∨
        BothReject (ZMod curveOrder) Sample.pubkeyOfText (.replicate 32 0) ↔
      IsEncoding (ZMod curveOrder) (List.replicate 32 0)) ∧
    (IsEncoding (ZMod curveOrder) (List.replicate 32 0) ↔
      ((strip (hexText (List.replicate 32 0))).length = 64 → ∃ bytes,
        fromHex (strip (hexText (List.replicate 32 0))).toList = some bytes ∧
          IsEncoding (ZMod curveOrder) bytes)) := by
  obtain ⟨haccepted, hforms⟩ := @auditorKey_validated_iff (ZMod curveOrder) _
    Sample.pubkeyOfText Sample.pubkeyOfText_eq_some
  exact ⟨hforms (.replicate 32 0), haccepted _ _ (decodeAuditorPubkey_hexText (.replicate 32 0))⟩

/-- The bytes `ff`, which are no encoding: the digits are accepted, and Base58 ends in an error of
the cryptography. -/
theorem not_auditorKey_validated :
    decodeAuditorPubkey (ZMod curveOrder) Sample.pubkeyOfText (hexText (List.replicate 32 255)) =
        .ok (List.replicate 32 255) ∧
      ¬ IsEncoding (ZMod curveOrder) (List.replicate 32 255) ∧
      decodeAuditorPubkey (ZMod curveOrder) Sample.pubkeyOfText
          (base58Text (List.replicate 32 255)) =
        .error (.crypto (.cryptoError "invalid ristretto encoding: non-canonical s")) := by
  have hdecode : (ristrettoDecode (List.replicate 32 255) : Except Error (ZMod curveOrder)) =
      .error (.cryptoError "invalid ristretto encoding: non-canonical s") := by
    have hlarge : ¬ leNat (List.replicate 32 255) < fieldOrder := by decide +kernel
    simp only [ristrettoDecode, throwUnless_bind, List.length_replicate, if_true, if_neg hlarge]
  have htoList : (Vector.replicate 32 (255 : UInt8)).toList = List.replicate 32 255 :=
    Vector.toList_replicate
  have hhex : decodeAuditorPubkey (ZMod curveOrder) Sample.pubkeyOfText _ = _ :=
    decodeAuditorPubkey_hexText (.replicate 32 255)
  have hbase58 : decodeAuditorPubkey (ZMod curveOrder) Sample.pubkeyOfText
      (base58Text (Vector.replicate 32 (255 : UInt8)).toList) = _ :=
    decodeAuditorPubkey_base58Text ((Sample.pubkeyOfText_eq_some _ _).2 rfl)
  rw [htoList] at hhex hbase58
  rw [hdecode] at hbase58
  refine ⟨hhex, ?_, hbase58⟩
  rintro ⟨p, hp⟩
  rw [hdecode] at hp
  cases hp

end Cli

end Ghos
