import Ghos.Lib.Cursor
import Ghos.Client.ConfigCodec
import Mathlib.Data.List.TakeWhile

/-!
# The event decoder of the SDK

`decodeEvent` of `sdk/src/watcher.ts` walks through the fields that the IDL lists for an event.  At
the end of the payload it goes on reading: numbers from zeros, arrays and keys from what is left.

* `decodesStrictly_iff`: so a payload that is too short is decoded all the same, and into something
  that the payload does not say.
-/

namespace Ghos

namespace Sdk

/-! ### The IDL -/

/-- The type of a field. -/
inductive IdlType
  | publicKey
  | u64
  | i64
  | u16
  | u8
  | bool
  | array (inner : String) (len : ℕ)
  deriving DecidableEq

structure IdlEvent where
  name : String
  discriminator : List UInt8
  fields : List (String × IdlType)

/-- The events of `sdk/src/idl/ghos.json`. -/
def idlEvents : List IdlEvent :=
  [
    { name := "ConfigInitialized"
      discriminator := [80, 161, 12, 187, 94, 112, 50, 71]
      fields := [("admin", .publicKey), ("version", .u16), ("timestamp", .i64)] },
    { name := "ConfigUpdated"
      discriminator := [249, 72, 198, 114, 55, 129, 29, 31]
      fields := [("admin", .publicKey), ("field", .u8), ("timestamp", .i64)] },
    { name := "ShieldExecuted"
      discriminator := [199, 4, 103, 55, 122, 190, 1, 222]
      fields := [("owner", .publicKey), ("mint", .publicKey), ("sourceAta", .publicKey),
        ("amountLamports", .u64), ("timestamp", .i64)] },
    { name := "ConfidentialTransferSubmitted"
      discriminator := [141, 29, 192, 67, 8, 145, 107, 13]
      fields := [("sourceOwner", .publicKey), ("destinationOwner", .publicKey),
        ("mint", .publicKey), ("proofContext", .publicKey), ("timestamp", .i64)] },
    { name := "PendingApplied"
      discriminator := [20, 117, 201, 42, 93, 3, 155, 216]
      fields := [("owner", .publicKey), ("mint", .publicKey), ("appliedCounter", .u64),
        ("timestamp", .i64)] },
    { name := "WithdrawExecuted"
      discriminator := [184, 44, 72, 182, 231, 10, 199, 3]
      fields := [("owner", .publicKey), ("mint", .publicKey), ("destinationAta", .publicKey),
        ("amount", .u64), ("auditorCosigned", .bool), ("timestamp", .i64)] },
    { name := "BurnerCreated"
      discriminator := [16, 204, 87, 242, 33, 118, 74, 199]
      fields := [("owner", .publicKey), ("burner", .publicKey), ("ttlSeconds", .i64),
        ("expiresAt", .i64)] },
    { name := "BurnerDestroyed"
      discriminator := [171, 43, 4, 80, 178, 201, 63, 42]
      fields := [("owner", .publicKey), ("burner", .publicKey), ("revokedAt", .i64)] },
    { name := "AuditorRegistered"
      discriminator := [211, 91, 104, 55, 232, 3, 144, 17]
      fields := [("mint", .publicKey), ("auditorPubkey", .array "u8" 32), ("admin", .publicKey),
        ("timestamp", .i64)] },
    { name := "AuditorRotated"
      discriminator := [142, 52, 0, 198, 242, 67, 198, 79]
      fields := [("mint", .publicKey), ("oldPubkey", .array "u8" 32),
        ("newPubkey", .array "u8" 32), ("timestamp", .i64)] },
    { name := "MixRoundOpened"
      discriminator := [36, 218, 92, 12, 44, 201, 130, 49]
      fields := [("round", .publicKey), ("mint", .publicKey), ("denomination", .u64),
        ("capacity", .u8), ("openedAt", .i64)] },
    { name := "MixCommitted"
      discriminator := [120, 90, 100, 82, 177, 34, 58, 6]
      fields := [("round", .publicKey), ("participant", .publicKey),
        ("commitment", .array "u8" 32), ("index", .u8)] },
    { name := "MixRevealed"
      discriminator := [221, 78, 22, 103, 99, 201, 19, 146]
      fields := [("round", .publicKey), ("participant", .publicKey), ("index", .u8)] },
    { name := "MixSettled"
      discriminator := [203, 112, 7, 210, 9, 149, 88, 200]
      fields := [("round", .publicKey), ("participants", .u8), ("settledAt", .i64)] }]

/-- The value of a field in JavaScript. -/
inductive JsValue
  | publicKey (bytes : Vector UInt8 32)
  | bigint (v : ℤ)
  | number (v : ℕ)
  | boolean (b : Bool)
  | uint8Array (bytes : List UInt8)
  deriving DecidableEq

/-- `EVENT_FIELDS[name]`. -/
def eventFields (name : String) : Option (List (String × IdlType)) :=
  (idlEvents.find? (·.name = name)).map (·.fields)

/-- What every object inherits; none of it can be iterated over. -/
def inheritedNames : List String :=
  ["constructor", "__proto__", "__defineGetter__", "__defineSetter__", "__lookupGetter__",
    "__lookupSetter__", "hasOwnProperty", "isPrototypeOf", "propertyIsEnumerable", "toLocaleString",
    "toString", "valueOf"]

/-- The name of the event whose discriminator leads the payload. -/
def matchEventDiscriminator (payload : List UInt8) : Option String :=
  if payload.length < 8 then none
  else (idlEvents.find? (·.discriminator = payload.take 8)).map (·.name)

/-! ### The encoding of a record -/

/-- How many bytes a field takes. -/
def IdlType.size : IdlType → ℕ
  | .publicKey => 32
  | .u64 => 8
  | .i64 => 8
  | .u16 => 2
  | .u8 => 1
  | .bool => 1
  | .array _ len => len

/-- The decoder reads fields of the type. -/
def IdlType.Supported : IdlType → Prop
  | .bool => False
  | .array inner _ => inner = "u8"
  | _ => True

/-- How many bytes an event takes. -/
def encodedLength (fields : List (String × IdlType)) : ℕ := (fields.map (·.2.size)).sum

/-- The Borsh encoding of a value of the type. -/
inductive Encodes : IdlType → JsValue → List UInt8 → Prop
  | publicKey (k : Vector UInt8 32) : Encodes .publicKey (.publicKey k) k.toList
  | u64 (v : UInt64) : Encodes .u64 (.bigint v.toNat) v.toLeBytes
  | i64 (v : Int64) : Encodes .i64 (.bigint v.toInt) v.toLeBytes
  | u16 (v : UInt16) : Encodes .u16 (.number v.toNat) (leBytes 2 v.toNat)
  | u8 (v : UInt8) : Encodes .u8 (.number v.toNat) [v]
  | bool (b : Bool) : Encodes .bool (.boolean b) [b.toUInt8]
  | array {len : ℕ} (b : Vector UInt8 len) :
    Encodes (.array "u8" len) (.uint8Array b.toList) b.toList

/-- The Borsh encoding of a record by the list of its fields. -/
inductive EncodesFields :
    List (String × IdlType) → List (String × JsValue) → List UInt8 → Prop
  | nil : EncodesFields [] [] []
  | cons {name type value b fields entries rest} (head : Encodes type value b)
    (tail : EncodesFields fields entries rest) :
    EncodesFields ((name, type) :: fields) ((name, value) :: entries) (b ++ rest)

variable {type : IdlType} {value : JsValue} {p : List UInt8} {fields : List (String × IdlType)}
  {entries : List (String × JsValue)}

theorem Encodes.length (h : Encodes type value p) : p.length = type.size := by
  cases h with
  | publicKey => exact Vector.length_toList
  | u64 v => exact v.length_toLeBytes
  | i64 v => exact v.length_toLeBytes
  | u16 => exact length_leBytes 2 _
  | u8 => rfl
  | bool => rfl
  | array => exact Vector.length_toList

theorem EncodesFields.length (h : EncodesFields fields entries p) :
    p.length = encodedLength fields := by
  induction h with
  | nil => rfl
  | cons head tail ih =>
    rw [List.length_append, head.length, ih]
    rfl

/-- Every byte string of the right length encodes a value. -/
theorem exists_encodes (htype : type.Supported) (hp : p.length = type.size) :
    ∃ value, Encodes type value p := by
  cases type with
  | publicKey => exact ⟨_, .publicKey ⟨p.toArray, hp⟩⟩
  | u64 =>
    rw [(UInt64.ofNat_leNat_eq_iff hp).1 rfl]
    exact ⟨_, .u64 _⟩
  | i64 =>
    rw [(Int64.ofNat_leNat_eq_iff hp).1 rfl]
    exact ⟨_, .i64 _⟩
  | u16 =>
    have hlt : leNat p < 2 ^ 16 := (leNat_lt p).trans_eq (by rw [hp]; rfl)
    have hvalue : leBytes 2 (UInt16.ofNat (leNat p)).toNat = p := by
      rw [UInt16.toNat_ofNat', Nat.mod_eq_of_lt hlt]
      exact leBytes_leNat hp
    rw [← hvalue]
    exact ⟨_, .u16 _⟩
  | u8 =>
    obtain ⟨b, rfl⟩ := List.length_eq_one_iff.1 hp
    exact ⟨_, .u8 b⟩
  | bool => cases htype
  | array inner len =>
    cases htype
    exact ⟨_, .array ⟨p.toArray, hp⟩⟩

theorem exists_encodesFields (hfields : ∀ f ∈ fields, f.2.Supported)
    (hp : p.length = encodedLength fields) : ∃ entries, EncodesFields fields entries p := by
  induction fields generalizing p with
  | nil =>
    rw [List.eq_nil_of_length_eq_zero hp]
    exact ⟨[], .nil⟩
  | cons f fields ih =>
    obtain ⟨name, type⟩ := f
    have hsum : p.length = type.size + encodedLength fields := hp
    have htype : type.Supported := hfields (name, type) List.mem_cons_self
    obtain ⟨value, hvalue⟩ := exists_encodes (p := p.take type.size) htype
      (by rw [List.length_take]; omega)
    obtain ⟨entries, hentries⟩ := ih (p := p.drop type.size)
      (fun f hf => hfields f (List.mem_cons_of_mem _ hf)) (by rw [List.length_drop]; omega)
    rw [← List.take_append_drop type.size p]
    exact ⟨_, .cons hvalue hentries⟩

/-! ### The decoder -/

section Decoder

/-- Thirty-two bytes that end with the given ones. -/
def leftPad (b : List UInt8) (h : b.length ≤ 32) : Vector UInt8 32 :=
  ⟨(List.replicate (32 - b.length) 0 ++ b).toArray, by simp; omega⟩

/-- `new PublicKey(bytes)` of `@solana/web3.js`, which reads the bytes as one number. -/
class Web3 where
  newPublicKey : List UInt8 → Except SdkError (Vector UInt8 32)
  newPublicKey_of_le (b : List UInt8) (h : b.length ≤ 32) : newPublicKey b = .ok (leftPad b h)

theorem leftPad_eq {b : List UInt8} {k : Vector UInt8 32} (h : b.length ≤ 32) (hb : b = k.toList) :
    leftPad b h = k := by
  subst hb
  exact Vector.toList_inj.1 (by simp [leftPad])

theorem leftPad_dropWhile {b : List UInt8} (h : b.length ≤ 32)
    (h' : (b.dropWhile (· = 0)).length ≤ 32) : leftPad (b.dropWhile (· = 0)) h' = leftPad b h := by
  have hzeros : b.takeWhile (· = 0) = List.replicate (b.takeWhile (· = 0)).length 0 := by
    refine List.eq_replicate_iff.2 ⟨rfl, fun x hx => ?_⟩
    simpa using List.mem_takeWhile_imp hx
  have hsplit := List.takeWhile_append_dropWhile (p := (· = 0)) (l := b)
  have hlen := congrArg List.length hsplit
  rw [List.length_append] at hlen
  apply Vector.toList_inj.1
  simp only [leftPad, Vector.toList_mk]
  calc List.replicate (32 - (b.dropWhile (· = 0)).length) 0 ++ b.dropWhile (· = 0)
      = List.replicate (32 - b.length) 0 ++ (b.takeWhile (· = 0) ++ b.dropWhile (· = 0)) := by
        rw [hzeros, ← List.append_assoc, List.replicate_append_replicate]
        congr 2
        omega
    _ = List.replicate (32 - b.length) 0 ++ b := by rw [hsplit]

/-- The number must have 32 bytes at most. -/
instance : Web3 where
  newPublicKey b :=
    if h : (b.dropWhile (· = 0)).length ≤ 32 then .ok (leftPad _ h)
    else .error (.error "Invalid public key input")
  newPublicKey_of_le b h := by
    have h' : (b.dropWhile (· = 0)).length ≤ 32 := (List.dropWhile_sublist _).length_le.trans h
    rw [dif_pos h', leftPad_dropWhile h h']

variable [Web3]

def decodeField : IdlType → Cursor SdkError JsValue
  | .publicKey => do
    let slice ← .window 32
    let key ← Web3.newPublicKey slice
    return .publicKey key
  | .u64 => do
    let b ← .padded 8
    return .bigint (leNat b)
  | .i64 => do
    let b ← .padded 8
    return .bigint (leInt b)
  | .u16 => do
    let b ← .padded 2
    return .number (leNat b)
  | .u8 => do
    let b ← .padded 1
    return .number (leNat b)
  | .array inner len =>
    if inner = "u8" then do
      let b ← .window len
      return .uint8Array b
    else throw (.error s!"unsupported array inner type {inner}")
  | .bool => throw (.error "unsupported event field type: \"bool\"")

/-- The entries of the record, in order. -/
def decodeFields : List (String × IdlType) → Cursor SdkError (List (String × JsValue))
  | [] => return []
  | (name, type) :: fields => do
    let value ← decodeField type
    let entries ← decodeFields fields
    return (name, value) :: entries

/-- Decode a full event payload. -/
def decodeEvent (name : String) (payload : List UInt8) :
    Except SdkError (List (String × JsValue)) :=
  match eventFields name with
  | some fields => ((decodeFields fields).run payload).run' 0
  | none =>
    if name ∈ inheritedNames then .error (.error "fields is not iterable")
    else .error (.error s!"unknown event: {name}")

/-! ### What the decoder reads -/

open Cursor

variable {payload : List UInt8} {name : String}

/-- A key is read wherever the cursor stands. -/
theorem decodeField_publicKey (data : List UInt8) (c : ℕ)
    (h : ((data.drop c).take 32).length ≤ 32) :
    ((decodeField .publicKey).run data).run c =
      .ok (.publicKey (leftPad ((data.drop c).take 32) h), c + 32) := by
  have hwindow : ((window 32 : Cursor SdkError _).run data).run c =
    .ok ((data.drop c).take 32, c + 32) := rfl
  have hkey := Web3.newPublicKey_of_le _ h
  simp only [decodeField, ReaderT.run_bind, StateT.run_bind, hwindow]
  simp only [bind, Except.bind, hkey, ReaderT.run_monadLift]
  rfl

/-- The decoder undoes the encoding of a supported field. -/
theorem yields_decodeField (htype : type.Supported) (h : Encodes type value p) :
    Yields (decodeField type) p value := by
  cases h with
  | publicKey k =>
    intro data c rest h
    have hslice : (data.drop c).take 32 = k.toList := by rw [h, List.take_left' k.length_toList]
    have hlen : ((data.drop c).take 32).length ≤ 32 := List.length_take_le 32 _
    rw [decodeField_publicKey data c hlen, leftPad_eq hlen hslice, k.length_toList]
  | u64 v =>
    have hread : Yields (decodeField .u64) v.toLeBytes (.bigint (leNat v.toLeBytes)) :=
      (yields_padded v.length_toLeBytes).bind_pure fun b => JsValue.bigint (leNat b)
    rwa [v.leNat_toLeBytes] at hread
  | i64 v =>
    have hread : Yields (decodeField .i64) v.toLeBytes (.bigint (leInt v.toLeBytes)) :=
      (yields_padded v.length_toLeBytes).bind_pure fun b => JsValue.bigint (leInt b)
    rwa [v.leInt_toLeBytes] at hread
  | u16 v =>
    have hv : leNat (leBytes 2 v.toNat) = v.toNat := leNat_leBytes_of_lt v.toNat_lt
    have hread : Yields (decodeField .u16) (leBytes 2 v.toNat)
        (.number (leNat (leBytes 2 v.toNat))) :=
      (yields_padded (length_leBytes 2 _)).bind_pure fun b => JsValue.number (leNat b)
    rwa [hv] at hread
  | u8 v =>
    have hread : Yields (decodeField .u8) [v] (.number (leNat [v])) :=
      (yields_padded rfl).bind_pure fun b => JsValue.number (leNat b)
    rwa [leNat_singleton] at hread
  | bool => cases htype
  | array b => exact (yields_window b.length_toList).bind_pure JsValue.uint8Array

theorem yields_decodeFields (hfields : ∀ f ∈ fields, f.2.Supported)
    (h : EncodesFields fields entries p) : Yields (decodeFields fields) p entries := by
  induction h with
  | nil => exact yields_pure []
  | cons head tail ih =>
    rw [List.forall_mem_cons] at hfields
    exact (yields_decodeField hfields.1 head).bind ((ih hfields.2).bind_pure _)

/-- A supported field is read wherever the cursor stands. -/
theorem exists_decodeField (h : type.Supported) (data : List UInt8) (c : ℕ) :
    ∃ value, ((decodeField type).run data).run c = .ok (value, c + type.size) := by
  cases type with
  | publicKey => exact ⟨_, decodeField_publicKey data c (List.length_take_le 32 _)⟩
  | u64 => exact ⟨_, rfl⟩
  | i64 => exact ⟨_, rfl⟩
  | u16 => exact ⟨_, rfl⟩
  | u8 => exact ⟨_, rfl⟩
  | bool => cases h
  | array inner len =>
    cases h
    exact ⟨_, rfl⟩

/-- Any other field throws. -/
theorem decodeField_throws (h : ¬ type.Supported) (data : List UInt8) (c : ℕ) :
    ∃ e, ((decodeField type).run data).run c = .error e := by
  cases type with
  | bool => exact ⟨_, rfl⟩
  | array inner len =>
    have hinner : ¬ inner = "u8" := h
    rw [decodeField, if_neg hinner]
    exact ⟨_, rfl⟩
  | publicKey => exact absurd trivial h
  | u64 => exact absurd trivial h
  | i64 => exact absurd trivial h
  | u16 => exact absurd trivial h
  | u8 => exact absurd trivial h

/-- The decoder accepts payloads of any length if it supports all fields, and none otherwise. -/
theorem exists_decodeFields_iff (fields : List (String × IdlType)) (data : List UInt8) (c : ℕ) :
    (∃ x, ((decodeFields fields).run data).run c = .ok x) ↔ ∀ f ∈ fields, f.2.Supported := by
  induction fields generalizing c with
  | nil => exact iff_of_true ⟨([], c), rfl⟩ (by simp)
  | cons f fields ih =>
    obtain ⟨name, type⟩ := f
    rw [List.forall_mem_cons]
    simp only [decodeFields, ReaderT.run_bind, StateT.run_bind, except_bind_eq_ok]
    by_cases htype : type.Supported
    · obtain ⟨value, hvalue⟩ := exists_decodeField htype data c
      rw [and_iff_right htype, ← ih (c + type.size)]
      simp only [hvalue, Except.ok.injEq, exists_eq_left']
      exact ⟨fun ⟨_, x, hx, _⟩ => ⟨x, hx⟩, fun ⟨x, hx⟩ => ⟨_, x, hx, rfl⟩⟩
    · obtain ⟨e, he⟩ := decodeField_throws htype data c
      refine iff_of_false ?_ fun h => htype h.1
      rintro ⟨_, x, hx, _⟩
      cases he.symm.trans hx

/-- If all fields of an event are supported, every payload is decoded. -/
theorem exists_decodeEvent (hname : eventFields name = some fields)
    (hfields : ∀ f ∈ fields, f.2.Supported) (payload : List UInt8) :
    ∃ entries, decodeEvent name payload = .ok entries := by
  obtain ⟨x, hx⟩ := (exists_decodeFields_iff fields payload 0).2 hfields
  simp only [decodeEvent, hname]
  exact ⟨x.1, run'_of_run hx⟩

theorem exists_of_decodeEvent (h : decodeEvent name payload = .ok entries) :
    ∃ fields, eventFields name = some fields ∧ ∀ f ∈ fields, f.2.Supported := by
  unfold decodeEvent at h
  split at h
  case h_1 fields hname =>
    refine ⟨fields, hname, (exists_decodeFields_iff fields payload 0).1 ?_⟩
    rw [StateT.run'_eq] at h
    cases hx : ((decodeFields fields).run payload).run 0 with
    | error e =>
      rw [hx] at h
      cases h
    | ok x => exact ⟨x, rfl⟩
  case h_2 => split_ifs at h

/-- What encodes a record decodes to it. -/
theorem decodeEvent_append (hname : eventFields name = some fields)
    (hfields : ∀ f ∈ fields, f.2.Supported) (h : EncodesFields fields entries p)
    (rest : List UInt8) : decodeEvent name (p ++ rest) = .ok entries := by
  have hrun := yields_decodeFields hfields h (p ++ rest) 0 rest rfl
  simp only [decodeEvent, hname]
  exact run'_of_run hrun

/-! ### Short payloads -/

/-- What the decoder returns is what the payload says. -/
def DecodesStrictly (name : String) (payload : List UInt8) : Prop :=
  ∀ entries, decodeEvent name payload = .ok entries → ∃ fields p,
    eventFields name = some fields ∧ EncodesFields fields entries p ∧ p <+: payload

/-- A payload that is too short is decoded, too. -/
theorem DecodesStrictly.le_length (h : DecodesStrictly name payload)
    (hname : eventFields name = some fields) (hfields : ∀ f ∈ fields, f.2.Supported) :
    encodedLength fields ≤ payload.length := by
  obtain ⟨entries, hentries⟩ := exists_decodeEvent hname hfields payload
  obtain ⟨fields', p, hname', hencodes, hprefix⟩ := h entries hentries
  obtain rfl : fields = fields' := Option.some.inj (hname.symm.trans hname')
  rw [← hencodes.length]
  exact hprefix.length_le

/-- The decoder is strict on the payloads that have all bytes of the event, and on the events that
it does not decode at all. -/
theorem decodesStrictly_iff (name : String) (payload : List UInt8) :
    DecodesStrictly name payload ↔ ∀ fields, eventFields name = some fields →
      (∀ f ∈ fields, f.2.Supported) → encodedLength fields ≤ payload.length := by
  refine ⟨fun h fields => h.le_length, fun h entries hentries => ?_⟩
  obtain ⟨fields, hname, hfields⟩ := exists_of_decodeEvent hentries
  have hlen := h fields hname hfields
  obtain ⟨entries', hencodes⟩ := exists_encodesFields hfields
    (p := payload.take (encodedLength fields)) (by rw [List.length_take]; omega)
  have hdecode := decodeEvent_append hname hfields hencodes (payload.drop (encodedLength fields))
  rw [List.take_append_drop, hentries, Except.ok.injEq] at hdecode
  subst hdecode
  exact ⟨fields, _, hname, hencodes, List.take_prefix _ _⟩

end Decoder

/-- A payload that ends behind the key: the version and the time are made up. -/
theorem not_decodesStrictly : ¬ DecodesStrictly "ConfigInitialized" (List.replicate 32 1) := by
  intro h
  have hfields : eventFields "ConfigInitialized" =
      some [("admin", .publicKey), ("version", .u16), ("timestamp", .i64)] := by decide
  have hlen := h.le_length hfields (by simp [IdlType.Supported])
  exact absurd hlen (by decide)

end Sdk

end Ghos
