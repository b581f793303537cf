import Ghos.Client.Sdk
import Ghos.Program.Effects
import Ghos.Mix.Requests

/-!
# `config_update` through the SDK

`sdk/src/instructions/config.ts` sends the code of the field and then five optional slots, one for
each type of value.  The program reads one Borsh variant: the code and then the value.  So it reads
the option tags of the slots as a part of the value, and no value that is worth sending survives
(`updateFits_iff`).
-/

namespace Ghos

variable {Pubkey : Type} [AddressSpace Pubkey]

namespace Sdk

/-! ### Numbers -/

/-- A `bigint`, or a `number` with an integer value. -/
inductive JsInteger
  | bigint (v : ℤ)
  | number (v : ℤ)
  deriving DecidableEq

/-- `new BN(value)`: a `number` must be below 2^53. -/
def JsInteger.toBN : JsInteger → Except SdkError ℤ
  | .bigint v => .ok v
  | .number v => do
    throwUnless (v.natAbs < 2 ^ 53) (.error "Assertion failed")
    return v

/-- `bn.toArrayLike(Buffer, "le", n)`, which looks at the magnitude. -/
def toArrayLike (n : ℕ) (bn : ℤ) : Except SdkError (List UInt8) := do
  throwUnless (bn.natAbs < 256 ^ n) (.error "byte array longer than desired length")
  return leBytes n bn.natAbs

/-- `bn.inotn(64)` on words of 26 bits: the low 64 bits are complemented, the rest of the third word
is cleared and the words above it stay. -/
def inotn64 (n : ℕ) : ℕ := n / 2 ^ 78 * 2 ^ 78 + (2 ^ 64 - 1 - n % 2 ^ 64)

/-- `bn.toTwos(64)`. -/
def toTwos64 (bn : ℤ) : ℤ := if bn < 0 then inotn64 bn.natAbs + 1 else bn

theorem toTwos64_of_nonneg {v : ℤ} (h : 0 ≤ v) : toTwos64 v = v := if_neg (not_lt.2 h)

/-- Above `-2^64` it is the complement of two. -/
theorem toTwos64_of_neg {v : ℤ} (hlow : -2 ^ 64 < v) (h : v < 0) : toTwos64 v = 2 ^ 64 + v := by
  rw [toTwos64, if_pos h, inotn64]
  omega

def encodeU64Le (value : JsInteger) : Except SdkError (List UInt8) := do
  let bn ← value.toBN
  toArrayLike 8 bn

def encodeI64Le (value : JsInteger) : Except SdkError (List UInt8) := do
  let bn ← value.toBN
  toArrayLike 8 (toTwos64 bn)

/-- `setUint16`, which keeps the low sixteen bits. -/
def encodeU16Le (value : ℤ) : List UInt8 := leBytes 2 (value % 2 ^ 16).toNat

def encodeU8Le (value : ℤ) : List UInt8 := leBytes 1 (value % 2 ^ 8).toNat

/-! ### The request -/

/-- `ConfigUpdateParams`. -/
structure ConfigUpdateParams where
  paused : Option Bool := none
  dustFreeUnit : Option ℤ := none
  burnerTtlMax : Option ℤ := none
  burnerTtlMin : Option ℤ := none
  burnerRegistryCap : Option ℤ := none
  mixMinParticipants : Option ℤ := none
  mixMaxParticipants : Option ℤ := none
  mixRevealWindow : Option ℤ := none
  auditorCosignLamports : Option ℤ := none
  deriving DecidableEq

/-- The keys of `CONFIG_FIELD_CODES`. -/
inductive ConfigFieldName
  | paused
  | dustFreeUnit
  | burnerTtlMax
  | burnerTtlMin
  | burnerRegistryCap
  | mixMinParticipants
  | mixMaxParticipants
  | mixRevealWindow
  | auditorCosignLamports
  deriving DecidableEq

def ConfigFieldName.code : ConfigFieldName → UInt8
  | .paused => 0
  | .dustFreeUnit => 1
  | .burnerTtlMax => 2
  | .burnerTtlMin => 3
  | .burnerRegistryCap => 4
  | .mixMinParticipants => 5
  | .mixMaxParticipants => 6
  | .mixRevealWindow => 7
  | .auditorCosignLamports => 8

/-- The field tuple: a name and one value. -/
structure FieldTuple where
  name : ConfigFieldName
  u64Value : Option JsInteger := none
  i64Value : Option JsInteger := none
  boolValue : Option Bool := none
  u16Value : Option ℤ := none
  u8Value : Option ℤ := none
  deriving DecidableEq

/-- Translate an update request into the field tuple; the first field that is set wins. -/
def pickFieldFromUpdate (params : ConfigUpdateParams) : Except SdkError FieldTuple :=
  match params.paused with
  | some v => .ok { name := .paused, boolValue := some v }
  | none =>
  match params.dustFreeUnit with
  | some v => .ok { name := .dustFreeUnit, u64Value := some (.bigint v) }
  | none =>
  match params.burnerTtlMax with
  | some v => .ok { name := .burnerTtlMax, i64Value := some (.number v) }
  | none =>
  match params.burnerTtlMin with
  | some v => .ok { name := .burnerTtlMin, i64Value := some (.number v) }
  | none =>
  match params.burnerRegistryCap with
  | some v => .ok { name := .burnerRegistryCap, u16Value := some v }
  | none =>
  match params.mixMinParticipants with
  | some v => .ok { name := .mixMinParticipants, u8Value := some v }
  | none =>
  match params.mixMaxParticipants with
  | some v => .ok { name := .mixMaxParticipants, u8Value := some v }
  | none =>
  match params.mixRevealWindow with
  | some v => .ok { name := .mixRevealWindow, i64Value := some (.number v) }
  | none =>
  match params.auditorCosignLamports with
  | some v => .ok { name := .auditorCosignLamports, u64Value := some (.bigint v) }
  | none => .error (.ghosSdkError invalidInput "configUpdate requires at least one field")

/-! ### The instruction -/

def encodeOption : Option (List UInt8) → List UInt8
  | none => [0]
  | some value => 1 :: value

/-- Encode a value if there is one. -/
def encodeWith {α : Type} (encode : α → Except SdkError (List UInt8)) :
    Option α → Except SdkError (Option (List UInt8))
  | none => .ok none
  | some v => some <$> encode v

/-- `discriminatorFor("configUpdate")`. -/
def configUpdateDiscriminator : List UInt8 := [80, 37, 109, 53, 217, 142, 9, 88]

/-- Build the `config_update` instruction. -/
def buildConfigUpdateInstruction (admin : Pubkey) (field : FieldTuple) :
    Except SdkError (TransactionInstruction Pubkey) := do
  let u64Value ← encodeWith encodeU64Le field.u64Value
  let i64Value ← encodeWith encodeI64Le field.i64Value
  let boolValue := field.boolValue.map fun v => [if v then 1 else 0]
  let u16Value := field.u16Value.map encodeU16Le
  let u8Value := field.u8Value.map encodeU8Le
  return {
    keys := [
      { pubkey := admin, isSigner := true, isWritable := true },
      { pubkey := configPda, isSigner := false, isWritable := true }]
    data := configUpdateDiscriminator ++ (field.name.code :: (encodeOption u64Value ++
      (encodeOption i64Value ++ (encodeOption boolValue ++ (encodeOption u16Value ++
        encodeOption u8Value))))) }

/-! ### The argument as the program decodes it -/

/-- `ConfigField::deserialize` on the data behind the discriminator; trailing bytes are ignored. -/
def decodeConfigField (data : List UInt8) : Option (ConfigField (Vector UInt8 32)) := do
  let (variant, payload) ← Borsh.u8 data
  match variant with
  | 0 => (Borsh.bool payload).map fun v => .paused v.1
  | 1 => (Borsh.u64 payload).map fun v => .dustFreeUnit v.1
  | 2 => (Borsh.i64 payload).map fun v => .burnerTtlMax v.1
  | 3 => (Borsh.i64 payload).map fun v => .burnerTtlMin v.1
  | 4 => (Borsh.u16 payload).map fun v => .burnerRegistryCap v.1
  | 5 => (Borsh.u8 payload).map fun v => .mixMinParticipants v.1
  | 6 => (Borsh.u8 payload).map fun v => .mixMaxParticipants v.1
  | 7 => (Borsh.i64 payload).map fun v => .mixRevealWindow v.1
  | 8 => (Borsh.u64 payload).map fun v => .auditorCosignLamports v.1
  | 9 => (Borsh.array 32 payload).map fun v => .admin v.1
  | _ => none

/-- The request that sets one field; the SDK has none for the admin. -/
def requestOf : ConfigField (Vector UInt8 32) → ConfigUpdateParams
  | .paused v => { paused := some v }
  | .dustFreeUnit v => { dustFreeUnit := some v.toNat }
  | .burnerTtlMax v => { burnerTtlMax := some v.toInt }
  | .burnerTtlMin v => { burnerTtlMin := some v.toInt }
  | .burnerRegistryCap v => { burnerRegistryCap := some v.toNat }
  | .mixMinParticipants v => { mixMinParticipants := some v.toNat }
  | .mixMaxParticipants v => { mixMaxParticipants := some v.toNat }
  | .mixRevealWindow v => { mixRevealWindow := some v.toInt }
  | .auditorCosignLamports v => { auditorCosignLamports := some v.toNat }
  | .admin _ => {}

/-- The data behind the discriminator of the instruction that the SDK builds for a request. -/
def configUpdateData (admin : Pubkey) (params : ConfigUpdateParams) :
    Except SdkError (List UInt8) := do
  let field ← pickFieldFromUpdate params
  let ix ← buildConfigUpdateInstruction admin field
  return ix.data.drop 8

/-- The program decodes the field that the SDK was asked to set. -/
def UpdateFits (admin : Pubkey) (field : ConfigField (Vector UInt8 32)) : Prop :=
  ∃ data, configUpdateData admin (requestOf field) = .ok data ∧ decodeConfigField data = some field

/-- The values that read the same with the option tags in front. -/
def Survives : ConfigField (Vector UInt8 32) → Prop
  | .paused v => v = false
  | .dustFreeUnit v | .auditorCosignLamports v => v = 0x0101010101010101
  | .burnerRegistryCap v => v = 0
  | .mixMinParticipants v | .mixMaxParticipants v => v = 0
  | .burnerTtlMax _ | .burnerTtlMin _ | .mixRevealWindow _ | .admin _ => False

/-! ### The bytes -/

section Bytes

variable {admin : Pubkey} {params : ConfigUpdateParams} {name : ConfigFieldName}
  {data : List UInt8}

omit [AddressSpace Pubkey] in
theorem toArrayLike_eq_ok {n : ℕ} {bn : ℤ} :
    toArrayLike n bn = .ok data ↔ bn.natAbs < 256 ^ n ∧ leBytes n bn.natAbs = data := by
  simp only [toArrayLike, throwUnless_bind_eq_ok, except_pure_eq_ok]

omit [AddressSpace Pubkey] in
theorem encodeU64Le_eq_ok {v : UInt64} :
    encodeU64Le (.bigint v.toNat) = .ok data ↔ leBytes 8 v.toNat = data := by
  have hv := v.toNat_lt
  simp only [encodeU64Le, JsInteger.toBN, except_bind_eq_ok, Except.ok.injEq, exists_eq_left',
    toArrayLike_eq_ok, Int.natAbs_natCast, and_iff_right_iff_imp]
  omega

omit [AddressSpace Pubkey] in
/-- A `number` is encoded as long as it is below 2^53. -/
theorem encodeI64Le_eq_ok {v : Int64} :
    encodeI64Le (.number v.toInt) = .ok data ↔
      v.toInt.natAbs < 2 ^ 53 ∧ leBytes 8 (v.toInt % 2 ^ 64).toNat = data := by
  simp only [encodeI64Le, JsInteger.toBN, except_bind_eq_ok, throwUnless_eq_ok, except_pure_eq_ok,
    exists_const, and_assoc, exists_and_left, exists_eq_left', toArrayLike_eq_ok]
  refine and_congr_right fun hsmall => ?_
  have htwos : toTwos64 v.toInt = v.toInt % 2 ^ 64 := by
    by_cases hneg : v.toInt < 0
    · rw [toTwos64_of_neg (by omega) hneg]
      omega
    · rw [toTwos64_of_nonneg (by omega)]
      omega
  have hfits : (toTwos64 v.toInt).natAbs < 256 ^ 8 := by
    rw [htwos]
    omega
  have hbytes : (toTwos64 v.toInt).natAbs = (v.toInt % 2 ^ 64).toNat := by
    rw [htwos]
    omega
  rw [and_iff_right hfits, hbytes]

omit [AddressSpace Pubkey] in
theorem encodeWith_eq_ok {α : Type} {encode : α → Except SdkError (List UInt8)} {x : Option α}
    {slot : Option (List UInt8)} :
    encodeWith encode x = .ok slot ↔
      x = none ∧ slot = none ∨ ∃ v b, x = some v ∧ encode v = .ok b ∧ slot = some b := by
  cases x with
  | none => simp [encodeWith, eq_comm]
  | some v => cases h : encode v <;> simp [encodeWith, h, eq_comm]

/-- What the slots of the request hold. -/
theorem configUpdateData_eq_ok {field : FieldTuple}
    (hpick : pickFieldFromUpdate params = .ok field) :
    configUpdateData admin params = .ok data ↔ ∃ u64Value i64Value,
      encodeWith encodeU64Le field.u64Value = .ok u64Value ∧
      encodeWith encodeI64Le field.i64Value = .ok i64Value ∧
      field.name.code :: (encodeOption u64Value ++ (encodeOption i64Value ++
        (encodeOption (field.boolValue.map fun v => [if v then 1 else 0]) ++
          (encodeOption (field.u16Value.map encodeU16Le) ++
            encodeOption (field.u8Value.map encodeU8Le))))) = data := by
  simp only [configUpdateData, hpick, buildConfigUpdateInstruction, except_bind_eq_ok,
    except_pure_eq_ok, Except.ok.injEq, exists_eq_left', configUpdateDiscriminator]
  constructor
  · rintro ⟨ix, ⟨u, hu, i, hi, rfl⟩, rfl⟩
    exact ⟨u, i, hu, hi, rfl⟩
  · rintro ⟨u, i, hu, hi, rfl⟩
    exact ⟨_, ⟨u, hu, i, hi, rfl⟩, rfl⟩

/-- A `u64` follows one option tag. -/
theorem configUpdateData_u64 {v : UInt64}
    (hpick : pickFieldFromUpdate params = .ok { name, u64Value := some (.bigint v.toNat) }) :
    configUpdateData admin params =
      .ok (name.code :: 1 :: (leBytes 8 v.toNat ++ [0, 0, 0, 0])) := by
  rw [configUpdateData_eq_ok hpick]
  exact ⟨some _, none, encodeWith_eq_ok.2 (.inr ⟨_, _, rfl, encodeU64Le_eq_ok.2 rfl, rfl⟩), rfl,
    rfl⟩

/-- An `i64` follows two. -/
theorem configUpdateData_i64 {v : Int64}
    (hpick : pickFieldFromUpdate params = .ok { name, i64Value := some (.number v.toInt) }) :
    configUpdateData admin params = .ok data ↔ v.toInt.natAbs < 2 ^ 53 ∧
      name.code :: 0 :: 1 :: (leBytes 8 (v.toInt % 2 ^ 64).toNat ++ [0, 0, 0]) = data := by
  rw [configUpdateData_eq_ok hpick]
  constructor
  · rintro ⟨u, i, hu, hi, rfl⟩
    cases hu
    obtain ⟨hnone, -⟩ | ⟨_, b, hv, hb, rfl⟩ := encodeWith_eq_ok.1 hi
    · cases hnone
    · cases hv
      obtain ⟨hsmall, rfl⟩ := encodeI64Le_eq_ok.1 hb
      exact ⟨hsmall, rfl⟩
  · rintro ⟨hsmall, rfl⟩
    exact ⟨none, some _, rfl,
      encodeWith_eq_ok.2 (.inr ⟨_, _, rfl, encodeI64Le_eq_ok.2 ⟨hsmall, rfl⟩, rfl⟩), rfl⟩

end Bytes

/-! ### What the program reads -/

omit [AddressSpace Pubkey] in
/-- The option tag becomes the low byte of a `u64`. -/
theorem read_u64 {α : Type} {make : UInt64 → α} {x : ℕ} {rest : List UInt8} :
    (Borsh.u64 (1 :: (leBytes 8 x ++ rest))).map (fun v => make v.1) =
      some (make (UInt64.ofNat (1 + 256 * (x % 256 ^ 7)))) := by
  have hsplit : 1 :: (leBytes 8 x ++ rest) =
      (1 :: leBytes 7 x) ++ (leBytes 1 (x / 256 ^ 7) ++ rest) := by
    rw [leBytes_add 7 1 x, List.cons_append, List.append_assoc]
  rw [hsplit, Borsh.u64_append (by rw [List.length_cons, length_leBytes]), Option.map_some, leNat,
    leNat_leBytes]
  rfl

omit [AddressSpace Pubkey] in
/-- Two option tags become the two low bytes of an `i64`. -/
theorem read_i64 {α : Type} {make : Int64 → α} {x : ℕ} {rest : List UInt8} :
    (Borsh.i64 (0 :: 1 :: (leBytes 8 x ++ rest))).map (fun v => make v.1) =
      some (make (Int64.ofNat (256 + 65536 * (x % 256 ^ 6)))) := by
  have hsplit : 0 :: 1 :: (leBytes 8 x ++ rest) =
      (0 :: 1 :: leBytes 6 x) ++ (leBytes 2 (x / 256 ^ 6) ++ rest) := by
    rw [leBytes_add 6 2 x, List.cons_append, List.cons_append, List.append_assoc]
  rw [hsplit, Borsh.i64_append (by rw [List.length_cons, List.length_cons, length_leBytes]),
    Option.map_some, leNat, leNat, leNat_leBytes]
  refine congrArg (fun n => some (make (Int64.ofNat n))) ?_
  simp only [UInt8.toNat_zero, UInt8.toNat_one]
  ring

omit [AddressSpace Pubkey] in
theorem u64_fixed {v : UInt64} :
    UInt64.ofNat (1 + 256 * (v.toNat % 256 ^ 7)) = v ↔ v = 0x0101010101010101 := by
  have hv := v.toNat_lt
  rw [← UInt64.toNat_inj, ← UInt64.toNat_inj, UInt64.toNat_ofNat']
  show _ ↔ v.toNat = 0x0101010101010101
  omega

omit [AddressSpace Pubkey] in
/-- The one value that would survive is too large for a `number`. -/
theorem i64_not_fixed {v : Int64} (hsmall : v.toInt.natAbs < 2 ^ 53) :
    Int64.ofNat (256 + 65536 * ((v.toInt % 2 ^ 64).toNat % 256 ^ 6)) ≠ v := by
  intro h
  have hsize : ((Int64.size : ℕ) : ℤ) = 2 ^ 64 := rfl
  have h := congrArg Int64.toInt h
  rw [Int64.toInt_ofNat', Int.bmod_def, hsize] at h
  omega

/-! ### Which values survive -/

section Fits

variable {admin : Pubkey}

theorem updateFits_iff_of_data {field : ConfigField (Vector UInt8 32)} {data : List UInt8}
    (hdata : configUpdateData admin (requestOf field) = .ok data) :
    UpdateFits admin field ↔ decodeConfigField data = some field := by
  simp only [UpdateFits, hdata, Except.ok.injEq, exists_eq_left']

/-- A `u64` survives if all its bytes are ones. -/
theorem u64_fits {make : UInt64 → ConfigField (Vector UInt8 32)} (hmake : Function.Injective make)
    {name : ConfigFieldName} {v : UInt64}
    (hpick : pickFieldFromUpdate (requestOf (make v)) =
      .ok { name, u64Value := some (.bigint v.toNat) })
    (hdecode : ∀ payload, decodeConfigField (name.code :: payload) =
      (Borsh.u64 payload).map fun v => make v.1) :
    UpdateFits admin (make v) ↔ v = 0x0101010101010101 := by
  rw [updateFits_iff_of_data (configUpdateData_u64 hpick), hdecode, read_u64, Option.some.injEq,
    hmake.eq_iff, u64_fixed]

/-- No `i64` survives. -/
theorem not_i64_fits {make : Int64 → ConfigField (Vector UInt8 32)}
    (hmake : Function.Injective make) {name : ConfigFieldName} {v : Int64}
    (hpick : pickFieldFromUpdate (requestOf (make v)) =
      .ok { name, i64Value := some (.number v.toInt) })
    (hdecode : ∀ payload, decodeConfigField (name.code :: payload) =
      (Borsh.i64 payload).map fun v => make v.1) :
    ¬ UpdateFits admin (make v) := by
  rintro ⟨data, hdata, hfits⟩
  obtain ⟨hsmall, rfl⟩ := (configUpdateData_i64 hpick).1 hdata
  rw [hdecode, read_i64, Option.some.injEq, hmake.eq_iff] at hfits
  exact i64_not_fixed hsmall hfits

/-- In the slots behind the first two, the program reads what stands before the value. -/
theorem fits_iff_eq {α : Type} {make : α → ConfigField (Vector UInt8 32)}
    (hmake : Function.Injective make) {v w : α} {data : List UInt8}
    (hdata : configUpdateData admin (requestOf (make v)) = .ok data)
    (hdecode : decodeConfigField data = some (make w)) : UpdateFits admin (make v) ↔ v = w := by
  rw [updateFits_iff_of_data hdata, hdecode, Option.some.injEq, hmake.eq_iff, eq_comm]

/-- The program decodes what the SDK was asked to set exactly for the values that survive. -/
theorem updateFits_iff (admin : Pubkey) (field : ConfigField (Vector UInt8 32)) :
    UpdateFits admin field ↔ Survives field := by
  cases field with
  | paused v => exact fits_iff_eq (fun _ _ h => ConfigField.paused.inj h) rfl rfl
  | dustFreeUnit v =>
    exact u64_fits (fun _ _ h => ConfigField.dustFreeUnit.inj h) rfl fun _ => rfl
  | burnerTtlMax v =>
    exact iff_false_intro
      (not_i64_fits (fun _ _ h => ConfigField.burnerTtlMax.inj h) rfl fun _ => rfl)
  | burnerTtlMin v =>
    exact iff_false_intro
      (not_i64_fits (fun _ _ h => ConfigField.burnerTtlMin.inj h) rfl fun _ => rfl)
  | burnerRegistryCap v =>
    exact fits_iff_eq (fun _ _ h => ConfigField.burnerRegistryCap.inj h) rfl rfl
  | mixMinParticipants v =>
    exact fits_iff_eq (fun _ _ h => ConfigField.mixMinParticipants.inj h) rfl rfl
  | mixMaxParticipants v =>
    exact fits_iff_eq (fun _ _ h => ConfigField.mixMaxParticipants.inj h) rfl rfl
  | mixRevealWindow v =>
    exact iff_false_intro
      (not_i64_fits (fun _ _ h => ConfigField.mixRevealWindow.inj h) rfl fun _ => rfl)
  | auditorCosignLamports v =>
    exact u64_fits (fun _ _ h => ConfigField.auditorCosignLamports.inj h) rfl fun _ => rfl
  | admin v =>
    refine iff_false_intro ?_
    rintro ⟨data, hdata, -⟩
    cases hdata

end Fits

/-- The request to pause is decoded as the request to go on. -/
theorem pause_decodes_to_unpause :
    ¬ UpdateFits Sample.admin (.paused true) ∧
      (configUpdateData Sample.admin { paused := some true }).toOption.bind decodeConfigField =
        some (.paused false) := by
  refine ⟨?_, rfl⟩
  rintro ⟨data, hdata, hfits⟩
  cases hdata
  cases hfits

end Sdk

end Ghos
