import Ghos.Program.Registry
import Ghos.Client.EventCodec

/-!
# The events of the program as records

The fields of the fourteen events of `events.rs`, with their Borsh encoding and the record that a
reader of the event expects.  The IDL lists these fields in this order (`eventFields_eq`), so a
record encodes to the event (`encodesFields_event`).
-/

namespace Ghos

variable {Pubkey : Type} [Sdk.KeyBytes Pubkey]

/-- The value of a field in the program. -/
inductive FieldValue
  | publicKey (k : Vector UInt8 32)
  | u64 (v : UInt64)
  | i64 (v : Int64)
  | u16 (v : UInt16)
  | u8 (v : UInt8)
  | bool (b : Bool)
  | bytes (b : Vector UInt8 32)
  deriving DecidableEq

namespace FieldValue

def borsh : FieldValue → List UInt8
  | publicKey k => k.toList
  | u64 v => v.toLeBytes
  | i64 v => v.toLeBytes
  | u16 v => leBytes 2 v.toNat
  | u8 v => [v]
  | bool b => [b.toUInt8]
  | bytes b => b.toList

/-- The type in the IDL. -/
def type : FieldValue → Sdk.IdlType
  | publicKey _ => .publicKey
  | u64 _ => .u64
  | i64 _ => .i64
  | u16 _ => .u16
  | u8 _ => .u8
  | bool _ => .bool
  | bytes _ => .array "u8" 32

/-- The same value in JavaScript. -/
def js : FieldValue → Sdk.JsValue
  | publicKey k => .publicKey k
  | u64 v => .bigint v.toNat
  | i64 v => .bigint v.toInt
  | u16 v => .number v.toNat
  | u8 v => .number v.toNat
  | bool b => .boolean b
  | bytes b => .uint8Array b.toList

theorem encodes (value : FieldValue) : Sdk.Encodes value.type value.js value.borsh := by
  cases value with
  | publicKey k => exact .publicKey k
  | u64 v => exact .u64 v
  | i64 v => exact .i64 v
  | u16 v => exact .u16 v
  | u8 v => exact .u8 v
  | bool b => exact .bool b
  | bytes b => exact .array b

/-- A key. -/
def ofKey (k : Pubkey) : FieldValue := .publicKey (Sdk.KeyBytes.toBytes k)

end FieldValue

/-! ### The events -/

def Event.name {Digest : Type} : Event Pubkey Digest → String
  | .configInitialized .. => "ConfigInitialized"
  | .configUpdated .. => "ConfigUpdated"
  | .mixRoundOpened .. => "MixRoundOpened"
  | .mixCommitted .. => "MixCommitted"
  | .mixRevealed .. => "MixRevealed"
  | .mixSettled .. => "MixSettled"

def RegistryEvent.name : RegistryEvent Pubkey → String
  | .shieldExecuted .. => "ShieldExecuted"
  | .confidentialTransferSubmitted .. => "ConfidentialTransferSubmitted"
  | .pendingApplied .. => "PendingApplied"
  | .withdrawExecuted .. => "WithdrawExecuted"
  | .burnerCreated .. => "BurnerCreated"
  | .burnerDestroyed .. => "BurnerDestroyed"
  | .auditorRegistered .. => "AuditorRegistered"
  | .auditorRotated .. => "AuditorRotated"

open FieldValue

/-- The fields in the order of their declaration. -/
def Event.fields : Event Pubkey (Vector UInt8 32) → List (String × FieldValue)
  | .configInitialized admin version timestamp =>
    [("admin", ofKey admin), ("version", u16 version), ("timestamp", i64 timestamp)]
  | .configUpdated admin field timestamp =>
    [("admin", ofKey admin), ("field", u8 field), ("timestamp", i64 timestamp)]
  | .mixRoundOpened round mint denomination capacity openedAt =>
    [("round", ofKey round), ("mint", ofKey mint), ("denomination", u64 denomination),
      ("capacity", u8 capacity), ("openedAt", i64 openedAt)]
  | .mixCommitted round participant commitment index =>
    [("round", ofKey round), ("participant", ofKey participant), ("commitment", bytes commitment),
      ("index", u8 index)]
  | .mixRevealed round participant index =>
    [("round", ofKey round), ("participant", ofKey participant), ("index", u8 index)]
  | .mixSettled round participants settledAt =>
    [("round", ofKey round), ("participants", u8 participants), ("settledAt", i64 settledAt)]

def RegistryEvent.fields : RegistryEvent Pubkey → List (String × FieldValue)
  | .shieldExecuted owner mint sourceAta amountLamports timestamp =>
    [("owner", ofKey owner), ("mint", ofKey mint), ("sourceAta", ofKey sourceAta),
      ("amountLamports", u64 amountLamports), ("timestamp", i64 timestamp)]
  | .confidentialTransferSubmitted sourceOwner destinationOwner mint proofContext timestamp =>
    [("sourceOwner", ofKey sourceOwner), ("destinationOwner", ofKey destinationOwner),
      ("mint", ofKey mint), ("proofContext", ofKey proofContext), ("timestamp", i64 timestamp)]
  | .pendingApplied owner mint appliedCounter timestamp =>
    [("owner", ofKey owner), ("mint", ofKey mint), ("appliedCounter", u64 appliedCounter),
      ("timestamp", i64 timestamp)]
  | .withdrawExecuted owner mint destinationAta amount auditorCosigned timestamp =>
    [("owner", ofKey owner), ("mint", ofKey mint), ("destinationAta", ofKey destinationAta),
      ("amount", u64 amount), ("auditorCosigned", bool auditorCosigned),
      ("timestamp", i64 timestamp)]
  | .burnerCreated owner burner ttlSeconds expiresAt =>
    [("owner", ofKey owner), ("burner", ofKey burner), ("ttlSeconds", i64 ttlSeconds),
      ("expiresAt", i64 expiresAt)]
  | .burnerDestroyed owner burner revokedAt =>
    [("owner", ofKey owner), ("burner", ofKey burner), ("revokedAt", i64 revokedAt)]
  | .auditorRegistered mint auditorPubkey admin timestamp =>
    [("mint", ofKey mint), ("auditorPubkey", bytes auditorPubkey), ("admin", ofKey admin),
      ("timestamp", i64 timestamp)]
  | .auditorRotated mint oldPubkey newPubkey timestamp =>
    [("mint", ofKey mint), ("oldPubkey", bytes oldPubkey), ("newPubkey", bytes newPubkey),
      ("timestamp", i64 timestamp)]

/-- An event of either kind. -/
abbrev ProgramEvent (Pubkey : Type) := Event Pubkey (Vector UInt8 32) ⊕ RegistryEvent Pubkey

namespace ProgramEvent

def name : ProgramEvent Pubkey → String := Sum.elim Event.name RegistryEvent.name

def fields : ProgramEvent Pubkey → List (String × FieldValue) :=
  Sum.elim Event.fields RegistryEvent.fields

/-- The Borsh encoding: the fields one after the other. -/
def borsh (event : ProgramEvent Pubkey) : List UInt8 :=
  (fields event).flatMap fun (_, value) => value.borsh

/-- The record of the fields. -/
def record (event : ProgramEvent Pubkey) : List (String × Sdk.JsValue) :=
  (fields event).map fun (name, value) => (name, value.js)

/-- The fields of the IDL are those of the program. -/
theorem eventFields_eq (event : ProgramEvent Pubkey) :
    Sdk.eventFields (name event) = some ((fields event).map fun (name, value) =>
      (name, value.type)) := by
  rcases event with event | event <;> cases event <;> rfl

theorem encodesFields_event (event : ProgramEvent Pubkey) :
    Sdk.EncodesFields ((fields event).map fun (name, value) => (name, value.type)) (record event)
      (borsh event) := by
  unfold record borsh
  induction fields event with
  | nil => exact .nil
  | cons f fields ih => exact .cons f.2.encodes ih

end ProgramEvent

end Ghos
