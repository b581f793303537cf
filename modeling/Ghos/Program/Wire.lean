import Ghos.Lib.Codec
import Ghos.Mix.Requests
import Ghos.Program.Footprints

/-!
# Instructions on the wire

The runtime hands the program a list of accounts and a byte string.  The front end that Anchor
generates chooses the instruction, reads its arguments as Borsh and binds the accounts to the fields
of its struct, one after the other.

* `InstructionName.argumentsCodec`: the arguments of each instruction as Borsh;
* `BindsInOrder`: what is taken for granted of the front end, which is a parameter;
* `wireProgram`: the machine of `Program/Calls.lean` behind it.
-/

namespace Ghos

/-! ### Names and arguments -/

/-- The instructions of the `#[program]` module. -/
inductive InstructionName
  | ghosInitialize
  | configUpdate
  | shield
  | applyPending
  | confidentialTransfer
  | withdraw
  | createBurner
  | destroyBurner
  | auditorRegister
  | auditorRotate
  | mixInit
  | mixCommit
  | mixReveal
  | mixSettle
  deriving DecidableEq

namespace InstructionName

/-- The arguments behind the context, in their order. -/
abbrev Arguments (Pubkey : Type) : InstructionName → Type
  | ghosInitialize => Unit
  | configUpdate => ConfigField Pubkey
  | shield => UInt64
  | applyPending => UInt64 × Vector UInt8 36
  | confidentialTransfer => Pubkey × Vector UInt8 36
  | withdraw => UInt64 × Vector UInt8 36
  | createBurner => UInt64 × Int64
  | destroyBurner => List UInt8
  | auditorRegister => Vector UInt8 32 × List UInt8 × Int64
  | auditorRotate => Vector UInt8 32 × List UInt8
  | mixInit => UInt64 × UInt64 × UInt8 × Int64
  | mixCommit => Vector UInt8 32
  | mixReveal => List UInt8 × Vector UInt8 32
  | mixSettle => Unit

end InstructionName

/-! ### Codecs -/

/-- The bytes of a key. -/
class KeyCodec (Pubkey : Type) where
  key : Codec UInt8 Pubkey

variable {Pubkey Digest World ε : Type}

/-- The variants of `ConfigField`. -/
inductive ConfigVariant
  | paused
  | dustFreeUnit
  | burnerTtlMax
  | burnerTtlMin
  | burnerRegistryCap
  | mixMinParticipants
  | mixMaxParticipants
  | mixRevealWindow
  | auditorCosignLamports
  | admin
  deriving DecidableEq

namespace ConfigVariant

def index : ConfigVariant → UInt8
  | paused => 0
  | dustFreeUnit => 1
  | burnerTtlMax => 2
  | burnerTtlMin => 3
  | burnerRegistryCap => 4
  | mixMinParticipants => 5
  | mixMaxParticipants => 6
  | mixRevealWindow => 7
  | auditorCosignLamports => 8
  | admin => 9

def ofIndex : UInt8 → Option ConfigVariant
  | 0 => some paused
  | 1 => some dustFreeUnit
  | 2 => some burnerTtlMax
  | 3 => some burnerTtlMin
  | 4 => some burnerRegistryCap
  | 5 => some mixMinParticipants
  | 6 => some mixMaxParticipants
  | 7 => some mixRevealWindow
  | 8 => some auditorCosignLamports
  | 9 => some admin
  | _ => none

theorem ofIndex_eq_some (x : UInt8) (v : ConfigVariant) : ofIndex x = some v ↔ v.index = x := by
  constructor
  · intro h
    unfold ofIndex at h
    split at h <;> cases h <;> rfl
  · rintro rfl
    cases v <;> rfl

abbrev Payload (Pubkey : Type) : ConfigVariant → Type
  | paused => Bool
  | dustFreeUnit | auditorCosignLamports => UInt64
  | burnerTtlMax | burnerTtlMin | mixRevealWindow => Int64
  | burnerRegistryCap => UInt16
  | mixMinParticipants | mixMaxParticipants => UInt8
  | admin => Pubkey

end ConfigVariant

/-- A field is a variant with its payload. -/
def ConfigField.ofVariant : (Σ v : ConfigVariant, v.Payload Pubkey) ≃ ConfigField Pubkey where
  toFun
    | ⟨.paused, v⟩ => .paused v
    | ⟨.dustFreeUnit, v⟩ => .dustFreeUnit v
    | ⟨.burnerTtlMax, v⟩ => .burnerTtlMax v
    | ⟨.burnerTtlMin, v⟩ => .burnerTtlMin v
    | ⟨.burnerRegistryCap, v⟩ => .burnerRegistryCap v
    | ⟨.mixMinParticipants, v⟩ => .mixMinParticipants v
    | ⟨.mixMaxParticipants, v⟩ => .mixMaxParticipants v
    | ⟨.mixRevealWindow, v⟩ => .mixRevealWindow v
    | ⟨.auditorCosignLamports, v⟩ => .auditorCosignLamports v
    | ⟨.admin, v⟩ => .admin v
  invFun
    | .paused v => ⟨.paused, v⟩
    | .dustFreeUnit v => ⟨.dustFreeUnit, v⟩
    | .burnerTtlMax v => ⟨.burnerTtlMax, v⟩
    | .burnerTtlMin v => ⟨.burnerTtlMin, v⟩
    | .burnerRegistryCap v => ⟨.burnerRegistryCap, v⟩
    | .mixMinParticipants v => ⟨.mixMinParticipants, v⟩
    | .mixMaxParticipants v => ⟨.mixMaxParticipants, v⟩
    | .mixRevealWindow v => ⟨.mixRevealWindow, v⟩
    | .auditorCosignLamports v => ⟨.auditorCosignLamports, v⟩
    | .admin v => ⟨.admin, v⟩
  left_inv := by
    rintro ⟨v, x⟩
    cases v <;> rfl
  right_inv field := by cases field <;> rfl

open Codec

section Codecs

variable [KeyCodec Pubkey]

/-- The payload of a variant. -/
def ConfigVariant.payloadCodec : (v : ConfigVariant) → Codec UInt8 (v.Payload Pubkey)
  | paused => bool
  | dustFreeUnit | auditorCosignLamports => u64
  | burnerTtlMax | burnerTtlMin | mixRevealWindow => i64
  | burnerRegistryCap => u16
  | mixMinParticipants | mixMaxParticipants => u8
  | admin => KeyCodec.key

/-- The index of the variant, and its payload. -/
def ConfigField.codec : Codec UInt8 (ConfigField Pubkey) :=
  ((u8.coded ConfigVariant.index ConfigVariant.ofIndex ConfigVariant.ofIndex_eq_some).sigma
    ConfigVariant.payloadCodec).iso ConfigField.ofVariant

namespace InstructionName

/-- The arguments as Borsh. -/
def argumentsCodec : (i : InstructionName) → Codec UInt8 (i.Arguments Pubkey)
  | ghosInitialize | mixSettle => nil
  | configUpdate => ConfigField.codec
  | shield => u64
  | applyPending | withdraw => u64.seq (array 36)
  | confidentialTransfer => Codec.seq KeyCodec.key (array 36)
  | createBurner => u64.seq i64
  | destroyBurner => vec
  | auditorRegister => (array 32).seq (vec.seq i64)
  | auditorRotate => (array 32).seq vec
  | mixInit => u64.seq (u64.seq (u8.seq i64))
  | mixCommit => array 32
  | mixReveal => vec.seq (array 32)

end InstructionName

end Codecs

/-! ### The front end -/

/-- An instruction as the runtime hands it to the program. -/
structure Wire (Pubkey : Type) where
  accounts : List Pubkey
  data : List UInt8
  deriving DecidableEq

/-- The fields of the struct of an entry point, in their order, with the accounts given for them;
`none` stands for an optional account that is not given. -/
def Entrypoint.slots : Entrypoint Pubkey Digest → List (Option Pubkey)
  | .confidentialTransfer accounts _ _ =>
    [accounts.config, accounts.sourceOwner, accounts.sourceAccount, accounts.destinationAccount,
      accounts.mint, accounts.equalityProofContext, accounts.ciphertextValidityProofContext,
      accounts.rangeProofContext, accounts.auditorEntry, accounts.tokenProgram]
  | .withdraw accounts _ _ =>
    [accounts.config, accounts.owner, accounts.confidentialAta, accounts.mint,
      accounts.rangeProofContext, accounts.equalityProofContext, accounts.auditorEntry,
      accounts.tokenProgram]
  | entrypoint => entrypoint.accountFields.map fun field => some field.key

/-- The first field is never optional. -/
theorem Entrypoint.head_slots (entrypoint : Entrypoint Pubkey Digest) :
    entrypoint.slots[0]? = some (entrypoint.accountFields.head?.map AccountField.key) := by
  cases entrypoint with
  | core instruction => cases instruction <;> rfl
  | _ => rfl

/-- The front end binds the accounts of the instructions that it accepts in order: the field at a
place takes the account at the place, unless it is an optional account that is not given. -/
def BindsInOrder (front : Wire Pubkey → Except ε (Entrypoint Pubkey Digest)) : Prop :=
  ∀ w entrypoint, front w = .ok entrypoint →
    ∀ (i : ℕ) (k : Pubkey), entrypoint.slots[i]? = some (some k) → w.accounts[i]? = some k

/-- A call as the runtime presents it, before the front end has read it. -/
structure WireCall (Pubkey World : Type) where
  now : Int64
  signers : List Pubkey
  world : World
  wire : Wire Pubkey

/-- The call that the front end makes of it. -/
def WireCall.decode (front : Wire Pubkey → Except ε (Entrypoint Pubkey Digest))
    (t : WireCall Pubkey World) : Except ε (Call Pubkey Digest World) :=
  (front t.wire).map fun entrypoint =>
    { now := t.now, signers := t.signers, world := t.world, entrypoint }

theorem WireCall.decode_eq_ok {front : Wire Pubkey → Except ε (Entrypoint Pubkey Digest)}
    {t : WireCall Pubkey World} {call : Call Pubkey Digest World}
    (h : t.decode front = .ok call) : front t.wire = .ok call.entrypoint := by
  unfold WireCall.decode at h
  cases hfront : front t.wire with
  | error e =>
    rw [hfront] at h
    cases h
  | ok entrypoint =>
    rw [hfront] at h
    cases h
    rfl

/-- The fourteen instructions behind the front end. -/
def wireProgram [DecidableEq Pubkey] [DecidableEq Digest] [AddressSpace Pubkey] [Sha256 Digest]
    [External Pubkey World] (front : Wire Pubkey → Except ε (Entrypoint Pubkey Digest)) :
    Machine (Chain Pubkey Digest) (WireCall Pubkey World) (ε ⊕ Failure)
      (Output Pubkey Digest World) :=
  program.behind (WireCall.decode front)

/-! ### Sample keys -/

namespace Sample

/-- A number as the bytes of a key. -/
def walletBytes (n : ℕ) : Vector UInt8 32 := ⟨(leBytes 32 n).toArray, length_leBytes 32 n⟩

theorem walletBytes_eq_iff {n : ℕ} {v : Vector UInt8 32} :
    (if n < 256 ^ 32 then some (walletBytes n) else none) = some v ↔ leNat v.toList = n := by
  have hlt := leNat_lt v.toList
  rw [Vector.length_toList] at hlt
  constructor
  · intro h
    split_ifs at h with hn
    cases h
    exact leNat_leBytes_of_lt hn
  · rintro rfl
    rw [if_pos hlt, Option.some.injEq, ← Vector.toList_inj]
    exact leBytes_leNat v.length_toList

/-- Wallets by the 32 bytes of their number. -/
def walletKey : Codec UInt8 Sym :=
  (Codec.array 32).via
    { toFun := fun v => some (.wallet (leNat v.toList))
      invFun := fun
        | .wallet n => if n < 256 ^ 32 then some (walletBytes n) else none
        | _ => none
      inv := fun v k => by
        cases k with
        | wallet n =>
          show _ = some v ↔ some (Sym.wallet _) = some (.wallet n)
          rw [walletBytes_eq_iff, Option.some.injEq, Sym.wallet.injEq]
        | _ => simp }

/-- The sample round has the bytes that the last wallet would have. -/
instance : KeyCodec Sym := ⟨walletKey.iso (Equiv.swap (.wallet (256 ^ 32 - 1)) round)⟩

end Sample

end Ghos
