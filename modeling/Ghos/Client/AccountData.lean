import Ghos.Lib.Cursor
import Ghos.Client.Pdas

/-!
# Accounts as the CLI parses them

The program writes an account as eight bytes of discriminator and the Borsh encoding of its fields.
`_parse_mix_round`, `_parse_auditor_entry` and `_parse_burner_account` read the fields back with a
cursor (`accountParsers_invert`).
-/

namespace Ghos

open Sdk (KeyBytes)

variable {Pubkey : Type} [KeyBytes Pubkey]

/-! ### The program -/

/-- Borsh writes the index of the variant. -/
def MixPhase.toByte : MixPhase → UInt8
  | .open => 0
  | .commit => 1
  | .reveal => 2
  | .settling => 3
  | .settled => 4
  | .aborted => 5

/-- The bytes of a key. -/
def keyBytes (k : Pubkey) : List UInt8 := (KeyBytes.toBytes k).toList

/-- The fields in the order of their declaration. -/
def MixRound.borsh (round : MixRound Pubkey) : List UInt8 :=
  [keyBytes round.mint, round.denomination.toLeBytes, keyBytes round.host, [round.capacity],
    [round.committed], [round.revealed], [round.phase.toByte], round.openedAt.toLeBytes,
    round.commitCloseAt.toLeBytes, round.revealCloseAt.toLeBytes, round.settledAt.toLeBytes,
    [round.bump], round.reserved.toList].flatten

def AuditorEntry.borsh (entry : AuditorEntry Pubkey) : List UInt8 :=
  [keyBytes entry.mint, entry.auditorPubkey.toList, entry.registeredAt.toLeBytes,
    entry.lastRotatedAt.toLeBytes, entry.rotationCooldown.toLeBytes, keyBytes entry.admin,
    [entry.bump], entry.reserved.toList].flatten

def BurnerAccount.borsh (account : BurnerAccount Pubkey) : List UInt8 :=
  [keyBytes account.owner, keyBytes account.burnerPubkey, account.createdAt.toLeBytes,
    account.expiresAt.toLeBytes, account.nonce.toLeBytes, [account.revoked.toUInt8],
    leBytes 4 account.usageCount.toNat, [account.bump], account.reserved.toList].flatten

/-- `MixRound::LEN` -/
def MixRound.len : ℕ := 8 + 32 + 8 + 32 + 1 + 1 + 1 + 1 + 8 * 4 + 1 + 32

/-- `AuditorEntry::LEN` -/
def AuditorEntry.len : ℕ := 8 + 32 + 32 + 8 + 8 + 8 + 32 + 1 + 16

/-- `BurnerAccount::LEN` -/
def BurnerAccount.len : ℕ := 8 + 32 + 32 + 8 + 8 + 8 + 1 + 4 + 1 + 16

/-- The data of an account. -/
def accountData (discriminator : Vector UInt8 8) (borsh : List UInt8) : List UInt8 :=
  discriminator.toList ++ borsh

/-! ### The parsers -/

namespace Cli

/-- What a parser raises. -/
inductive ParseError
  | notFoundError (message : String)
  | structError
  | indexError
  deriving DecidableEq

/-- `bytes(data[cursor : cursor + n])`, which may be short. -/
def sliceBytes (n : ℕ) : Cursor ParseError (List UInt8) := .window n

/-- `data[cursor]`. -/
def byteAt : Cursor ParseError ℕ := leNat <$> .exactly 1 .indexError

/-- `struct.unpack_from("<I", data, cursor)`. -/
def unpackU32 : Cursor ParseError ℕ := leNat <$> .exactly 4 .structError

/-- `struct.unpack_from("<Q", data, cursor)`. -/
def unpackU64 : Cursor ParseError ℕ := leNat <$> .exactly 8 .structError

/-- `struct.unpack_from("<q", data, cursor)`. -/
def unpackI64 : Cursor ParseError ℤ := leInt <$> .exactly 8 .structError

/-- Check the length, and read the fields behind the discriminator. -/
def parseAccount {α : Type} (what : String) (expected : ℕ) (fields : Cursor ParseError α)
    (data : List UInt8) : Except ParseError α := do
  throwUnless (expected ≤ data.length)
    (.notFoundError s!"{what} data too short: {data.length} bytes")
  (fields.run data).run' 8

/-- What `_parse_mix_round` returns. -/
structure ParsedMixRound where
  mint : List UInt8
  denomination : ℕ
  host : List UInt8
  capacity : ℕ
  committed : ℕ
  revealed : ℕ
  phase : ℕ
  openedAt : ℤ
  commitCloseAt : ℤ
  revealCloseAt : ℤ
  settledAt : ℤ
  bump : ℕ
  deriving DecidableEq

def mixRoundFields : Cursor ParseError ParsedMixRound := do
  let mint ← sliceBytes 32
  let denomination ← unpackU64
  let host ← sliceBytes 32
  let capacity ← byteAt
  let committed ← byteAt
  let revealed ← byteAt
  let phase ← byteAt
  let openedAt ← unpackI64
  let commitCloseAt ← unpackI64
  let revealCloseAt ← unpackI64
  let settledAt ← unpackI64
  let bump ← byteAt
  return ⟨mint, denomination, host, capacity, committed, revealed, phase, openedAt, commitCloseAt,
    revealCloseAt, settledAt, bump⟩

def parseMixRound : List UInt8 → Except ParseError ParsedMixRound :=
  parseAccount "mix round account" (8 + 32 + 8 + 32 + 1 + 1 + 1 + 1 + 8 + 8 + 8 + 8 + 1 + 32)
    mixRoundFields

/-- What `_parse_auditor_entry` returns. -/
structure ParsedAuditorEntry where
  mint : List UInt8
  auditorPubkey : List UInt8
  registeredAt : ℤ
  lastRotatedAt : ℤ
  rotationCooldown : ℤ
  admin : List UInt8
  bump : ℕ
  deriving DecidableEq

def auditorEntryFields : Cursor ParseError ParsedAuditorEntry := do
  let mint ← sliceBytes 32
  let auditorPubkey ← sliceBytes 32
  let registeredAt ← unpackI64
  let lastRotatedAt ← unpackI64
  let rotationCooldown ← unpackI64
  let admin ← sliceBytes 32
  let bump ← byteAt
  return ⟨mint, auditorPubkey, registeredAt, lastRotatedAt, rotationCooldown, admin, bump⟩

def parseAuditorEntry : List UInt8 → Except ParseError ParsedAuditorEntry :=
  parseAccount "auditor entry" (8 + 32 + 32 + 8 + 8 + 8 + 32 + 1 + 16) auditorEntryFields

/-- What `_parse_burner_account` returns. -/
structure ParsedBurnerAccount where
  owner : List UInt8
  burnerPubkey : List UInt8
  createdAt : ℤ
  expiresAt : ℤ
  nonce : ℕ
  revoked : Bool
  usageCount : ℕ
  bump : ℕ
  deriving DecidableEq

def burnerAccountFields : Cursor ParseError ParsedBurnerAccount := do
  let owner ← sliceBytes 32
  let burnerPubkey ← sliceBytes 32
  let createdAt ← unpackI64
  let expiresAt ← unpackI64
  let nonce ← unpackU64
  let revoked ← byteAt
  let usageCount ← unpackU32
  let bump ← byteAt
  return ⟨owner, burnerPubkey, createdAt, expiresAt, nonce, revoked ≠ 0, usageCount, bump⟩

def parseBurnerAccount : List UInt8 → Except ParseError ParsedBurnerAccount :=
  parseAccount "burner account" (8 + 32 + 32 + 8 + 8 + 8 + 1 + 4 + 1 + 16) burnerAccountFields

/-! ### The values of the fields -/

def ParsedMixRound.ofAccount (round : MixRound Pubkey) : ParsedMixRound where
  mint := keyBytes round.mint
  denomination := round.denomination.toNat
  host := keyBytes round.host
  capacity := round.capacity.toNat
  committed := round.committed.toNat
  revealed := round.revealed.toNat
  phase := round.phase.toByte.toNat
  openedAt := round.openedAt.toInt
  commitCloseAt := round.commitCloseAt.toInt
  revealCloseAt := round.revealCloseAt.toInt
  settledAt := round.settledAt.toInt
  bump := round.bump.toNat

def ParsedAuditorEntry.ofAccount (entry : AuditorEntry Pubkey) : ParsedAuditorEntry where
  mint := keyBytes entry.mint
  auditorPubkey := entry.auditorPubkey.toList
  registeredAt := entry.registeredAt.toInt
  lastRotatedAt := entry.lastRotatedAt.toInt
  rotationCooldown := entry.rotationCooldown.toInt
  admin := keyBytes entry.admin
  bump := entry.bump.toNat

def ParsedBurnerAccount.ofAccount (account : BurnerAccount Pubkey) : ParsedBurnerAccount where
  owner := keyBytes account.owner
  burnerPubkey := keyBytes account.burnerPubkey
  createdAt := account.createdAt.toInt
  expiresAt := account.expiresAt.toInt
  nonce := account.nonce.toNat
  revoked := account.revoked
  usageCount := account.usageCount.toNat
  bump := account.bump.toNat

open Cursor

section Reads

theorem yields_key (k : Pubkey) : Yields (sliceBytes 32) (keyBytes k) (keyBytes k) :=
  yields_window Vector.length_toList

theorem yields_byteAt (b : UInt8) : Yields byteAt [b] b.toNat := by
  rw [← leNat_singleton]
  exact (yields_exactly rfl _).map leNat

theorem yields_unpackU32 (x : UInt32) : Yields unpackU32 (leBytes 4 x.toNat) x.toNat := by
  have hx : leNat (leBytes 4 x.toNat) = x.toNat := leNat_leBytes_of_lt x.toNat_lt
  have hread := (yields_exactly (length_leBytes 4 x.toNat) ParseError.structError).map leNat
  rwa [hx] at hread

theorem yields_unpackU64 (x : UInt64) : Yields unpackU64 x.toLeBytes x.toNat := by
  rw [← x.leNat_toLeBytes]
  exact (yields_exactly x.length_toLeBytes _).map leNat

theorem yields_unpackI64 (x : Int64) : Yields unpackI64 x.toLeBytes x.toInt := by
  rw [← x.leInt_toLeBytes]
  exact (yields_exactly x.length_toLeBytes _).map leInt

theorem consumes_byteAt : Consumes byteAt 1 := (consumes_exactly 1 _).map leNat

theorem consumes_unpackU32 : Consumes unpackU32 4 := (consumes_exactly 4 _).map leNat

theorem consumes_unpackU64 : Consumes unpackU64 8 := (consumes_exactly 8 _).map leNat

theorem consumes_unpackI64 : Consumes unpackI64 8 := (consumes_exactly 8 _).map leInt

end Reads

/-! ### Mix rounds -/

theorem parses_mixRoundFields (round : MixRound Pubkey) :
    Parses mixRoundFields round.borsh (.ofAccount round) := by
  refine (yields_key _).bind_parses ?_
  refine (yields_unpackU64 _).bind_parses ?_
  refine (yields_key _).bind_parses ?_
  refine (yields_byteAt _).bind_parses ?_
  refine (yields_byteAt _).bind_parses ?_
  refine (yields_byteAt _).bind_parses ?_
  refine (yields_byteAt _).bind_parses ?_
  refine (yields_unpackI64 _).bind_parses ?_
  refine (yields_unpackI64 _).bind_parses ?_
  refine (yields_unpackI64 _).bind_parses ?_
  refine (yields_unpackI64 _).bind_parses ?_
  refine (yields_byteAt _).bind_parses ?_
  exact parses_pure _ _

theorem consumes_mixRoundFields : Consumes mixRoundFields 109 := by
  refine (consumes_window 32).bind fun _ => ?_
  refine consumes_unpackU64.bind fun _ => ?_
  refine (consumes_window 32).bind fun _ => ?_
  refine consumes_byteAt.bind fun _ => ?_
  refine consumes_byteAt.bind fun _ => ?_
  refine consumes_byteAt.bind fun _ => ?_
  refine consumes_byteAt.bind fun _ => ?_
  refine consumes_unpackI64.bind fun _ => ?_
  refine consumes_unpackI64.bind fun _ => ?_
  refine consumes_unpackI64.bind fun _ => ?_
  refine consumes_unpackI64.bind fun _ => ?_
  exact consumes_byteAt.bind fun _ => consumes_pure _

/-! ### Auditor entries -/

theorem parses_auditorEntryFields (entry : AuditorEntry Pubkey) :
    Parses auditorEntryFields entry.borsh (.ofAccount entry) := by
  refine (yields_key _).bind_parses ?_
  refine (yields_window Vector.length_toList).bind_parses ?_
  refine (yields_unpackI64 _).bind_parses ?_
  refine (yields_unpackI64 _).bind_parses ?_
  refine (yields_unpackI64 _).bind_parses ?_
  refine (yields_key _).bind_parses ?_
  refine (yields_byteAt _).bind_parses ?_
  exact parses_pure _ _

theorem consumes_auditorEntryFields : Consumes auditorEntryFields 121 := by
  refine (consumes_window 32).bind fun _ => ?_
  refine (consumes_window 32).bind fun _ => ?_
  refine consumes_unpackI64.bind fun _ => ?_
  refine consumes_unpackI64.bind fun _ => ?_
  refine consumes_unpackI64.bind fun _ => ?_
  refine (consumes_window 32).bind fun _ => ?_
  exact consumes_byteAt.bind fun _ => consumes_pure _

/-! ### Burner accounts -/

theorem parses_burnerAccountFields (account : BurnerAccount Pubkey) :
    Parses burnerAccountFields account.borsh (.ofAccount account) := by
  refine (yields_key _).bind_parses ?_
  refine (yields_key _).bind_parses ?_
  refine (yields_unpackI64 _).bind_parses ?_
  refine (yields_unpackI64 _).bind_parses ?_
  refine (yields_unpackU64 _).bind_parses ?_
  refine (yields_byteAt _).bind_parses ?_
  refine (yields_unpackU32 _).bind_parses ?_
  refine (yields_byteAt _).bind_parses ?_
  have hrevoked : decide (account.revoked.toUInt8.toNat ≠ 0) = account.revoked := by
    cases account.revoked <;> rfl
  rw [hrevoked]
  exact parses_pure _ _

theorem consumes_burnerAccountFields : Consumes burnerAccountFields 94 := by
  refine (consumes_window 32).bind fun _ => ?_
  refine (consumes_window 32).bind fun _ => ?_
  refine consumes_unpackI64.bind fun _ => ?_
  refine consumes_unpackI64.bind fun _ => ?_
  refine consumes_unpackU64.bind fun _ => ?_
  refine consumes_byteAt.bind fun _ => ?_
  refine consumes_unpackU32.bind fun _ => ?_
  exact consumes_byteAt.bind fun _ => consumes_pure _

/-! ### The round trip -/

/-- A parser undoes the serialisation of an account, and refuses what is shorter. -/
structure Inverts {Account Parsed : Type} (borsh : Account → List UInt8) (len : ℕ)
    (parse : List UInt8 → Except ParseError Parsed) (reported : Account → Parsed) : Prop where
  length : ∀ discriminator account, (accountData discriminator (borsh account)).length = len
  parses : ∀ discriminator account trailing,
    parse (accountData discriminator (borsh account) ++ trailing) = .ok (reported account)
  short : ∀ data, data.length < len → ∃ message, parse data = .error (.notFoundError message)
  inRange : ∀ data, len ≤ data.length → ∃ parsed, parse data = .ok parsed

theorem parseAccount_inverts {Account Parsed : Type} {borsh : Account → List UInt8} {len n : ℕ}
    {fields : Cursor ParseError Parsed} {reported : Account → Parsed} (what : String)
    (hlen : ∀ account, (borsh account).length + 8 = len)
    (hparses : ∀ account, Parses fields (borsh account) (reported account))
    (hconsumes : Consumes fields n) (hn : 8 + n ≤ len) :
    Inverts borsh len (parseAccount what len fields) reported where
  length discriminator account := by
    rw [accountData, List.length_append, Vector.length_toList, ← hlen account, Nat.add_comm]
  parses discriminator account trailing := by
    have hdata : (accountData discriminator (borsh account) ++ trailing).drop 8 =
        borsh account ++ trailing := by
      rw [accountData, List.append_assoc, List.drop_left' discriminator.length_toList]
    have hlong : len ≤ (accountData discriminator (borsh account) ++ trailing).length := by
      rw [accountData, List.length_append, List.length_append, Vector.length_toList,
        ← hlen account]
      omega
    rw [parseAccount, throwUnless, if_pos hlong]
    exact (hparses account).run' hdata
  short data hdata := by
    rw [parseAccount, throwUnless, if_neg (by omega)]
    exact ⟨_, rfl⟩
  inRange data hdata := by
    rw [parseAccount, throwUnless, if_pos hdata]
    exact hconsumes.run' (by omega)

theorem mixRound_inverts :
    Inverts (MixRound.borsh : MixRound Pubkey → _) MixRound.len parseMixRound .ofAccount := by
  refine parseAccount_inverts _ ?_ parses_mixRoundFields consumes_mixRoundFields (by decide)
  intro round
  simp [MixRound.borsh, MixRound.len, keyBytes]

theorem burnerAccount_inverts :
    Inverts (BurnerAccount.borsh : BurnerAccount Pubkey → _) BurnerAccount.len parseBurnerAccount
      .ofAccount := by
  refine parseAccount_inverts _ ?_ parses_burnerAccountFields consumes_burnerAccountFields
    (by decide)
  intro account
  simp [BurnerAccount.borsh, BurnerAccount.len, keyBytes, length_leBytes]

/-- The parsers of the CLI undo the serialisation of the program. -/
theorem accountParsers_invert :
    Inverts (MixRound.borsh : MixRound Pubkey → _) MixRound.len parseMixRound .ofAccount ∧
      Inverts (AuditorEntry.borsh : AuditorEntry Pubkey → _) AuditorEntry.len parseAuditorEntry
        .ofAccount ∧
      Inverts (BurnerAccount.borsh : BurnerAccount Pubkey → _) BurnerAccount.len parseBurnerAccount
        .ofAccount := by
  refine ⟨mixRound_inverts, ?_, burnerAccount_inverts⟩
  refine parseAccount_inverts _ ?_ parses_auditorEntryFields consumes_auditorEntryFields
    (by decide)
  intro entry
  simp [AuditorEntry.borsh, AuditorEntry.len, keyBytes]

end Cli

end Ghos
