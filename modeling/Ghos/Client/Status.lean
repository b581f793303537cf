import Ghos.Lib.Tlv
import Ghos.Client.AccountData
import Ghos.Client.ElGamal

/-!
# The balance that `ghos status` reads

A token account has 165 bytes, the byte `2` for its type, and the extensions with their tags and
lengths.  `_read_confidential_balance` of `cli/ghos_cli/commands/status.py` looks for an extension
with the tag `4`, and takes the balances from the start of its payload.  The confidential transfer
extension has the tag `5`, and a flag, a key and the two halves of the pending balance come first.

* `readConfidentialBalance_eq_iff`: the balances are read only if another extension holds them.
-/

namespace Ghos

/-! ### Token accounts -/

/-- The payload of the confidential transfer extension. -/
structure ConfidentialTransferAccount where
  approved : UInt8
  elgamalPubkey : Vector UInt8 32
  pendingBalanceLo : Vector UInt8 64
  pendingBalanceHi : Vector UInt8 64
  availableBalance : Vector UInt8 64
  rest : List UInt8
  length_lt : 225 + rest.length < 256 ^ 2

/-- `ExtensionType::ConfidentialTransferAccount`. -/
def confidentialTransferTag : ℕ := 5

def ConfidentialTransferAccount.payload (cta : ConfidentialTransferAccount) : List UInt8 :=
  [cta.approved] ++ cta.elgamalPubkey.toList ++ cta.pendingBalanceLo.toList ++
    cta.pendingBalanceHi.toList ++ cta.availableBalance.toList ++ cta.rest

def ConfidentialTransferAccount.record (cta : ConfidentialTransferAccount) : Tlv.Record where
  tag := confidentialTransferTag
  payload := cta.payload
  tag_lt := by decide
  length_lt := by
    have hlt := cta.length_lt
    simp only [payload, List.length_append, List.length_cons, List.length_nil, Vector.length_toList]
    omega

/-- A token account with one confidential transfer extension among others. -/
structure ConfidentialAccount where
  base : Vector UInt8 165
  before : List Tlv.Record
  confidential : ConfidentialTransferAccount
  after : List Tlv.Record
  tag_ne : ∀ r ∈ before ++ after, r.tag ≠ confidentialTransferTag

/-- The data of the account. -/
def ConfidentialAccount.data (account : ConfidentialAccount) : List UInt8 :=
  account.base.toList ++ 2 ::
    Tlv.encode (account.before ++ account.confidential.record :: account.after)

/-! ### The command -/

namespace Cli

/-- The two points of a ciphertext. -/
def halves (data : List UInt8) : ElGamalCiphertext := ⟨data.take 32, data.drop 32⟩

/-- `Ciphertext.from_bytes`. -/
def ciphertextFromBytes (data : List UInt8) : Except Error ElGamalCiphertext := do
  throwUnless (data.length = 64) (.cryptoError s!"Ciphertext must be 64 bytes, got {data.length}")
  return halves data

/-- The `try` statement: what is parsed before an exception is kept. -/
def parseBalances (data : List UInt8) (payloadStart : ℕ) :
    Option ElGamalCiphertext × Option ElGamalCiphertext :=
  match ciphertextFromBytes ((data.drop payloadStart).take 64) with
  | .error _ => (none, none)
  | .ok pending =>
    match ciphertextFromBytes ((data.drop (payloadStart + 64)).take 64) with
    | .error _ => (none, some pending)
    | .ok available => (some available, some pending)

/-- The walk over the extensions: the available and the pending balance. -/
def extensionLoop (data : List UInt8) (cursor : ℕ) :
    Option ElGamalCiphertext × Option ElGamalCiphertext :=
  if _h : cursor + 4 ≤ data.length then
    let extType := Tlv.peek data cursor
    let extLen := Tlv.peek data (cursor + 2)
    let payloadStart := cursor + 4
    let payloadEnd := payloadStart + extLen
    if data.length < payloadEnd then (none, none)
    else if extType = 4 ∧ 128 ≤ extLen then parseBalances data payloadStart
    else extensionLoop data payloadEnd
  else (none, none)
termination_by data.length - cursor

/-- What `_read_confidential_balance` makes of an account. -/
def accountBalances : Option (List UInt8) → Option ElGamalCiphertext × Option ElGamalCiphertext
  | none => (none, none)
  | some data =>
    if data.length ≤ 165 then (none, none)
    else if data.getD 165 0 ≠ 2 then (none, none)
    else extensionLoop data 166

section Fetch

variable {Pubkey RpcError : Type} [Sdk.KeyBytes Pubkey] (fromString : String → Pubkey)
  (findProgramAddress : List (List UInt8) → Pubkey → Pubkey × UInt8)
  (getAccount : Pubkey → Except RpcError (Option (List UInt8)))

/-- The canonical token account of an owner. -/
def associatedTokenAddress (owner mint : Pubkey) : Pubkey :=
  let tokenProgram := fromString "TokenzQdBNbLqP5VEhdkAS6EPFLC1PHnBqCXEpPxuEb"
  let ataProgram := fromString "ATokenGPvbdGVxr1b2hvZbsiqW5xWH25efTNsLJA8knL"
  (findProgramAddress [keyBytes owner, keyBytes tokenProgram, keyBytes mint] ataProgram).1

/-- Return the available and the pending balance of the owner's confidential extension. -/
def readConfidentialBalance (owner mint : Pubkey) :
    Except RpcError (Option ElGamalCiphertext × Option ElGamalCiphertext) := do
  let account ← getAccount (associatedTokenAddress fromString findProgramAddress owner mint)
  return accountBalances account

end Fetch

/-! ### The extension that is found -/

/-- The extensions that the command looks for. -/
def balanceWanted (extType extLen : ℕ) : Bool := decide (extType = 4 ∧ 128 ≤ extLen)

theorem extensionLoop_eq (data : List UInt8) (cursor : ℕ) :
    extensionLoop data cursor =
      match Tlv.find balanceWanted data cursor with
      | none => (none, none)
      | some payloadStart => parseBalances data payloadStart := by
  fun_induction extensionLoop data cursor with
  | case1 cursor h _ _ _ hcut =>
    rw [Tlv.find, dif_pos h]
    dsimp only
    rw [if_pos hcut]
  | case2 cursor h extType extLen payloadStart payloadEnd hfits hwanted =>
    have hwanted : balanceWanted (Tlv.peek data cursor) (Tlv.peek data (cursor + 2)) = true :=
      decide_eq_true hwanted
    rw [Tlv.find, dif_pos h]
    dsimp only
    rw [if_neg hfits, if_pos hwanted]
  | case3 cursor h extType extLen payloadStart payloadEnd hfits hwanted ih =>
    have hwanted : ¬ balanceWanted (Tlv.peek data cursor) (Tlv.peek data (cursor + 2)) = true :=
      fun hwant => hwanted (of_decide_eq_true hwant)
    rw [Tlv.find, dif_pos h]
    dsimp only
    rw [if_neg hfits, if_neg hwanted]
    exact ih
  | case4 cursor h =>
    rw [Tlv.find, dif_neg h]

theorem halves_injective : Function.Injective halves := by
  intro b c h
  rw [halves, halves, ElGamalCiphertext.mk.injEq] at h
  rw [← List.take_append_drop 32 b, ← List.take_append_drop 32 c, h.1, h.2]

theorem ciphertextFromBytes_eq {b : List UInt8} (hb : b.length = 64) :
    ciphertextFromBytes b = .ok (halves b) := by
  rw [ciphertextFromBytes, throwUnless, if_pos hb]
  rfl

/-- The balances of a wanted extension are the first 128 bytes of its payload. -/
theorem parseBalances_eq {data payload suffix : List UInt8} {start : ℕ}
    (hlen : 128 ≤ payload.length) (h : data.drop start = payload ++ suffix) :
    parseBalances data start =
      (some (halves ((payload.drop 64).take 64)), some (halves (payload.take 64))) := by
  have hfirst : (data.drop start).take 64 = payload.take 64 := by
    rw [h, List.take_append_of_le_length (by omega)]
  have hsecond : (data.drop (start + 64)).take 64 = (payload.drop 64).take 64 := by
    rw [← List.drop_drop, h, List.drop_append_of_le_length (by omega),
      List.take_append_of_le_length (by rw [List.length_drop]; omega)]
  have hpending : (payload.take 64).length = 64 := by rw [List.length_take]; omega
  have havailable : ((payload.drop 64).take 64).length = 64 := by
    rw [List.length_take, List.length_drop]
    omega
  simp only [parseBalances, hfirst, hsecond, ciphertextFromBytes_eq hpending,
    ciphertextFromBytes_eq havailable]

/-- The balances in the first record with the tag `4` and at least 128 bytes. -/
def firstBalances (records : List Tlv.Record) :
    Option ElGamalCiphertext × Option ElGamalCiphertext :=
  match records.find? fun r => decide (r.tag = 4 ∧ 128 ≤ r.payload.length) with
  | some r => (some (halves (r.payload.extract 64 128)), some (halves (r.payload.extract 0 64)))
  | none => (none, none)

theorem firstBalances_eq (records : List Tlv.Record) :
    firstBalances records =
      match records.find? (Tlv.Record.Wanted balanceWanted) with
      | none => (none, none)
      | some r =>
        (some (halves ((r.payload.drop 64).take 64)), some (halves (r.payload.take 64))) := by
  have hwanted : (fun r : Tlv.Record => decide (r.tag = 4 ∧ 128 ≤ r.payload.length)) =
      Tlv.Record.Wanted balanceWanted := rfl
  rw [firstBalances, hwanted]
  cases records.find? (Tlv.Record.Wanted balanceWanted) <;> rfl

theorem le_length_of_find {records : List Tlv.Record} {r : Tlv.Record}
    (h : records.find? (Tlv.Record.Wanted balanceWanted) = some r) : 128 ≤ r.payload.length :=
  (of_decide_eq_true (List.find?_some h : r.Wanted balanceWanted = true)).2

/-- Over records and something that is no record, the walk finds the first wanted one. -/
theorem extensionLoop_records {data rest : List UInt8} {cursor : ℕ} {records : List Tlv.Record}
    (hrest : Tlv.CutOff rest) (h : data.drop cursor = Tlv.encode records ++ rest) :
    extensionLoop data cursor = firstBalances records := by
  have hfind := @Tlv.find_records balanceWanted _ _ _ _ hrest h
  rw [extensionLoop_eq, firstBalances_eq]
  cases hr : records.find? (Tlv.Record.Wanted balanceWanted) with
  | none =>
    rw [hr] at hfind
    rw [hfind]
  | some r =>
    rw [hr] at hfind
    obtain ⟨start, suffix, hstart, hdrop⟩ := hfind
    rw [hstart]
    exact parseBalances_eq (le_length_of_find hr) hdrop

end Cli

namespace ConfidentialAccount

variable (account : ConfidentialAccount)

theorem data_eq : account.data = (account.base.toList ++ [2]) ++
    Tlv.encode (account.before ++ account.confidential.record :: account.after) := by
  rw [data, List.append_assoc]
  rfl

/-- The first extension starts at `166`. -/
theorem drop_data : account.data.drop 166 =
    Tlv.encode (account.before ++ account.confidential.record :: account.after) := by
  rw [data_eq, List.drop_left' (by simp)]

theorem accountBalances_data :
    Cli.accountBalances (some account.data) = Cli.extensionLoop account.data 166 := by
  have hlen : ¬ account.data.length ≤ 165 := by simp [data_eq]
  have htype : account.data.getD 165 0 = 2 := by
    rw [data, List.getD_eq_getElem?_getD, List.getElem?_append_right (by simp)]
    simp
  rw [Cli.accountBalances, if_neg hlen, if_neg (not_not.2 htype)]

/-- The command passes over the confidential transfer extension. -/
theorem find_records :
    (account.before ++ account.confidential.record :: account.after).find?
        (Tlv.Record.Wanted Cli.balanceWanted) =
      (account.before ++ account.after).find? (Tlv.Record.Wanted Cli.balanceWanted) := by
  have hpass : account.confidential.record.Wanted Cli.balanceWanted = false := rfl
  rw [List.find?_append, List.find?_append, List.find?_cons, hpass]

/-- The available and the pending balance of the account. -/
def balances : Option ElGamalCiphertext × Option ElGamalCiphertext :=
  (some (Cli.halves account.confidential.availableBalance.toList),
    some (Cli.halves account.confidential.pendingBalanceLo.toList))

/-- The first extension with the tag `4` and at least 128 bytes starts with the two balances. -/
def Mirrored : Prop :=
  ∃ r, (account.before ++ account.after).find? (Tlv.Record.Wanted Cli.balanceWanted) = some r ∧
    r.payload.take 128 = account.confidential.pendingBalanceLo.toList ++
      account.confidential.availableBalance.toList

theorem accountBalances_eq_iff :
    Cli.accountBalances (some account.data) = account.balances ↔ account.Mirrored := by
  have hloop := Cli.extensionLoop_records Tlv.cutOff_nil
    (account.drop_data.trans (List.append_nil _).symm)
  rw [account.accountBalances_data, hloop, Cli.firstBalances_eq, account.find_records, Mirrored]
  cases hr : (account.before ++ account.after).find? (Tlv.Record.Wanted Cli.balanceWanted) with
  | none => simp [balances]
  | some r =>
    have hlen := Cli.le_length_of_find hr
    have hsplit : r.payload.take 128 = r.payload.take 64 ++ (r.payload.drop 64).take 64 :=
      List.take_add (i := 64) (j := 64)
    simp only [balances, Prod.mk.injEq, Option.some.injEq, Cli.halves_injective.eq_iff,
      exists_eq_left']
    rw [hsplit]
    constructor
    · rintro ⟨havailable, hpending⟩
      rw [havailable, hpending]
    · intro h
      obtain ⟨hpending, havailable⟩ := List.append_inj h (by simp; omega)
      exact ⟨havailable, hpending⟩

end ConfidentialAccount

/-! ### The balances of an owner -/

section Fetch

variable {Pubkey RpcError : Type} [Sdk.KeyBytes Pubkey] {fromString : String → Pubkey}
  {findProgramAddress : List (List UInt8) → Pubkey → Pubkey × UInt8}
  {getAccount : Pubkey → Except RpcError (Option (List UInt8))}

/-- The command reads the balances of an account only if another extension, with the tag `4`,
happens to start with them. -/
theorem Cli.readConfidentialBalance_eq_iff {owner mint : Pubkey} {account : ConfidentialAccount}
    (h : getAccount (associatedTokenAddress fromString findProgramAddress owner mint) =
      .ok (some account.data)) :
    readConfidentialBalance fromString findProgramAddress getAccount owner mint =
      .ok account.balances ↔ account.Mirrored := by
  rw [readConfidentialBalance, h]
  show Except.ok (accountBalances (some account.data)) = _ ↔ _
  rw [Except.ok.injEq, account.accountBalances_eq_iff]

end Fetch

namespace Sample

/-- An account that holds nothing but the confidential transfer extension. -/
def confidentialAccount : ConfidentialAccount where
  base := .replicate 165 0
  before := []
  confidential :=
    { approved := 1
      elgamalPubkey := .replicate 32 2
      pendingBalanceLo := .replicate 64 4
      pendingBalanceHi := .replicate 64 6
      availableBalance := .replicate 64 8
      rest := List.replicate 70 0
      length_lt := by decide }
  after := []
  tag_ne := by simp

/-- Every address of the cluster holds the account. -/
def statusRead : Except Empty (Option ElGamalCiphertext × Option ElGamalCiphertext) :=
  Cli.readConfidentialBalance (fun _ => Sym.wallet 1) (fun _ _ => (Sym.wallet 2, 255))
    (fun _ => .ok (some confidentialAccount.data)) (Sym.wallet 3) (Sym.wallet 4)

end Sample

theorem Cli.readConfidentialBalance_eq_iff_sample :
    Sample.statusRead = .ok Sample.confidentialAccount.balances ↔
      Sample.confidentialAccount.Mirrored :=
  Cli.readConfidentialBalance_eq_iff rfl

/-- The command finds no balance in the account. -/
theorem Cli.not_readConfidentialBalance : Sample.statusRead = .ok (none, none) ∧
    Sample.statusRead ≠ .ok Sample.confidentialAccount.balances := by
  have hnone : Sample.statusRead = .ok (none, none) := by
    show Except.ok (accountBalances (some Sample.confidentialAccount.data)) = _
    rw [ConfidentialAccount.accountBalances_data, extensionLoop_eq]
    decide +kernel
  refine ⟨hnone, ?_⟩
  rw [hnone]
  simp [ConfidentialAccount.balances]

end Ghos
