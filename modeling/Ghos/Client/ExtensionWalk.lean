import Ghos.Client.Status

/-!
# The walk over the extensions of an account

The part of `_read_confidential_balance` of `cli/ghos_cli/commands/status.py` after the fetch, with
the reads of Python, which raise outside the buffer.  The bytes come from the cluster and may be
anything.

* `readBalances_eq`: no read leaves the buffer, so the walk is `accountBalances`;
* `readBalances_spec`: the balances are those of the first wanted record, if there is one.
-/

namespace Ghos

namespace Cli

/-- `data[i]`. -/
def getByte (data : List UInt8) (i : ℕ) : Except ParseError UInt8 :=
  match data[i]? with
  | some b => .ok b
  | none => .error .indexError

/-- `struct.unpack_from("<H", data, offset)[0]`. -/
def unpackFrom (data : List UInt8) (offset : ℕ) : Except ParseError ℕ :=
  if offset + 2 ≤ data.length then .ok (Tlv.peek data offset) else .error .structError

/-- The loop over the extensions. -/
def walkExtensions (data : List UInt8) (cursor : ℕ) :
    Except ParseError (Option ElGamalCiphertext × Option ElGamalCiphertext) :=
  if _h : cursor + 4 ≤ data.length then do
    let extType ← unpackFrom data cursor
    let extLen ← unpackFrom data (cursor + 2)
    let payloadStart := cursor + 4
    let payloadEnd := payloadStart + extLen
    if data.length < payloadEnd then return (none, none)
    else if extType = 4 ∧ 128 ≤ extLen then return parseBalances data payloadStart
    else walkExtensions data payloadEnd
  else return (none, none)
termination_by data.length - cursor

/-- `_read_confidential_balance`, from the data of the account on. -/
def readBalances (data : List UInt8) :
    Except ParseError (Option ElGamalCiphertext × Option ElGamalCiphertext) := do
  if data.length ≤ 165 then return (none, none)
  let accountType ← getByte data 165
  if accountType ≠ 2 then return (none, none)
  walkExtensions data 166

variable {data : List UInt8} {cursor : ℕ}

/-! ### The reads stay inside -/

theorem unpackFrom_eq {offset : ℕ} (h : offset + 2 ≤ data.length) :
    unpackFrom data offset = .ok (Tlv.peek data offset) := if_pos h

/-- A turn of the loop, with the reads carried out. -/
theorem walkExtensions_of_le (h : cursor + 4 ≤ data.length) :
    walkExtensions data cursor =
      if data.length < cursor + 4 + Tlv.peek data (cursor + 2) then .ok (none, none)
      else if Tlv.peek data cursor = 4 ∧ 128 ≤ Tlv.peek data (cursor + 2) then
        .ok (parseBalances data (cursor + 4))
      else walkExtensions data (cursor + 4 + Tlv.peek data (cursor + 2)) := by
  rw [walkExtensions, dif_pos h, unpackFrom_eq (by omega), unpackFrom_eq (by omega)]
  rfl

theorem walkExtensions_eq (data : List UInt8) (cursor : ℕ) :
    walkExtensions data cursor = .ok (extensionLoop data cursor) := by
  fun_induction extensionLoop data cursor with
  | case1 cursor h _ _ _ hcut =>
    rw [walkExtensions_of_le h, if_pos hcut]
  | case2 cursor h extType extLen payloadStart payloadEnd hfits hwanted =>
    rw [walkExtensions_of_le h, if_neg hfits, if_pos hwanted]
  | case3 cursor h extType extLen payloadStart payloadEnd hfits hwanted ih =>
    rw [walkExtensions_of_le h, if_neg hfits, if_neg hwanted]
    exact ih
  | case4 cursor h =>
    rw [walkExtensions, dif_neg h]
    rfl

theorem readBalances_eq (data : List UInt8) :
    readBalances data = .ok (accountBalances (some data)) := by
  rw [readBalances, accountBalances]
  by_cases hlen : data.length ≤ 165
  · rw [if_pos hlen, if_pos hlen]
    rfl
  · have hbyte : getByte data 165 = .ok (data.getD 165 0) := by
      rw [getByte, List.getD_eq_getElem?_getD, List.getElem?_eq_getElem (by omega)]
      rfl
    rw [if_neg hlen, if_neg hlen, hbyte]
    show (if data.getD 165 0 ≠ 2 then _ else _) = _
    by_cases htype : data.getD 165 0 ≠ 2
    · rw [if_pos htype, if_pos htype]
      rfl
    · rw [if_neg htype, if_neg htype, ← walkExtensions_eq]

/-! ### The record that is found -/

/-- For arbitrary bytes, the walk ends without an exception.  After an account of 165 bytes and the
type of an account, it returns the balances in the first wanted record, and nothing otherwise. -/
theorem readBalances_spec (data : List UInt8) : ∃ balances, readBalances data = .ok balances ∧
    (∀ records rest, 165 < data.length → data[165]? = some 2 →
      data.drop 166 = Tlv.encode records ++ rest → Tlv.CutOff rest →
      balances = firstBalances records) ∧
    ((¬ ∃ records rest, 165 < data.length ∧ data[165]? = some 2 ∧
      data.drop 166 = Tlv.encode records ++ rest ∧ Tlv.CutOff rest) → balances = (none, none)) := by
  refine ⟨_, readBalances_eq data, fun records rest hlen htype hdrop hrest => ?_, fun hno => ?_⟩
  · have hbyte : data.getD 165 0 = 2 := by rw [List.getD_eq_getElem?_getD, htype]; rfl
    rw [accountBalances, if_neg (by omega), if_neg (not_not.2 hbyte)]
    exact extensionLoop_records hrest hdrop
  · obtain ⟨records, rest, hrest, hdrop⟩ := Tlv.exists_records (data.drop 166)
    rw [accountBalances]
    by_cases hlen : data.length ≤ 165
    · rw [if_pos hlen]
    · rw [if_neg hlen, if_pos fun htype => hno ⟨records, rest, by omega, ?_, hdrop, hrest⟩]
      rw [List.getD_eq_getElem?_getD, List.getElem?_eq_getElem (by omega)] at htype
      rw [List.getElem?_eq_getElem (by omega)]
      exact congrArg some htype

end Cli

namespace Sample

/-- The confidential transfer extension, and an extension that holds two ciphertexts. -/
def extensionRecords : List Tlv.Record :=
  [confidentialAccount.confidential.record,
    { tag := 4
      payload := List.replicate 64 4 ++ List.replicate 64 8
      tag_lt := by decide
      length_lt := by simp }]

/-- An account with both extensions, and two bytes more. -/
def extensionData : List UInt8 := List.replicate 165 0 ++ 2 :: Tlv.encode extensionRecords ++ [0, 0]

theorem drop_extensionData : extensionData.drop 166 = Tlv.encode extensionRecords ++ [0, 0] := rfl

end Sample

theorem Cli.readBalances_spec_sample :
    Cli.readBalances Sample.extensionData =
        .ok (some (Cli.halves (List.replicate 64 8)), some (Cli.halves (List.replicate 64 4))) ∧
      Cli.readBalances (List.replicate 165 0) = .ok (none, none) := by
  constructor
  · obtain ⟨balances, hread, hfirst, -⟩ := Cli.readBalances_spec Sample.extensionData
    rw [hread, hfirst _ _ (by decide +kernel) rfl Sample.drop_extensionData (.header (by decide))]
    decide +kernel
  · obtain ⟨balances, hread, -, hnone⟩ := Cli.readBalances_spec (List.replicate 165 0)
    rw [hread, hnone]
    rintro ⟨records, rest, hlen, -⟩
    exact absurd hlen (by decide +kernel)

end Ghos
