import Ghos.Lib.Bounded

/-!
# Records with a tag and a length

A sequence of records, each with a tag and the length of its payload in front, in two bytes each.
`Tlv.find` walks over the payloads until it meets a record that it wants, by its tag and its length
(`find_records`).  Any bytes are a sequence of records and a rest in which no record begins
(`exists_records`).
-/

namespace Tlv

/-- A record whose tag and length fit into two bytes. -/
structure Record where
  tag : ℕ
  payload : List UInt8
  tag_lt : tag < 256 ^ 2
  length_lt : payload.length < 256 ^ 2

def Record.encode (r : Record) : List UInt8 :=
  leBytes 2 r.tag ++ leBytes 2 r.payload.length ++ r.payload

/-- The records one after the other. -/
def encode (records : List Record) : List UInt8 := records.flatMap Record.encode

/-- The number in two bytes at the cursor. -/
def peek (data : List UInt8) (cursor : ℕ) : ℕ := leNat ((data.drop cursor).take 2)

/-- Where the payload of the first wanted record starts.  The walk ends at a record that is cut
off. -/
def find (wanted : ℕ → ℕ → Bool) (data : List UInt8) (cursor : ℕ) : Option ℕ :=
  if _h : cursor + 4 ≤ data.length then
    let tag := peek data cursor
    let length := peek data (cursor + 2)
    if data.length < cursor + 4 + length then none
    else if wanted tag length then some (cursor + 4)
    else find wanted data (cursor + 4 + length)
  else none
termination_by data.length - cursor

/-- Whether a record is wanted. -/
def Record.Wanted (wanted : ℕ → ℕ → Bool) (r : Record) : Bool := wanted r.tag r.payload.length

variable {wanted : ℕ → ℕ → Bool} {data rest : List UInt8} {cursor : ℕ} {r : Record}
  {records : List Record}

theorem peek_of_drop {n : ℕ} (hn : n < 256 ^ 2) (h : data.drop cursor = leBytes 2 n ++ rest) :
    peek data cursor = n := by
  rw [peek, h, List.take_left' (length_leBytes 2 n), leNat_leBytes_of_lt hn]

/-- What the walk reads where a tag and a length stand at the cursor. -/
theorem peek_header {tag length : ℕ} (htag : tag < 256 ^ 2) (hlength : length < 256 ^ 2)
    (h : data.drop cursor = leBytes 2 tag ++ (leBytes 2 length ++ rest)) :
    peek data cursor = tag ∧ peek data (cursor + 2) = length ∧ data.drop (cursor + 4) = rest ∧
      cursor + 4 + rest.length = data.length := by
  have hnext : data.drop (cursor + 2) = leBytes 2 length ++ rest := by
    rw [← List.drop_drop, h, List.drop_left' (length_leBytes 2 tag)]
  have hrest : data.drop (cursor + 4) = rest := by
    rw [show cursor + 4 = cursor + 2 + 2 from rfl, ← List.drop_drop, hnext,
      List.drop_left' (length_leBytes 2 _)]
  refine ⟨peek_of_drop htag h, peek_of_drop hlength hnext, hrest, ?_⟩
  have hsize := congrArg List.length h
  simp only [List.length_drop, List.length_append, length_leBytes] at hsize
  omega

/-- What the walk reads where a record stands at the cursor. -/
theorem peek_record (h : data.drop cursor = r.encode ++ rest) :
    peek data cursor = r.tag ∧ peek data (cursor + 2) = r.payload.length ∧
      data.drop (cursor + 4) = r.payload ++ rest ∧
      cursor + 4 + r.payload.length ≤ data.length := by
  have hheader : data.drop cursor = leBytes 2 r.tag ++ (leBytes 2 r.payload.length ++
      (r.payload ++ rest)) := by
    rw [h, Record.encode, List.append_assoc, List.append_assoc]
  obtain ⟨htag, hlength, hpayload, hsize⟩ := peek_header r.tag_lt r.length_lt hheader
  refine ⟨htag, hlength, hpayload, ?_⟩
  rw [List.length_append] at hsize
  omega

/-- The walk stops at a wanted record, and steps over another one. -/
theorem find_of_drop (h : data.drop cursor = r.encode ++ rest) :
    find wanted data cursor =
      if r.Wanted wanted then some (cursor + 4)
      else find wanted data (cursor + 4 + r.payload.length) := by
  obtain ⟨htag, hlength, -, hfits⟩ := peek_record h
  rw [find, dif_pos (by omega)]
  simp only [htag, hlength]
  rw [if_neg hfits.not_gt, Record.Wanted]

/-! ### What is left after the records -/

/-- Bytes that do not begin with a record: too few for a tag and a length, or a payload that is cut
off. -/
inductive CutOff : List UInt8 → Prop
  | header {rest : List UInt8} (h : rest.length < 4) : CutOff rest
  | payload {tag length : ℕ} {payload : List UInt8} (htag : tag < 256 ^ 2)
      (hlength : length < 256 ^ 2) (hcut : payload.length < length) :
      CutOff (leBytes 2 tag ++ (leBytes 2 length ++ payload))

theorem cutOff_nil : CutOff [] := .header (by decide)

/-- The walk ends where no record begins. -/
theorem find_of_cutOff (hrest : CutOff rest) (h : data.drop cursor = rest) :
    find wanted data cursor = none := by
  cases hrest with
  | header hshort =>
    have hsize := congrArg List.length h
    rw [List.length_drop] at hsize
    rw [find, dif_neg (by omega)]
  | payload htag hlength hcut =>
    obtain ⟨-, hlen, -, hsize⟩ := peek_header htag hlength h
    rw [find, dif_pos (by omega)]
    dsimp only
    rw [hlen, if_pos (by omega)]

/-- The walk over a sequence of records finds the first wanted one, if any. -/
theorem find_records (hrest : CutOff rest) (h : data.drop cursor = encode records ++ rest) :
    match records.find? (Record.Wanted wanted) with
    | none => find wanted data cursor = none
    | some r => ∃ start suffix, find wanted data cursor = some start ∧
        data.drop start = r.payload ++ suffix := by
  induction records generalizing cursor with
  | nil => exact find_of_cutOff hrest h
  | cons r records ih =>
    have hrecord : data.drop cursor = r.encode ++ (encode records ++ rest) := by
      rw [h, encode, List.flatMap_cons, List.append_assoc, encode]
    obtain ⟨-, -, hpayload, -⟩ := peek_record hrecord
    rw [List.find?_cons, find_of_drop hrecord]
    cases hwanted : r.Wanted wanted with
    | true => exact ⟨_, _, rfl, hpayload⟩
    | false =>
      refine ih ?_
      rw [← List.drop_drop, hpayload, List.drop_left]

/-- The first four bytes are a tag and a length. -/
theorem exists_header {bytes : List UInt8} (h : 4 ≤ bytes.length) :
    ∃ tag length rest, tag < 256 ^ 2 ∧ length < 256 ^ 2 ∧
      bytes = leBytes 2 tag ++ (leBytes 2 length ++ rest) := by
  have htag : (bytes.take 2).length = 2 := List.length_take_of_le (by omega)
  have hlength : ((bytes.drop 2).take 2).length = 2 :=
    List.length_take_of_le (by rw [List.length_drop]; omega)
  have htagLt := leNat_lt (bytes.take 2)
  have hlengthLt := leNat_lt ((bytes.drop 2).take 2)
  rw [htag] at htagLt
  rw [hlength] at hlengthLt
  refine ⟨leNat (bytes.take 2), leNat ((bytes.drop 2).take 2), (bytes.drop 2).drop 2, htagLt,
    hlengthLt, ?_⟩
  rw [leBytes_leNat htag, leBytes_leNat hlength, List.take_append_drop, List.take_append_drop]

/-- All bytes are a sequence of records and something that is cut off. -/
theorem exists_records (bytes : List UInt8) :
    ∃ records rest, CutOff rest ∧ bytes = encode records ++ rest := by
  induction hn : bytes.length using Nat.strong_induction_on generalizing bytes with
  | _ n ih =>
    by_cases hshort : bytes.length < 4
    · exact ⟨[], bytes, .header hshort, rfl⟩
    · obtain ⟨tag, length, rest, htag, hlength, rfl⟩ := exists_header (not_lt.1 hshort)
      by_cases hcut : rest.length < length
      · exact ⟨[], _, .payload htag hlength hcut, rfl⟩
      -- one record, and then the records of what follows
      · have htake : (rest.take length).length = length := List.length_take_of_le (not_lt.1 hcut)
        simp only [List.length_append, length_leBytes] at hn
        obtain ⟨records, rest', hrest', heq⟩ :=
          ih (rest.drop length).length (by rw [List.length_drop]; omega) _ rfl
        refine ⟨⟨tag, rest.take length, htag, by rwa [htake]⟩ :: records, rest', hrest', ?_⟩
        rw [encode, List.flatMap_cons, List.append_assoc, ← encode, ← heq, Record.encode]
        dsimp only
        rw [htake, List.append_assoc, List.append_assoc, List.take_append_drop]

end Tlv
