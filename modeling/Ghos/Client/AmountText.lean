import Ghos.Client.Sdk
import Ghos.Lib.DecimalText
import Ghos.Lib.JsText

/-!
# Amounts as text in the SDK

`formatAmount` and `parseAmount` of `sdk/src/utils.ts`.

* `parseAmount_eq_ok`: the strings that are accepted, and as which amounts;
* `amountText_roundTrip`: a formatted amount is parsed back, and no digit is lost or made up.
-/

namespace Ghos

namespace Sdk

open Decimal (AllDigits Denotes IsExponent IsFraction IsSign ofDigits)

/-- `text.padStart(n, "0")`. -/
def padStart (text : List Char) (n : ℕ) : List Char :=
  List.replicate (n - text.length) '0' ++ text

/-- `text.padEnd(n, "0")`. -/
def padEnd (text : List Char) (n : ℕ) : List Char :=
  text ++ List.replicate (n - text.length) '0'

/-- `n.toString()`. -/
def bigintText (n : ℤ) : List Char :=
  if n < 0 then '-' :: Nat.toDigits 10 n.natAbs else Nat.toDigits 10 n.natAbs

/-- Convert a `bigint` amount expressed in base units into a human decimal string. -/
def formatAmount (amount decimals : ℤ) : Except SdkError String := do
  throwUnless (¬ (decimals < 0 ∨ decimals > 20))
    (.ghosSdkError invalidInput "decimals out of range")
  let scale : ℤ := 10 ^ decimals.toNat
  let whole := amount.tdiv scale
  let fractional := amount.tmod scale
  if fractional = 0 then return String.ofList (bigintText whole)
  else
    let fracStr := (padStart (bigintText fractional) decimals.toNat).rdropWhile (· = '0')
    return String.ofList (if fracStr.length > 0 then bigintText whole ++ '.' :: fracStr
      else bigintText whole)

/-- `/^\d+(\.\d+)?$/`. -/
def isAmountText (text : List Char) : Bool :=
  text.takeWhile Char.isDigit ≠ [] && match text.dropWhile Char.isDigit with
    | [] => true
    | '.' :: digits => digits ≠ [] && digits.all Char.isDigit
    | _ => false

/-- Parse a human decimal string into a `bigint` base-unit amount. -/
def parseAmount (value : String) (decimals : ℤ) : Except SdkError ℤ := do
  throwUnless (¬ (decimals < 0 ∨ decimals > 20))
    (.ghosSdkError invalidInput "decimals out of range")
  let trimmed := Js.trim value.toList
  throwUnless (isAmountText trimmed) (.ghosSdkError invalidInput s!"cannot parse amount: {value}")
  let wholePart := trimmed.takeWhile (· ≠ '.')
  let fracPart := (trimmed.dropWhile (· ≠ '.')).tail
  throwUnless (¬ fracPart.length > decimals)
    (.ghosSdkError invalidInput s!"amount has more than {decimals} decimal places")
  return ofDigits (wholePart ++ padEnd fracPart decimals.toNat)

/-! ### What is accepted -/

/-- Digits, with a point between them if some follow. -/
def pointed (int digits : List Char) : List Char :=
  if digits = [] then int else int ++ '.' :: digits

/-- A text has digits before its point and maybe some behind it. -/
structure AmountParts (text int digits : List Char) : Prop where
  allDigits_int : AllDigits int
  allDigits_digits : AllDigits digits
  int_ne_nil : int ≠ []
  text_eq : text = pointed int digits

variable {int digits text : List Char} {value : String} {decimals amount : ℤ}

theorem isAmountText_iff :
    isAmountText text = true ↔ ∃ int digits, AmountParts text int digits := by
  constructor
  · intro h
    rw [isAmountText, Bool.and_eq_true, decide_eq_true_eq] at h
    obtain ⟨hne, hrest⟩ := h
    have hsplit := List.takeWhile_append_dropWhile (p := Char.isDigit) (l := text)
    have hint : AllDigits (text.takeWhile Char.isDigit) := List.all_eq_true.1 List.all_takeWhile
    generalize text.takeWhile Char.isDigit = int at hne hsplit hint
    generalize text.dropWhile Char.isDigit = rest at hsplit hrest
    subst hsplit
    split at hrest
    · exact ⟨int, [], hint, by simp [AllDigits], hne, by simp [pointed]⟩
    · next digits =>
      rw [Bool.and_eq_true, decide_eq_true_eq] at hrest
      exact ⟨int, digits, hint, List.all_eq_true.1 hrest.2, hne, (if_neg hrest.1).symm⟩
    · cases hrest
  · rintro ⟨int, digits, hint, hdigits, hne, rfl⟩
    unfold pointed
    split_ifs with hnil
    · have hstop : Decimal.Stops [] := by simp [Decimal.Stops]
      have hspan := Decimal.takeWhile_append_of_stops hint hstop
      rw [List.append_nil] at hspan
      simp [isAmountText, hspan.1, hspan.2, hne]
    · have hstop : Decimal.Stops ('.' :: digits) := by simp [Decimal.Stops]
      have hspan := Decimal.takeWhile_append_of_stops hint hstop
      have hall : digits.all Char.isDigit = true := List.all_eq_true.2 hdigits
      simp only [isAmountText, hspan.1, hspan.2, hall]
      simp [hne, hnil]

/-- The text is split at its point. -/
theorem AmountParts.split (h : AmountParts text int digits) :
    text.takeWhile (· ≠ '.') = int ∧ (text.dropWhile (· ≠ '.')).tail = digits := by
  have hpoint : ∀ c ∈ int, decide (c ≠ '.') = true := by
    intro c hc
    rw [decide_eq_true_eq]
    rintro rfl
    exact absurd (h.allDigits_int _ hc) (by decide)
  rw [h.text_eq, pointed]
  split_ifs with hnil
  · rw [List.takeWhile_eq_self_iff.2 hpoint, List.dropWhile_eq_nil_iff.2 hpoint, hnil]
    exact ⟨rfl, rfl⟩
  · rw [List.takeWhile_append_of_pos hpoint, List.dropWhile_append_of_pos hpoint]
    simp

/-- The digits behind the point are those of the fraction, and zeros. -/
theorem ofDigits_padEnd {k : ℕ} (hk : digits.length ≤ k) :
    (ofDigits (int ++ padEnd digits k) : ℚ) =
      (ofDigits int + ofDigits digits / 10 ^ digits.length) * 10 ^ k := by
  obtain ⟨j, rfl⟩ := Nat.exists_eq_add_of_le hk
  have hpow : (10 : ℚ) ^ digits.length ≠ 0 := by positivity
  have hlength : (padEnd digits (digits.length + j)).length = digits.length + j := by
    simp [padEnd]
  rw [Decimal.ofDigits_append, hlength, padEnd, Decimal.ofDigits_append,
    Decimal.ofDigits_replicate_zero, List.length_replicate, Nat.add_sub_cancel_left]
  push_cast
  field_simp
  ring

/-- The strings that are accepted, with their amounts. -/
theorem parseAmount_eq_ok : parseAmount value decimals = .ok amount ↔
    (0 ≤ decimals ∧ decimals ≤ 20) ∧ ∃ int digits : List Char,
      AmountParts (Js.trim value.toList) int digits ∧ (digits.length : ℤ) ≤ decimals ∧
        (amount : ℚ) = (ofDigits int + ofDigits digits / 10 ^ digits.length) * 10 ^ decimals := by
  simp only [parseAmount, throwUnless_bind_eq_ok, except_pure_eq_ok, isAmountText_iff]
  constructor
  · rintro ⟨hrange, ⟨int, digits, hparts⟩, hlength, rfl⟩
    rw [hparts.split.1, hparts.split.2] at *
    obtain ⟨k, rfl⟩ := Int.eq_ofNat_of_zero_le (by omega : 0 ≤ decimals)
    refine ⟨by omega, int, digits, hparts, not_lt.1 hlength, ?_⟩
    rw [zpow_natCast, Int.toNat_natCast, ← ofDigits_padEnd (by omega), Int.cast_natCast]
  · rintro ⟨hrange, int, digits, hparts, hlength, hvalue⟩
    obtain ⟨k, rfl⟩ := Int.eq_ofNat_of_zero_le hrange.1
    rw [zpow_natCast, ← ofDigits_padEnd (by omega)] at hvalue
    refine ⟨by omega, ⟨int, digits, hparts⟩, ?_⟩
    rw [hparts.split.1, hparts.split.2, Int.toNat_natCast]
    exact ⟨not_lt.2 hlength, by exact_mod_cast hvalue.symm⟩

/-- Every other string is refused. -/
theorem parseAmount_error (h : ∀ amount, parseAmount value decimals ≠ .ok amount) :
    ∃ message, parseAmount value decimals = .error (.ghosSdkError invalidInput message) := by
  unfold parseAmount at h ⊢
  simp only [throwUnless_bind] at h ⊢
  split_ifs at h ⊢
  · exact ⟨_, rfl⟩
  · exact ⟨_, rfl⟩
  · exact absurd rfl (h _)
  · exact ⟨_, rfl⟩

theorem AmountParts.exists_fraction (h : AmountParts text int digits) :
    ∃ fraction, IsFraction fraction digits ∧ text = int ++ fraction := by
  rw [h.text_eq, pointed]
  split_ifs with hnil
  · rw [hnil]
    exact ⟨[], .none, (List.append_nil int).symm⟩
  · exact ⟨_, .point h.allDigits_digits, rfl⟩

/-- The number is the one that the text stands for. -/
theorem AmountParts.denotes (h : AmountParts text int digits) :
    Denotes text (ofDigits int + ofDigits digits / 10 ^ digits.length) := by
  obtain ⟨fraction, hfraction, htext⟩ := h.exists_fraction
  have hnumeral := Denotes.intro .none h.allDigits_int hfraction (by simp [h.int_ne_nil]) .none
  simpa [htext] using hnumeral

/-! ### The round trip -/

theorem bigintText_natCast (n : ℕ) : bigintText n = Nat.toDigits 10 n :=
  if_neg (by omega)

theorem padStart_toDigits {f k : ℕ} (hk : 0 < k) (hlt : f < 10 ^ k) :
    (padStart (Nat.toDigits 10 f) k).length = k ∧ AllDigits (padStart (Nat.toDigits 10 f) k) ∧
      ofDigits (padStart (Nat.toDigits 10 f) k) = f := by
  have hcount : (Nat.toDigits 10 f).length ≤ k := (Decimal.numDigits_le_iff hk).2 hlt
  unfold padStart
  refine ⟨?_, (Decimal.allDigits_replicate_zero _).append (Decimal.allDigits_toDigits f), ?_⟩
  · rw [List.length_append, List.length_replicate]
    omega
  · rw [Decimal.ofDigits_append, Decimal.ofDigits_replicate_zero, zero_mul, zero_add,
      Decimal.ofDigits_toDigits]

/-- Zeros are dropped at the end. -/
theorem exists_rdropWhile_zeros (text : List Char) :
    ∃ j, text.rdropWhile (· = '0') ++ List.replicate j '0' = text := by
  have hzeros : text.rtakeWhile (· = '0') =
      List.replicate (text.rtakeWhile (· = '0')).length '0' :=
    List.eq_replicate_of_mem fun c hc => by simpa using List.mem_rtakeWhile_imp hc
  refine ⟨(text.rtakeWhile (· = '0')).length, ?_⟩
  rw [← hzeros]
  exact List.rdropWhile_append_rtakeWhile

/-- What is left of the digits behind the point, without zeros at the end. -/
theorem exists_fracStr {f k : ℕ} (hpos : 0 < f) (hlt : f < 10 ^ k) : ∃ j,
    let fracStr := (padStart (Nat.toDigits 10 f) k).rdropWhile (· = '0')
    AllDigits fracStr ∧ fracStr ≠ [] ∧ fracStr.length + j = k ∧ ofDigits fracStr * 10 ^ j = f := by
  have hk : 0 < k := by
    rw [Nat.pos_iff_ne_zero]
    rintro rfl
    rw [pow_zero] at hlt
    omega
  obtain ⟨hlength, hdigits, hvalue⟩ := padStart_toDigits hk hlt
  generalize padStart (Nat.toDigits 10 f) k = padded at hlength hdigits hvalue
  obtain ⟨j, hsplit⟩ := exists_rdropWhile_zeros padded
  refine ⟨j, ?_, ?_, ?_, ?_⟩
  · intro c hc
    exact hdigits c (hsplit ▸ List.mem_append_left _ hc)
  · intro hnil
    rw [← hsplit, hnil, List.nil_append, Decimal.ofDigits_replicate_zero] at hvalue
    omega
  · have hsum := congrArg List.length hsplit
    rw [List.length_append, List.length_replicate] at hsum
    omega
  · rw [← hsplit, Decimal.ofDigits_append, Decimal.ofDigits_replicate_zero,
      List.length_replicate] at hvalue
    omega

/-- A formatted amount has digits before its point and at most `decimals` behind it. -/
theorem formatAmount_spec (n : ℕ) {k : ℕ} (hk : k ≤ 20) :
    ∃ int digits : List Char, formatAmount n k = .ok (String.ofList (pointed int digits)) ∧
      AmountParts (pointed int digits) int digits ∧ digits.length ≤ k ∧
        (n : ℚ) = (ofDigits int + ofDigits digits / 10 ^ digits.length) * 10 ^ k := by
  have hpow : 0 < 10 ^ k := by positivity
  have hint := Decimal.allDigits_toDigits (n / 10 ^ k)
  have hwhole : (n : ℤ).tdiv (10 ^ k) = (n / 10 ^ k : ℕ) := by
    rw [Int.ofNat_tdiv, Nat.cast_pow]
    rfl
  have hfractional : (n : ℤ).tmod (10 ^ k) = (n % 10 ^ k : ℕ) := by
    rw [Int.ofNat_tmod, Nat.cast_pow]
    rfl
  have hsplit : n / 10 ^ k * 10 ^ k + n % 10 ^ k = n := Nat.div_add_mod' n (10 ^ k)
  unfold formatAmount
  simp only [throwUnless_bind, Int.toNat_natCast, hwhole, hfractional, bigintText_natCast]
  rw [if_pos (by omega)]
  by_cases hzero : n % 10 ^ k = 0
  · refine ⟨Nat.toDigits 10 (n / 10 ^ k), [], ?_, ⟨hint, by simp [AllDigits], by simp, rfl⟩,
      by simp, ?_⟩
    · rw [if_pos (by exact_mod_cast hzero)]
      rfl
    · rw [Decimal.ofDigits_toDigits, show ofDigits [] = 0 from rfl, Nat.cast_zero, zero_div,
        add_zero]
      exact_mod_cast (show n / 10 ^ k * 10 ^ k = n by omega).symm
  · obtain ⟨j, hdigits, hne, hlength, hvalue⟩ :=
      exists_fracStr (Nat.pos_of_ne_zero hzero) (Nat.mod_lt n hpow)
    generalize (padStart (Nat.toDigits 10 (n % 10 ^ k)) k).rdropWhile (· = '0') = fracStr at *
    refine ⟨Nat.toDigits 10 (n / 10 ^ k), fracStr, ?_, ⟨hint, hdigits, by simp, rfl⟩, by omega, ?_⟩
    · rw [if_neg (by exact_mod_cast hzero), if_pos (List.length_pos_iff.2 hne), pointed, if_neg hne]
      rfl
    · have hfraction : (ofDigits fracStr : ℚ) / 10 ^ fracStr.length * 10 ^ k =
          (n % 10 ^ k : ℕ) := by
        rw [← hvalue, ← hlength, pow_add]
        push_cast
        field_simp
      rw [Decimal.ofDigits_toDigits, add_mul, hfraction]
      exact_mod_cast hsplit.symm

theorem not_isWhitespace_of_isDigit {c : Char} (h : c.isDigit = true) :
    Js.isWhitespace c = false := by
  obtain ⟨hlow, hhigh⟩ := Char.isDigit_iff_toNat.1 h
  have hzero : '0'.toNat = 48 := rfl
  have hnine : '9'.toNat = 57 := rfl
  rw [Js.isWhitespace, decide_eq_false_iff_not]
  simp only [List.mem_cons, List.not_mem_nil, or_false]
  omega

theorem AmountParts.not_isWhitespace (h : AmountParts text int digits) :
    ∀ c ∈ text, Js.isWhitespace c = false := by
  intro c hc
  rw [h.text_eq, pointed] at hc
  split_ifs at hc
  · exact not_isWhitespace_of_isDigit (h.allDigits_int c hc)
  · rcases List.mem_append.1 hc with hc | hc
    · exact not_isWhitespace_of_isDigit (h.allDigits_int c hc)
    · rcases List.mem_cons.1 hc with rfl | hc
      · decide
      · exact not_isWhitespace_of_isDigit (h.allDigits_digits c hc)

/-- There is no white space to take away. -/
theorem AmountParts.trim_eq (h : AmountParts text int digits) : Js.trim text = text :=
  Decimal.trim_eq_self h.not_isWhitespace

/-- As a numeral, an amount has neither a sign nor an exponent. -/
theorem AmountParts.numeral {s e : ℤ} {sign int' fraction digits' exponent : List Char}
    (h : AmountParts (sign ++ (int' ++ (fraction ++ exponent))) int digits) (hsign : IsSign sign s)
    (hint : AllDigits int') (hfraction : IsFraction fraction digits')
    (hexponent : IsExponent exponent e) :
    sign = [] ∧ int' = int ∧ digits' = digits ∧ exponent = [] := by
  obtain ⟨fraction', hfraction', htext⟩ := h.exists_fraction
  have hfirst : ∀ c ∈ (int ++ (fraction' ++ [])).head?, c ≠ '-' ∧ c ≠ '+' :=
    h.allDigits_int.no_sign h.int_ne_nil
  rw [← List.append_nil fraction'] at htext
  cases hsign with
  | none =>
    have hleft := Decimal.takeWhile_append_of_stops hint (hfraction.stops hexponent.stops)
    have hright := Decimal.takeWhile_append_of_stops h.allDigits_int
      (hfraction'.stops IsExponent.none.stops)
    rw [List.nil_append] at htext
    rw [htext, hright.1, hright.2] at hleft
    have hread := Decimal.readFraction_append hfraction hexponent
    rw [← hleft.2, Decimal.readFraction_append hfraction' .none, Prod.mk.injEq] at hread
    exact ⟨rfl, hleft.1.symm, hread.1.symm, hread.2.symm⟩
  | plus =>
    rw [← htext] at hfirst
    exact absurd rfl (hfirst '+' rfl).2
  | minus =>
    rw [← htext] at hfirst
    exact absurd rfl (hfirst '-' rfl).1

/-- A formatted amount is parsed back.  What is parsed is the number that the text stands for, and
nothing with a sign, an exponent, more digits than `decimals` or none before its point is. -/
theorem amountText_roundTrip :
    (∀ n decimals : ℤ, 0 ≤ n → 0 ≤ decimals → decimals ≤ 20 →
      ∃ text, formatAmount n decimals = .ok text ∧ parseAmount text decimals = .ok n) ∧
    (∀ (value : String) (decimals amount : ℤ), parseAmount value decimals = .ok amount →
      (∃ v, Denotes (Js.trim value.toList) v) ∧
        ∀ v, Denotes (Js.trim value.toList) v → (amount : ℚ) = v * 10 ^ decimals) ∧
    ∀ (value : String) (decimals s e : ℤ) (sign int fraction digits exponent : List Char),
      IsSign sign s → AllDigits int → IsFraction fraction digits → IsExponent exponent e →
      Js.trim value.toList = sign ++ (int ++ (fraction ++ exponent)) →
      decimals < digits.length ∨ sign ≠ [] ∨ exponent ≠ [] ∨ int = [] →
      ∃ message, parseAmount value decimals = .error (.ghosSdkError invalidInput message) := by
  refine ⟨fun n decimals hn hlow hhigh => ?_, fun value decimals amount h => ?_, ?_⟩
  · obtain ⟨n, rfl⟩ := Int.eq_ofNat_of_zero_le hn
    obtain ⟨k, rfl⟩ := Int.eq_ofNat_of_zero_le hlow
    obtain ⟨int, digits, hformat, hparts, hlength, hvalue⟩ :=
      formatAmount_spec n (by omega : k ≤ 20)
    refine ⟨_, hformat, parseAmount_eq_ok.2 ⟨⟨hlow, hhigh⟩, int, digits, ?_, by omega, ?_⟩⟩
    · rwa [String.toList_ofList, hparts.trim_eq]
    · rw [zpow_natCast]
      exact_mod_cast hvalue
  · obtain ⟨-, int, digits, hparts, -, hvalue⟩ := parseAmount_eq_ok.1 h
    refine ⟨⟨_, hparts.denotes⟩, fun v hv => ?_⟩
    rw [hv.unique hparts.denotes, hvalue]
  · intro value decimals s e sign int fraction digits exponent hsign hint hfraction hexponent htext
      hbad
    refine parseAmount_error fun amount h => ?_
    obtain ⟨-, int', digits', hparts, hlength, -⟩ := parseAmount_eq_ok.1 h
    rw [htext] at hparts
    obtain ⟨hnosign, rfl, rfl, hnoexponent⟩ := hparts.numeral hsign hint hfraction hexponent
    rcases hbad with hmore | hbad | hbad | hbad
    · omega
    · exact hbad hnosign
    · exact hbad hnoexponent
    · exact hparts.int_ne_nil hbad

theorem amountText_roundTrip_sample :
    (∃ text, formatAmount 1050 3 = .ok text ∧ parseAmount text 3 = .ok 1050) ∧
      (∃ v, Denotes "007.5".toList v ∧ (7500 : ℤ) = v * 10 ^ (3 : ℤ)) ∧
      ∃ message, parseAmount "1e3" 3 = .error (.ghosSdkError invalidInput message) := by
  obtain ⟨hround, hexact, hrefuse⟩ := amountText_roundTrip
  obtain ⟨⟨v, hv⟩, hvalue⟩ := hexact " 007.5" 3 7500 (by decide +kernel)
  refine ⟨hround 1050 3 (by decide) (by decide) (by decide), ⟨v, hv, hvalue v hv⟩,
    hrefuse "1e3" 3 1 _ [] ['1'] [] [] ['e', '3'] .none (by simp [AllDigits]) .none
      (.mark (.inl rfl) .none (by simp [AllDigits]) (by simp)) rfl (by simp)⟩

end Sdk

end Ghos
