import Ghos.Client.Commands
import Ghos.Lib.DecimalText

/-!
# Amounts of the CLI

`parse_amount` and `format_amount` of `cli/ghos_cli/units.py`, over decimal arithmetic with 60
digits.

* `parseAmount_eq_ok`: the amounts that are accepted, and what they are in base units;
* `parseAmount_exact`: nothing is rounded, and a formatted amount is parsed back.
-/

namespace Ghos

namespace Cli

open Decimal

/-- The arguments of the messages of an `InvalidAmountError`. -/
inductive AmountError
  | empty
  | decimalsOutOfRange (decimals : ℤ)
  | notFinite (amount : String)
  | notPositive (amount : String)
  | morePrecision (amount : String) (decimals : ℤ)
  | notScaling (amount : String) (decimals : ℤ)
  | notValid (amount : String)
  | zeroOrNegative
  | belowFloor (baseUnits : ℤ)
  | notAligned (baseUnits : ℤ)
  | negative (baseUnits : ℤ)
  deriving DecidableEq

def maxDecimals : ℤ := 18

def dustFreeUnit : ℤ := 1000

/-- The text of the error, `repr` being Python's. -/
def AmountError.message (repr : String → String) : AmountError → String
  | empty => "amount is empty"
  | decimalsOutOfRange decimals => s!"decimals out of range: {decimals}"
  | notFinite amount => s!"amount is not finite: {amount}"
  | notPositive amount => s!"amount must be positive: {amount}"
  | morePrecision amount decimals =>
    s!"amount {repr amount} has more precision than mint decimals={decimals}"
  | notScaling amount decimals =>
    s!"amount {repr amount} does not scale cleanly to base units at decimals={decimals}"
  | notValid amount => s!"amount is not a valid decimal: {amount}"
  | zeroOrNegative => "amount resolved to zero or negative base units"
  | belowFloor baseUnits =>
    s!"amount {baseUnits} is below the dust-free floor of {dustFreeUnit} base units"
  | notAligned baseUnits =>
    s!"amount {baseUnits} is not aligned to dust-free unit {dustFreeUnit}"
  | negative baseUnits => s!"cannot format negative base units: {baseUnits}"

/-- What the functions raise. -/
inductive UnitsError
  | invalidAmount (e : AmountError)
  | signal (s : Signal)
  deriving DecidableEq

/-- The default context with a precision of 60. -/
def amountContext : Context := ⟨60, -999999, 999999⟩

/-- `except InvalidOperation`. -/
def catchInvalidOperation (stripped : String) : UnitsError → UnitsError
  | .signal .invalidOperation => .invalidAmount (.notValid stripped)
  | e => e

section Parse

-- the digits outside ASCII
variable (toDecimal : Char → Option (Fin 10))

/-- The decimal operations of `parse_amount`. -/
def scaleAmount (stripped : String) (decimals : ℤ) : Except UnitsError ℤ := do
  let quantum := tenPow (-decimals)
  match ← (ofText isSpace toDecimal stripped.toList).mapError .signal with
  | .infinity | .nan => throw (.invalidAmount (.notFinite stripped))
  | .finite parsed =>
    throwUnless (¬ parsed.value ≤ 0) (.invalidAmount (.notPositive stripped))
    let quantized ← (quantize amountContext parsed quantum.exponent).mapError .signal
    throwUnless (quantized.value = parsed.value)
      (.invalidAmount (.morePrecision stripped decimals))
    let scaled ← (mul amountContext parsed (tenPow decimals)).mapError .signal
    throwUnless (scaled.value = (toIntegralValue scaled).value)
      (.invalidAmount (.notScaling stripped decimals))
    return toInt scaled

/-- Convert a human-readable decimal amount into integer base units. -/
def parseAmount (value : String) (decimals : ℤ) : Except UnitsError ℤ := do
  let stripped := strip value
  throwUnless (stripped ≠ "") (.invalidAmount .empty)
  throwUnless (0 ≤ decimals ∧ decimals ≤ maxDecimals)
    (.invalidAmount (.decimalsOutOfRange decimals))
  let baseUnits ← (scaleAmount toDecimal stripped decimals).mapError
    (catchInvalidOperation stripped)
  throwUnless (0 < baseUnits) (.invalidAmount .zeroOrNegative)
  throwUnless (dustFreeUnit ≤ baseUnits) (.invalidAmount (.belowFloor baseUnits))
  throwUnless (baseUnits % dustFreeUnit = 0) (.invalidAmount (.notAligned baseUnits))
  return baseUnits

/-- The text, without or with a point, with `decimals` digits behind it. -/
def padFraction (text : List Char) (decimals : ℕ) : List Char :=
  if decimals = 0 then text.takeWhile (· ≠ '.')
  else if '.' ∉ text then text ++ '.' :: List.replicate decimals '0'
  else
    let left := text.takeWhile (· ≠ '.')
    let right := (text.dropWhile (· ≠ '.')).tail
    if right.length < decimals then
      left ++ '.' :: (right ++ List.replicate (decimals - right.length) '0')
    else if decimals < right.length then left ++ '.' :: right.take decimals
    else left ++ '.' :: right

/-- Render integer base units as a decimal string with the mint's scale. -/
def formatAmount (baseUnits decimals : ℤ) : Except UnitsError String := do
  throwUnless (0 ≤ baseUnits) (.invalidAmount (.negative baseUnits))
  throwUnless (0 ≤ decimals ∧ decimals ≤ maxDecimals)
    (.invalidAmount (.decimalsOutOfRange decimals))
  let value ← (div amountContext (ofInt baseUnits) (tenPow decimals)).mapError .signal
  let quantized ← (quantize amountContext value (tenPow (-decimals)).exponent).mapError .signal
  return String.ofList (padFraction (formatFixed quantized) decimals.toNat)

/-- The number that a text stands for as a decimal literal. -/
def DenotesAmount (value : String) (v : ℚ) : Prop :=
  ∃ ascii, numericAsAscii isSpace toDecimal value.toList = some ascii ∧ Denotes ascii v

end Parse

/-! ### Parsing -/

variable {toDecimal : Char → Option (Fin 10)} {value stripped : String} {decimals baseUnits : ℤ}
  {x : Decimal} {n : ℕ}

theorem tenPow_neg_exponent (h : 0 ≤ decimals) : (tenPow (-decimals)).exponent = -decimals := by
  unfold tenPow
  split_ifs with hzero
  · show (0 : ℤ) = -decimals
    omega
  · rfl

theorem fits_amountContext (hpos : 0 < n) (hlt : n < 10 ^ 60) {j : ℤ} (hlow : -18 ≤ j)
    (hhigh : j ≤ 0) : Fits amountContext n j where
  pos := hpos
  lt := hlt
  etiny_le := by
    have hetiny : amountContext.etiny = -1000058 := by decide
    omega
  le_emax := by
    have hdigits := (numDigits_le_iff (k := 60) (by omega)).2 hlt
    have hemax : amountContext.emax = 999999 := rfl
    omega

theorem negative_eq_false (h : ¬ x.value ≤ 0) : x.negative = false := by
  by_contra hnegative
  rw [Bool.not_eq_false] at hnegative
  refine h ?_
  rw [Decimal.value, Decimal.sign, hnegative, if_pos rfl, size]
  have hsize : (0 : ℚ) ≤ x.coefficient * 10 ^ x.exponent := by positivity
  linarith

/-- The scaled number is exact. -/
theorem mul_tenPow (hnegative : x.negative = false) (hpos : 0 < n) (hlt : n < 10 ^ 60)
    (hx : x.size = n * 10 ^ (-decimals)) : ∃ z, mul amountContext x (tenPow decimals) = .ok z ∧
      z.value = (toIntegralValue z).value ∧ toInt z = n := by
  have hten : (tenPow decimals).negative = false := by
    unfold tenPow
    split_ifs <;> rfl
  have hproduct : x.size * (tenPow decimals).size = n * 10 ^ (0 : ℤ) := by
    rw [hx, size_tenPow, mul_assoc, ← zpow_add₀ (by norm_num), neg_add_cancel]
  obtain ⟨z, hz, hsign, hsize⟩ :=
    mul_exact (fits_amountContext hpos hlt (by omega) le_rfl) hproduct
  rw [hnegative, hten] at hsign
  rw [zpow_zero, mul_one] at hsize
  refine ⟨z, hz, ?_, toInt_eq hsign hsize⟩
  rw [value_of_nonnegative hsign, value_of_nonnegative (toIntegralValue_negative.trans hsign),
    toIntegralValue_size hsize, hsize]

theorem coefficient_pos (h : ¬ x.size ≤ 0) : 0 < x.coefficient := by
  by_contra hzero
  rw [size, Nat.eq_zero_of_not_pos hzero, Nat.cast_zero, zero_mul] at h
  exact h le_rfl

/-- The operations succeed on the numbers with at most 60 digits before and `decimals` behind the
point, and they are exact there. -/
theorem scaleAmount_eq_ok (hlow : 0 ≤ decimals) (hhigh : decimals ≤ maxDecimals) :
    scaleAmount toDecimal stripped decimals = .ok baseUnits ↔
      ∃ x, ofText isSpace toDecimal stripped.toList = .ok (.finite x) ∧ ∃ n : ℕ,
        baseUnits = n ∧ 0 < n ∧ n < 10 ^ 60 ∧ x.value = n * 10 ^ (-decimals) := by
  rw [maxDecimals] at hhigh
  simp only [scaleAmount, except_bind_eq_ok, mapError_eq_ok, tenPow_neg_exponent hlow]
  constructor
  · rintro ⟨literal, hread, h⟩
    cases literal with
    | infinity => cases h
    | nan => cases h
    | finite x =>
      simp only [except_bind_eq_ok, throwUnless_eq_ok, exists_const, mapError_eq_ok,
        except_pure_eq_ok] at h
      obtain ⟨hpositive, q, hq, hvalue, z, hz, -, rfl⟩ := h
      have hnegative := negative_eq_false hpositive
      rw [value_of_nonnegative hnegative] at hpositive hvalue
      obtain ⟨rfl, hdigits⟩ := quantize_ok (coefficient_pos hpositive) hq
      generalize hn : (x.rescale (-decimals)).coefficient = n at hdigits
      have hsize : x.size = n * 10 ^ (-decimals) := by
        rw [← hvalue, value_of_nonnegative ((rescale_negative x _).trans hnegative), size, hn,
          rescale_exponent]
      have hpos : 0 < n := by
        by_contra hzero
        rw [hsize, Nat.eq_zero_of_not_pos hzero, Nat.cast_zero, zero_mul] at hpositive
        exact hpositive le_rfl
      have hlt : n < 10 ^ 60 := (numDigits_le_iff (by omega)).1 hdigits
      obtain ⟨z', hz', -, hint⟩ := mul_tenPow hnegative hpos hlt hsize
      rw [hz] at hz'
      obtain rfl := Except.ok.inj hz'
      exact ⟨x, hread, n, hint, hpos, hlt, (value_of_nonnegative hnegative).trans hsize⟩
  · rintro ⟨x, hread, n, rfl, hpos, hlt, hvalue⟩
    have hpositive : ¬ x.value ≤ 0 := by
      rw [hvalue, not_le]
      positivity
    have hnegative := negative_eq_false hpositive
    have hsize : x.size = n * 10 ^ (-decimals) := by
      rw [← value_of_nonnegative hnegative, hvalue]
    have hquantize := quantize_eq_ok (fits_amountContext hpos hlt (by omega) (by omega)) hsize
    obtain ⟨z, hz, hintegral, hint⟩ := mul_tenPow hnegative hpos hlt hsize
    refine ⟨_, hread, ?_⟩
    simp only [except_bind_eq_ok, throwUnless_eq_ok, exists_const, mapError_eq_ok,
      except_pure_eq_ok]
    refine ⟨hpositive, _, hquantize, ?_, z, hz, hintegral, hint⟩
    rw [hnegative, hvalue, value_of_nonnegative rfl]
    rfl

/-- The strings that are accepted, with their amounts in base units. -/
theorem parseAmount_eq_ok : parseAmount toDecimal value decimals = .ok baseUnits ↔
    (0 ≤ decimals ∧ decimals ≤ maxDecimals) ∧
      (∃ x, ofText isSpace toDecimal (strip value).toList = .ok (.finite x) ∧
        x.value * 10 ^ decimals = baseUnits) ∧
      baseUnits < 10 ^ 60 ∧ dustFreeUnit ≤ baseUnits ∧ baseUnits % dustFreeUnit = 0 := by
  have hunit : (0 : ℤ) < dustFreeUnit := by decide
  have hten : (10 : ℚ) ^ decimals ≠ 0 := zpow_ne_zero _ (by norm_num)
  simp only [parseAmount, except_bind_eq_ok, throwUnless_eq_ok, exists_const, mapError_eq_ok,
    except_pure_eq_ok]
  constructor
  · rintro ⟨-, hdecimals, b, hscale, -, hfloor, haligned, rfl⟩
    obtain ⟨x, hread, n, rfl, -, hlt, hvalue⟩ :=
      (scaleAmount_eq_ok hdecimals.1 hdecimals.2).1 hscale
    refine ⟨hdecimals, ⟨x, hread, ?_⟩, by exact_mod_cast hlt, hfloor, haligned⟩
    rw [hvalue, zpow_neg, inv_mul_cancel_right₀ hten, Int.cast_natCast]
  · rintro ⟨hdecimals, ⟨x, hread, hvalue⟩, hlt, hfloor, haligned⟩
    obtain ⟨n, rfl⟩ := Int.eq_ofNat_of_zero_le (hunit.le.trans hfloor)
    refine ⟨?_, hdecimals, n, (scaleAmount_eq_ok hdecimals.1 hdecimals.2).2 ⟨x, hread, n, rfl,
      by omega, by exact_mod_cast hlt, ?_⟩, by omega, hfloor, haligned, rfl⟩
    · intro hempty
      rw [hempty] at hread
      exact nomatch hread
    · rw [Int.cast_natCast] at hvalue
      rw [← hvalue, zpow_neg, mul_inv_cancel_right₀ hten]

/-! ### Formatting -/

theorem toList_strip (value : String) : (strip value).toList = trim isSpace value.toList :=
  String.toList_ofList

/-- White space does not change the number. -/
theorem numericAsAscii_strip (value : String) :
    numericAsAscii isSpace toDecimal (strip value).toList =
      numericAsAscii isSpace toDecimal value.toList := by
  rw [toList_strip, numericAsAscii_trim]

theorem DenotesAmount.unique {v w : ℚ} (hv : DenotesAmount toDecimal value v)
    (hw : DenotesAmount toDecimal value w) : v = w := by
  obtain ⟨a, ha, hv⟩ := hv
  obtain ⟨b, hb, hw⟩ := hw
  rw [ha] at hb
  obtain rfl := Option.some.inj hb
  exact hv.unique hw

/-- What is read is the number that the text stands for. -/
theorem denotesAmount_of_ofText
    (h : ofText isSpace toDecimal (strip value).toList = .ok (.finite x)) :
    DenotesAmount toDecimal value x.value := by
  obtain ⟨-, ascii, hascii, hread⟩ := (ofText_eq_ok).1 h
  rw [numericAsAscii_strip] at hascii
  exact ⟨ascii, hascii, denotes_iff.2 ⟨x, hread, rfl⟩⟩

theorem plain_of_isDigit {c : Char} (h : c.isDigit = true) : Plain isSpace c := by
  obtain ⟨hlow, hhigh⟩ := Char.isDigit_iff_toNat.1 h
  have hzero : '0'.toNat = 48 := rfl
  have hnine : '9'.toNat = 57 := rfl
  refine ⟨?_, ?_, by omega, by omega⟩
  · rw [isSpace, decide_eq_false_iff_not]
    simp only [List.mem_cons, List.not_mem_nil, or_false]
    omega
  · rintro rfl
    exact absurd h (by decide)

/-- The text of an amount already has all its digits. -/
theorem padFraction_formatFixed (n k : ℕ) :
    padFraction (formatFixed ⟨false, n, -k⟩) k = formatFixed ⟨false, n, -k⟩ := by
  obtain ⟨int, digits, hint, -, -, rfl, -, htext⟩ := exists_formatFixed n k
  have hpoint : ∀ c ∈ int, decide (c ≠ '.') = true := by
    intro c hc
    rw [decide_eq_true_eq]
    rintro rfl
    exact absurd (hint _ hc) (by decide)
  rw [htext]
  by_cases hzero : digits.length = 0
  · rw [if_pos hzero, padFraction, if_pos hzero, List.takeWhile_eq_self_iff]
    exact hpoint
  · have hmem : '.' ∈ int ++ '.' :: digits := List.mem_append_right _ List.mem_cons_self
    have hleft : (int ++ '.' :: digits).takeWhile (· ≠ '.') = int := by
      rw [List.takeWhile_append_of_pos hpoint]
      simp
    have hright : ((int ++ '.' :: digits).dropWhile (· ≠ '.')).tail = digits := by
      rw [List.dropWhile_append_of_pos hpoint]
      simp
    rw [if_neg hzero, padFraction, if_neg hzero, if_neg (not_not.2 hmem)]
    simp only [hleft, hright, lt_irrefl, if_false]

/-- An amount is far from the bounds of the constructor. -/
theorem constructible_amount {k : ℕ} (hlt : n < 10 ^ 60) (hk : (k : ℤ) ≤ 18) :
    Constructible ⟨false, n, -k⟩ := by
  have hdigits := (numDigits_le_iff (k := 60) (by omega)).2 hlt
  refine ⟨?_, ?_, ?_⟩
  · show (-1999999999999999997 : ℤ) ≤ -k
    omega
  · exact hdigits.trans (by decide)
  · split_ifs
    · show (-k : ℤ) ≤ 999999999999999999
      omega
    · show (numDigits n + -k - 1 : ℤ) ≤ 999999999999999999
      omega

/-- The text of an amount, and how it is read. -/
theorem formatAmount_spec (hlow : 0 ≤ decimals) (hhigh : decimals ≤ maxDecimals) (hpos : 0 < n)
    (hlt : n < 10 ^ 60) : ∃ text, formatAmount n decimals = .ok text ∧
      ∃ x, ofText isSpace toDecimal (strip text).toList = .ok (.finite x) ∧
        x.value * 10 ^ decimals = n := by
  obtain ⟨k, rfl⟩ := Int.eq_ofNat_of_zero_le hlow
  rw [maxDecimals] at hhigh
  have hfits : Fits amountContext n (-k) := fits_amountContext hpos hlt (by omega) (by omega)
  have hquotient : (ofInt n).size = (tenPow k).size * (n * 10 ^ (-(k : ℤ))) := by
    rw [size_ofInt, size_tenPow, mul_left_comm, ← zpow_add₀ (by norm_num), add_neg_cancel,
      zpow_zero, mul_one]
  have hdivisor : tenPow k = ⟨false, 10 ^ k, 0⟩ := if_pos hlow
  obtain ⟨z, hz, hsign, hsize⟩ := div_exact hfits (by rw [hdivisor]; positivity) hquotient
  have hnegative : z.negative = false := by
    rw [hsign, hdivisor, negative_ofInt, Bool.false_xor]
  have hquantize := quantize_eq_ok hfits hsize
  rw [hnegative] at hquantize
  refine ⟨String.ofList (formatFixed ⟨false, n, -k⟩), ?_, ⟨false, n, -k⟩, ?_, ?_⟩
  · simp only [formatAmount, except_bind_eq_ok, throwUnless_eq_ok, exists_const, mapError_eq_ok,
      except_pure_eq_ok, tenPow_neg_exponent hlow]
    refine ⟨by omega, ⟨hlow, hhigh⟩, z, hz, _, hquantize, ?_⟩
    rw [Int.toNat_natCast, padFraction_formatFixed]
  · rw [ofText_eq_ok, numericAsAscii_strip, String.toList_ofList]
    refine ⟨constructible_amount hlt hhigh, _, numericAsAscii_of_plain fun c hc => ?_,
      readNumeral_formatFixed n k⟩
    rcases mem_formatFixed hc with hdigit | rfl
    · exact plain_of_isDigit hdigit
    · exact ⟨by decide, by decide, by decide, by decide⟩
  · rw [value_of_nonnegative rfl, size, mul_assoc, ← zpow_add₀ (by norm_num), neg_add_cancel,
      zpow_zero, mul_one]

/-- Amounts are never rounded, and a formatted amount is parsed back. -/
theorem parseAmount_exact (toDecimal : Char → Option (Fin 10)) :
    (∀ (value : String) (decimals baseUnits : ℤ), 0 ≤ decimals → decimals ≤ 18 →
      parseAmount toDecimal value decimals = .ok baseUnits →
      (∃ v, DenotesAmount toDecimal value v) ∧
        (∀ v, DenotesAmount toDecimal value v → (baseUnits : ℚ) = v * 10 ^ decimals) ∧
        1000 ≤ baseUnits ∧ 1000 ∣ baseUnits) ∧
    ∀ decimals baseUnits : ℤ, 0 ≤ decimals → decimals ≤ 18 → baseUnits < 10 ^ 60 →
      1000 ≤ baseUnits → 1000 ∣ baseUnits →
      ∃ text, formatAmount baseUnits decimals = .ok text ∧
        parseAmount toDecimal text decimals = .ok baseUnits := by
  constructor
  · intro value decimals baseUnits hlow hhigh h
    obtain ⟨-, ⟨x, hread, hvalue⟩, -, hfloor, haligned⟩ := parseAmount_eq_ok.1 h
    have hdenotes := denotesAmount_of_ofText hread
    refine ⟨⟨_, hdenotes⟩, fun v hv => ?_, hfloor, Int.dvd_of_emod_eq_zero haligned⟩
    rw [hv.unique hdenotes, hvalue]
  · intro decimals baseUnits hlow hhigh hlt hfloor haligned
    obtain ⟨n, rfl⟩ := Int.eq_ofNat_of_zero_le (by omega : 0 ≤ baseUnits)
    obtain ⟨text, hformat, hread⟩ :=
      formatAmount_spec (n := n) hlow hhigh (by omega) (by exact_mod_cast hlt)
    refine ⟨text, hformat, parseAmount_eq_ok.2 ⟨⟨hlow, hhigh⟩, ?_, hlt, hfloor,
      Int.emod_eq_zero_of_dvd haligned⟩⟩
    exact_mod_cast hread

theorem parseAmount_exact_sample :
    (∃ v, DenotesAmount (fun _ => none) "+1_5e-1" v ∧ (1500000 : ℤ) = v * 10 ^ (6 : ℤ)) ∧
      ∃ text, formatAmount 1500000 6 = .ok text ∧
        parseAmount (fun _ => none) text 6 = .ok 1500000 := by
  obtain ⟨hexact, hround⟩ := parseAmount_exact fun _ => none
  obtain ⟨⟨v, hv⟩, hvalue, -⟩ :=
    hexact "+1_5e-1" 6 1500000 (by decide) (by decide) (by decide +kernel)
  exact ⟨⟨v, hv, hvalue v hv⟩,
    hround 6 1500000 (by decide) (by decide) (by decide) (by decide) (by decide)⟩

/-! ### The callers -/

section Callers

variable (Point : Type) [Ristretto255 Point] (Pubkey : Type) [AddressSpace Pubkey]
  (blake3 : List UInt8 → Vector UInt8 32) (sha512 : List UInt8 → Vector UInt8 64)

/-- The callers of `parse_amount` get over an amount. -/
structure FitsWire (n : ℤ) : Prop where
  lt : n < 2 ^ 64
  pack : ∃ b, packU64 n = .ok b
  encrypt : ∀ (fresh : RandomScalar) (scalar : ℕ),
    ∃ ct, encrypt Point fresh (keypairOf Point scalar).publicKey n none = .ok ct
  send : ∀ (draws : SendDraws) (signerBytes : List UInt8) (recipient mint : Vector UInt8 32)
    (confidential : Bool) (configBump : UInt8), 32 ≤ signerBytes.length →
    ∃ data, runSend Point sha512 draws signerBytes recipient mint confidential configBump n =
      .ok data
  join : ∀ (entropy : Entropy) (fresh : RandomScalar) (salt : Vector UInt8 32)
    (owner mint host : Pubkey) (signerBytes : List UInt8) (roundId : UInt64),
    32 ≤ signerBytes.length → ∃ ix, runJoin Point blake3 sha512 entropy fresh salt owner mint host
      signerBytes roundId.toNat n = .ok ix

theorem fitsWire_of_lt {n : ℕ} (h : n < 2 ^ 64) : FitsWire Point Pubkey blake3 sha512 n where
  lt := by exact_mod_cast h
  pack := ⟨_, packU64_eq_ok.2 ⟨by omega, rfl⟩⟩
  encrypt fresh scalar := ⟨_, encrypt_keypairOf fresh scalar h⟩
  send draws signerBytes recipient mint confidential configBump hsigner := by
    rw [runSend, buildTransfer_eq hsigner h]
    exact ⟨_, rfl⟩
  join entropy fresh salt owner mint host signerBytes roundId hsigner := by
    have hjoin : ∃ ix, runJoin Point blake3 sha512 entropy fresh salt owner mint host signerBytes
        roundId.toNat (UInt64.ofNat n).toNat = .ok ix := exists_runJoin hsigner roundId _
    rwa [UInt64.toNat_ofNat_of_lt' h] at hjoin

/-- A string is accepted whatever the size of its number, so the callers get over the result if the
number is below `2^64` in base units. -/
theorem parsedAmount_fitsWire_iff {toDecimal : Char → Option (Fin 10)} {value : String}
    {decimals n : ℤ} {v : ℚ} (h : parseAmount toDecimal value decimals = .ok n)
    (hv : DenotesAmount toDecimal value v) :
    FitsWire Point Pubkey blake3 sha512 n ↔ v * 10 ^ decimals < 2 ^ 64 := by
  obtain ⟨-, ⟨x, hread, hvalue⟩, -, hfloor, -⟩ := parseAmount_eq_ok.1 h
  rw [hv.unique (denotesAmount_of_ofText hread), hvalue]
  constructor
  · intro hfits
    exact_mod_cast hfits.lt
  · intro hlt
    obtain ⟨m, rfl⟩ := Int.eq_ofNat_of_zero_le (le_trans (by decide) hfloor)
    exact fitsWire_of_lt Point Pubkey blake3 sha512 (by exact_mod_cast hlt)

end Callers

theorem parsedAmount_fitsWire_iff_sample :
    ∃ v, DenotesAmount (fun _ => none) "1.5" v ∧
      (FitsWire (ZMod curveOrder) Sym (fun _ => .replicate 32 0) (fun _ => .replicate 64 1)
        1500000 ↔ v * 10 ^ (6 : ℤ) < 2 ^ 64) := by
  have hparse : parseAmount (fun _ => none) "1.5" 6 = .ok 1500000 := by decide +kernel
  obtain ⟨-, ⟨x, hread, -⟩, -⟩ := parseAmount_eq_ok.1 hparse
  have hv := denotesAmount_of_ofText hread
  exact ⟨_, hv, parsedAmount_fitsWire_iff _ _ _ _ hparse hv⟩

/-- At six decimals, `1e50` becomes an amount that no caller can use. -/
theorem not_fitsWire_1e50 :
    parseAmount (fun _ => none) "1e50" 6 = .ok (10 ^ 56) ∧ ¬ (10 ^ 56 : ℤ) < 2 ^ 64 ∧
      packU64 (10 ^ 56) = .error .structError ∧
      (∀ (fresh : RandomScalar) (pk : PublicKey),
        encrypt (ZMod curveOrder) fresh pk (10 ^ 56) none =
          .error (.cryptoError s!"amount must fit in 64 bits, got {(10 : ℤ) ^ 56}")) ∧
      ¬ FitsWire (ZMod curveOrder) Sym (fun _ => .replicate 32 0) (fun _ => .replicate 64 1)
        (10 ^ 56) := by
  refine ⟨by decide +kernel, by norm_num, rfl, fun fresh pk => ?_, fun h => ?_⟩
  · simp only [encrypt, throwUnless_bind]
    rw [if_pos (by norm_num), if_neg (by norm_num)]
  · exact absurd h.lt (by norm_num)

end Cli

end Ghos
