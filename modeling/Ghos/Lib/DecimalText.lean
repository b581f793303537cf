import Ghos.Lib.Decimal
import Mathlib.Data.List.DropRight
import Mathlib.Data.List.TakeWhile

/-!
# Decimal numbers as text

* `Denotes`: the number that a text stands for, which has a sign, digits with a point between them,
  and an exponent;
* `denotes_iff`: a text is read if it stands for a number, and as that number;
* `fixedText`: the digits of a number with a fixed number of them behind the point.
-/

namespace Decimal

/-! ### Digits -/

/-- The number that the digits stand for. -/
def ofDigits (digits : List Char) : ℕ := Nat.ofDigitChars 10 digits 0

def AllDigits (digits : List Char) : Prop := ∀ c ∈ digits, c.isDigit = true

theorem ofDigits_append (a b : List Char) :
    ofDigits (a ++ b) = ofDigits a * 10 ^ b.length + ofDigits b := by
  rw [ofDigits, Nat.ofDigitChars_append, Nat.ofDigitChars_eq_ofDigitChars_zero, mul_comm]
  rfl

theorem ofDigits_replicate_zero (k : ℕ) : ofDigits (List.replicate k '0') = 0 := by
  rw [ofDigits, Nat.ofDigitChars_replicate_zero, mul_zero]

theorem ofDigits_toDigits (n : ℕ) : ofDigits (Nat.toDigits 10 n) = n :=
  Nat.ofDigitChars_ten_toDigits

theorem allDigits_toDigits (n : ℕ) : AllDigits (Nat.toDigits 10 n) :=
  fun _ hc => Nat.isDigit_of_mem_toDigits (by omega) (by omega) hc

theorem allDigits_replicate_zero (k : ℕ) : AllDigits (List.replicate k '0') := by
  intro c hc
  rw [List.eq_of_mem_replicate hc]
  rfl

theorem AllDigits.append {a b : List Char} (ha : AllDigits a) (hb : AllDigits b) :
    AllDigits (a ++ b) := by
  intro c hc
  rcases List.mem_append.1 hc with h | h
  · exact ha c h
  · exact hb c h

/-! ### The grammar -/

/-- An optional sign. -/
inductive IsSign : List Char → ℤ → Prop
  | none : IsSign [] 1
  | plus : IsSign ['+'] 1
  | minus : IsSign ['-'] (-1)

/-- An optional point, and the digits behind it. -/
inductive IsFraction : List Char → List Char → Prop
  | none : IsFraction [] []
  | point {digits : List Char} (h : AllDigits digits) : IsFraction ('.' :: digits) digits

/-- An optional exponent. -/
inductive IsExponent : List Char → ℤ → Prop
  | none : IsExponent [] 0
  | mark {c : Char} {sign digits : List Char} {s : ℤ} (hc : c = 'e' ∨ c = 'E')
      (hsign : IsSign sign s) (hdigits : AllDigits digits) (hne : digits ≠ []) :
      IsExponent (c :: (sign ++ digits)) (s * ofDigits digits)

/-- The text stands for the number. -/
inductive Denotes : List Char → ℚ → Prop
  | intro {sign int fraction digits exponent : List Char} {s e : ℤ} (hsign : IsSign sign s)
      (hint : AllDigits int) (hfraction : IsFraction fraction digits) (hne : int ++ digits ≠ [])
      (hexponent : IsExponent exponent e) :
      Denotes (sign ++ (int ++ (fraction ++ exponent)))
        (s * (ofDigits int + ofDigits digits / 10 ^ digits.length) * 10 ^ e)

/-! ### Reading -/

/-- Whether there is a minus, and what follows the sign. -/
def readSign : List Char → Bool × List Char
  | '-' :: rest => (true, rest)
  | '+' :: rest => (false, rest)
  | text => (false, text)

/-- The digits behind a point, and what follows. -/
def readFraction : List Char → List Char × List Char
  | '.' :: rest => (rest.takeWhile Char.isDigit, rest.dropWhile Char.isDigit)
  | text => ([], text)

def readExponent : List Char → Option ℤ
  | [] => some 0
  | c :: rest =>
    let sign := readSign rest
    if (c = 'e' ∨ c = 'E') ∧ sign.2 ≠ [] ∧ sign.2.all Char.isDigit then
      some (if sign.1 then -ofDigits sign.2 else ofDigits sign.2)
    else none

def readNumeral (text : List Char) : Option Decimal :=
  let sign := readSign text
  let int := sign.2.takeWhile Char.isDigit
  let fraction := readFraction (sign.2.dropWhile Char.isDigit)
  if int ++ fraction.1 = [] then none
  else (readExponent fraction.2).map fun e =>
    ⟨sign.1, ofDigits (int ++ fraction.1), e - fraction.1.length⟩

/-! ### Texts are read as what they stand for -/

section Read

variable {sign int fraction digits rest text : List Char} {s e : ℤ}

/-- Reading digits stops here. -/
def Stops (text : List Char) : Prop := ∀ c ∈ text.head?, c.isDigit = false

theorem takeWhile_append_of_stops (h : AllDigits digits) (hrest : Stops rest) :
    (digits ++ rest).takeWhile Char.isDigit = digits ∧
      (digits ++ rest).dropWhile Char.isDigit = rest := by
  have hend : rest.takeWhile Char.isDigit = [] ∧ rest.dropWhile Char.isDigit = rest := by
    cases rest with
    | nil => exact ⟨rfl, rfl⟩
    | cons c rest => simp [hrest c rfl]
  rw [List.takeWhile_append_of_pos h, List.dropWhile_append_of_pos h, hend.1, hend.2,
    List.append_nil]
  exact ⟨rfl, rfl⟩

theorem IsExponent.stops (h : IsExponent text e) : Stops text := by
  cases h with
  | none => simp [Stops]
  | mark hc => rcases hc with rfl | rfl <;> simp [Stops]

theorem IsFraction.stops (h : IsFraction fraction digits) (hrest : Stops rest) :
    Stops (fraction ++ rest) := by
  cases h with
  | none => exact hrest
  | point => simp [Stops]

theorem readSign_append (h : IsSign sign s) (hrest : ∀ c ∈ rest.head?, c ≠ '-' ∧ c ≠ '+') :
    readSign (sign ++ rest) = (decide (s < 0), rest) := by
  cases h with
  | none =>
    cases rest with
    | nil => rfl
    | cons c rest =>
      obtain ⟨hminus, hplus⟩ := hrest c rfl
      simp [readSign, hminus, hplus]
  | plus => rfl
  | minus => rfl

theorem AllDigits.no_sign (h : AllDigits digits) (hne : digits ≠ []) :
    ∀ c ∈ (digits ++ rest).head?, c ≠ '-' ∧ c ≠ '+' := by
  cases digits with
  | nil => exact absurd rfl hne
  | cons d digits =>
    have hd := h d List.mem_cons_self
    rintro c ⟨⟩
    constructor
    · rintro rfl
      exact absurd hd (by decide)
    · rintro rfl
      exact absurd hd (by decide)

theorem readSign_digits (h : IsSign sign s) (hdigits : AllDigits digits) (hne : digits ≠ []) :
    readSign (sign ++ digits) = (decide (s < 0), digits) := by
  have hhead : ∀ c ∈ (digits ++ []).head?, c ≠ '-' ∧ c ≠ '+' := hdigits.no_sign hne
  rw [List.append_nil] at hhead
  exact readSign_append h hhead

theorem isSign_readSign (text : List Char) :
    ∃ sign s, IsSign sign s ∧ text = sign ++ (readSign text).2 ∧
      (readSign text).1 = decide (s < 0) := by
  unfold readSign
  split
  · exact ⟨_, _, .minus, rfl, rfl⟩
  · exact ⟨_, _, .plus, rfl, rfl⟩
  · exact ⟨_, _, .none, rfl, rfl⟩

/-- A sign is a factor. -/
theorem IsSign.factor (h : IsSign sign s) (n : ℕ) :
    (if decide (s < 0) = true then -(n : ℤ) else n) = s * n := by
  cases h <;> simp

theorem readExponent_eq_some : readExponent text = some e ↔ IsExponent text e := by
  constructor
  · intro h
    cases text with
    | nil =>
      obtain rfl := Option.some.inj h
      exact .none
    | cons c rest =>
      obtain ⟨sign, s, hsign, hrest, hnegative⟩ := isSign_readSign rest
      simp only [readExponent, hnegative, hsign.factor] at h
      generalize (readSign rest).2 = digits at h hrest
      subst hrest
      split_ifs at h with hmark
      obtain rfl := Option.some.inj h
      exact .mark hmark.1 hsign (List.all_eq_true.1 hmark.2.2) hmark.2.1
  · rintro (_ | ⟨hc, hsign, hdigits, hne⟩)
    · rfl
    · have hread := readSign_digits hsign hdigits hne
      simp only [readExponent, hread, hsign.factor]
      rw [if_pos ⟨hc, hne, List.all_eq_true.2 hdigits⟩]

theorem readFraction_append (h : IsFraction fraction digits) (hrest : IsExponent rest e) :
    readFraction (fraction ++ rest) = (digits, rest) := by
  cases h with
  | none =>
    cases hrest with
    | none => rfl
    | mark hc => rcases hc with rfl | rfl <;> rfl
  | point hdigits =>
    obtain ⟨htake, hdrop⟩ := takeWhile_append_of_stops hdigits hrest.stops
    rw [List.cons_append, readFraction, htake, hdrop]

theorem isFraction_readFraction (text : List Char) :
    ∃ fraction, IsFraction fraction (readFraction text).1 ∧
      text = fraction ++ (readFraction text).2 := by
  unfold readFraction
  split
  · next rest =>
    refine ⟨_, .point fun c hc => List.all_eq_true.1 List.all_takeWhile c hc, ?_⟩
    rw [List.cons_append, List.takeWhile_append_dropWhile]
  · exact ⟨_, .none, rfl⟩

theorem value_eq (hsign : IsSign sign s) (int digits : List Char) (e : ℤ) :
    value ⟨decide (s < 0), ofDigits (int ++ digits), e - digits.length⟩ =
      s * (ofDigits int + ofDigits digits / 10 ^ digits.length) * 10 ^ e := by
  have hfactor : (if decide (s < 0) = true then (-1 : ℚ) else 1) = s := by
    cases hsign <;> simp
  have hpow : (10 : ℚ) ^ digits.length ≠ 0 := by positivity
  rw [value, Decimal.sign, size, hfactor, ofDigits_append, zpow_sub₀ (by norm_num), zpow_natCast]
  push_cast
  field_simp

/-- The parts of a numeral are found. -/
theorem readNumeral_eq {exponent : List Char} (hsign : IsSign sign s) (hint : AllDigits int)
    (hfraction : IsFraction fraction digits) (hne : int ++ digits ≠ [])
    (hexponent : IsExponent exponent e) :
    readNumeral (sign ++ (int ++ (fraction ++ exponent))) =
      some ⟨decide (s < 0), ofDigits (int ++ digits), e - digits.length⟩ := by
  have hhead : ∀ c ∈ (int ++ (fraction ++ exponent)).head?, c ≠ '-' ∧ c ≠ '+' := by
    by_cases hempty : int = []
    · -- a number without digits before its point begins with the point
      subst hempty
      cases hfraction with
      | none => exact absurd rfl hne
      | point => simp
    · exact hint.no_sign hempty
  obtain ⟨htake, hdrop⟩ := takeWhile_append_of_stops hint (hfraction.stops hexponent.stops)
  simp only [readNumeral, readSign_append hsign hhead, htake, hdrop,
    readFraction_append hfraction hexponent, readExponent_eq_some.2 hexponent]
  exact if_neg hne

/-- Exactly the numerals are read, and as their numbers. -/
theorem denotes_iff {v : ℚ} :
    Denotes text v ↔ ∃ x, readNumeral text = some x ∧ x.value = v := by
  constructor
  · rintro ⟨hsign, hint, hfraction, hne, hexponent⟩
    exact ⟨_, readNumeral_eq hsign hint hfraction hne hexponent, value_eq hsign _ _ _⟩
  · rintro ⟨x, hx, rfl⟩
    obtain ⟨sign, s, hsign, htext, hnegative⟩ := isSign_readSign text
    simp only [readNumeral, hnegative] at hx
    generalize (readSign text).2 = rest at hx htext
    obtain ⟨fraction, hfraction, hrest⟩ :=
      isFraction_readFraction (rest.dropWhile Char.isDigit)
    generalize readFraction (rest.dropWhile Char.isDigit) = r at hx hfraction hrest
    split_ifs at hx with hne
    obtain ⟨e, hexponent, rfl⟩ := Option.map_eq_some_iff.1 hx
    have hnumeral := Denotes.intro hsign (List.all_eq_true.1 List.all_takeWhile) hfraction hne
      (readExponent_eq_some.1 hexponent)
    rwa [← hrest, List.takeWhile_append_dropWhile, ← htext, ← value_eq hsign] at hnumeral

/-- A text stands for at most one number. -/
theorem Denotes.unique {v w : ℚ} (hv : Denotes text v) (hw : Denotes text w) : v = w := by
  obtain ⟨x, hx, rfl⟩ := denotes_iff.1 hv
  obtain ⟨y, hy, rfl⟩ := denotes_iff.1 hw
  rw [hx] at hy
  rw [Option.some.inj hy]

end Read

/-! ### The constructor -/

/-- What a text may stand for. -/
inductive Literal
  | finite (x : Decimal)
  | infinity
  | nan
  deriving DecidableEq

def readLiteral (text : List Char) : Option Literal :=
  match readNumeral text with
  | some x => some (.finite x)
  | none =>
    let rest := (readSign text).2.map Char.toLower
    if rest = "inf".toList ∨ rest = "infinity".toList then some .infinity
    else if rest.take 3 = "nan".toList ∧ (rest.drop 3).all Char.isDigit then some .nan
    else if rest.take 4 = "snan".toList ∧ (rest.drop 4).all Char.isDigit then some .nan
    else none

theorem readLiteral_eq_finite {text : List Char} {x : Decimal} :
    readLiteral text = some (.finite x) ↔ readNumeral text = some x := by
  unfold readLiteral
  cases readNumeral text with
  | none =>
    dsimp only
    split_ifs <;> simp
  | some y => simp

/-- The numbers with the greatest precision and exponents. -/
def Constructible (x : Decimal) : Prop :=
  -1999999999999999997 ≤ x.exponent ∧ numDigits x.coefficient ≤ 999999999999999999 ∧
    if x.coefficient = 0 then x.exponent ≤ 999999999999999999
    else x.adjusted ≤ 999999999999999999

instance (x : Decimal) : Decidable x.Constructible :=
  inferInstanceAs (Decidable (_ ∧ _ ∧ ite _ _ _))

section Constructor

-- the white space, and the digits outside ASCII
variable (isSpace : Char → Bool) (toDecimal : Char → Option (Fin 10))

def asciiChar (c : Char) : Option Char :=
  if 0 < c.toNat ∧ c.toNat < 128 then some c
  else if isSpace c then some ' '
  else (toDecimal c).map fun d => Nat.digitChar d

/-- Without white space around it. -/
def trim (text : List Char) : List Char := (text.dropWhile isSpace).rdropWhile isSpace

/-- Without its underscores too. -/
def numericAsAscii (text : List Char) : Option (List Char) :=
  ((trim isSpace text).filter (· ≠ '_')).mapM (asciiChar isSpace toDecimal)

/-- `Decimal(text)`, which is exact. -/
def ofText (text : List Char) : Except Signal Literal :=
  match (numericAsAscii isSpace toDecimal text).bind readLiteral with
  | some (.finite x) => if x.Constructible then .ok (.finite x) else .error .invalidOperation
  | some literal => .ok literal
  | none => .error .invalidOperation

theorem trim_trim (text : List Char) : trim isSpace (trim isSpace text) = trim isSpace text := by
  have hhead : (trim isSpace text).dropWhile isSpace = trim isSpace text := by
    rw [List.dropWhile_eq_self_iff]
    intro hl
    have hpre : trim isSpace text <+: text.dropWhile isSpace :=
      List.rdropWhile_prefix isSpace _
    rw [hpre.getElem hl]
    exact List.dropWhile_get_zero_not isSpace text (hl.trans_le hpre.length_le)
  rw [trim, hhead, trim, List.rdropWhile_idempotent]

variable {isSpace} in
theorem trim_eq_self {text : List Char} (h : ∀ c ∈ text, isSpace c = false) :
    trim isSpace text = text := by
  have hdrop : text.dropWhile isSpace = text :=
    List.dropWhile_eq_self_iff.2 fun hl => by simp [h _ (List.getElem_mem hl)]
  rw [trim, hdrop, List.rdropWhile_eq_self_iff]
  intro hl
  simp [h _ (List.getLast_mem hl)]

theorem numericAsAscii_trim (text : List Char) :
    numericAsAscii isSpace toDecimal (trim isSpace text) =
      numericAsAscii isSpace toDecimal text := by
  rw [numericAsAscii, trim_trim, numericAsAscii]

/-- Characters that stand for themselves. -/
def Plain (c : Char) : Prop := isSpace c = false ∧ c ≠ '_' ∧ 0 < c.toNat ∧ c.toNat < 128

variable {isSpace toDecimal}

theorem numericAsAscii_of_plain {text : List Char} (h : ∀ c ∈ text, Plain isSpace c) :
    numericAsAscii isSpace toDecimal text = some text := by
  have htrim : trim isSpace text = text := trim_eq_self fun c hc => (h c hc).1
  have hfilter : text.filter (· ≠ '_') = text :=
    List.filter_eq_self.2 fun c hc => decide_eq_true (h c hc).2.1
  rw [numericAsAscii, htrim, hfilter]
  clear htrim hfilter
  induction text with
  | nil => rfl
  | cons c text ih =>
    have hc : asciiChar isSpace toDecimal c = some c := if_pos (h c List.mem_cons_self).2.2
    rw [List.mapM_cons, hc, ih fun d hd => h d (List.mem_cons_of_mem c hd)]
    rfl

theorem ofText_eq_ok {text : List Char} {x : Decimal} :
    ofText isSpace toDecimal text = .ok (.finite x) ↔ x.Constructible ∧
      ∃ ascii, numericAsAscii isSpace toDecimal text = some ascii ∧
        readNumeral ascii = some x := by
  have hread : (numericAsAscii isSpace toDecimal text).bind readLiteral = some (.finite x) ↔
      ∃ ascii, numericAsAscii isSpace toDecimal text = some ascii ∧ readNumeral ascii = some x := by
    simp only [Option.bind_eq_some_iff, readLiteral_eq_finite]
  rw [← hread, ofText]
  generalize (numericAsAscii isSpace toDecimal text).bind readLiteral = literal
  rcases literal with _ | ⟨y⟩ | _ | _
  · simp
  · dsimp only
    split_ifs with hy
    · constructor
      · intro h
        obtain rfl := Literal.finite.inj (Except.ok.inj h)
        exact ⟨hy, rfl⟩
      · rintro ⟨-, h⟩
        rw [Option.some.inj h]
    · constructor
      · intro h
        cases h
      · rintro ⟨hx, h⟩
        exact absurd (Literal.finite.inj (Option.some.inj h) ▸ hx) hy
  · simp
  · simp

end Constructor

/-! ### Fixed point -/

/-- `format(x, "f")` of a number without a positive exponent. -/
def formatFixed (x : Decimal) : List Char :=
  let places := (-x.exponent).toNat
  let digits := Nat.toDigits 10 x.coefficient
  let padded := List.replicate (places + 1 - digits.length) '0' ++ digits
  let unsigned :=
    if places = 0 then padded
    else padded.take (padded.length - places) ++ '.' :: padded.drop (padded.length - places)
  if x.negative then '-' :: unsigned else unsigned

/-- At least one digit stands before the point. -/
theorem exists_formatFixed (n k : ℕ) : ∃ int digits : List Char, AllDigits int ∧ AllDigits digits ∧
    int ≠ [] ∧ digits.length = k ∧ ofDigits (int ++ digits) = n ∧
      formatFixed ⟨false, n, -k⟩ = if k = 0 then int else int ++ '.' :: digits := by
  have hplaces : (-(-(k : ℤ))).toNat = k := by omega
  simp only [formatFixed, hplaces, if_neg Bool.false_ne_true]
  generalize hpadded : List.replicate (k + 1 - (Nat.toDigits 10 n).length) '0' ++
    Nat.toDigits 10 n = padded
  have hlength : k + 1 ≤ padded.length := by
    rw [← hpadded, List.length_append, List.length_replicate]
    omega
  have hdigits : AllDigits padded :=
    hpadded ▸ (allDigits_replicate_zero _).append (allDigits_toDigits n)
  have hvalue : ofDigits padded = n := by
    rw [← hpadded, ofDigits_append, ofDigits_replicate_zero, zero_mul, zero_add, ofDigits_toDigits]
  refine ⟨padded.take (padded.length - k), padded.drop (padded.length - k),
    fun c hc => hdigits c (List.mem_of_mem_take hc),
    fun c hc => hdigits c (List.mem_of_mem_drop hc), ?_, ?_, ?_, ?_⟩
  · rw [← List.length_pos_iff, List.length_take]
    omega
  · rw [List.length_drop]
    omega
  · rw [List.take_append_drop, hvalue]
  · split_ifs with hk
    · rw [hk, Nat.sub_zero, List.take_length]
    · rfl

/-- A number is read from its text. -/
theorem readNumeral_formatFixed (n k : ℕ) :
    readNumeral (formatFixed ⟨false, n, -k⟩) = some ⟨false, n, -k⟩ := by
  obtain ⟨int, digits, hint, hdigits, hne, rfl, rfl, htext⟩ := exists_formatFixed n k
  rw [htext]
  split_ifs with hzero
  · have hread := readNumeral_eq .none hint .none (by simpa using hne) .none
    obtain rfl := List.length_eq_zero_iff.1 hzero
    simpa using hread
  · have hread := readNumeral_eq .none hint (.point hdigits) (by simp [hne]) .none
    simpa using hread

theorem mem_formatFixed {n k : ℕ} {c : Char} (h : c ∈ formatFixed ⟨false, n, -k⟩) :
    c.isDigit = true ∨ c = '.' := by
  obtain ⟨int, digits, hint, hdigits, -, -, -, htext⟩ := exists_formatFixed n k
  rw [htext] at h
  split_ifs at h
  · exact .inl (hint c h)
  · rcases List.mem_append.1 h with h | h
    · exact .inl (hint c h)
    · rcases List.mem_cons.1 h with rfl | h
      · exact .inr rfl
      · exact .inl (hdigits c h)

end Decimal
