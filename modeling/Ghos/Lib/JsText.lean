import Mathlib.Data.List.DropRight
import Mathlib.Tactic

/-!
# Strings and numbers of JavaScript

A string is a list of characters and a number is an exact rational, an infinity or `NaN`.

* `trim`, `toLowerCase`: the white space, and the letters as far as they become ASCII;
* `units`: the code units of UTF-16;
* `parseInt`: the integer at the beginning of a string (`parseInt_of_no_sign`);
* `Number`: the comparisons of a number with a count.
-/

namespace Js

/-! ### Strings -/

/-- The whitespace of `String.prototype.trim`. -/
def isWhitespace (c : Char) : Bool :=
  c.toNat ∈ [0x09, 0x0a, 0x0b, 0x0c, 0x0d, 0x20, 0xa0, 0x1680, 0x2000, 0x2001, 0x2002, 0x2003,
    0x2004, 0x2005, 0x2006, 0x2007, 0x2008, 0x2009, 0x200a, 0x2028, 0x2029, 0x202f, 0x205f, 0x3000,
    0xfeff]

def trim (text : List Char) : List Char :=
  (text.dropWhile isWhitespace).rdropWhile isWhitespace

/-- The two letters outside ASCII with ASCII letters as lower case are the Kelvin sign and the
dotted capital I. -/
def lowerChar (c : Char) : List Char :=
  if c.toNat = 0x212a then ['k']
  else if c.toNat = 0x130 then ['i', Char.ofNat 0x307]
  else [c.toLower]

/-- `toLowerCase`, which leaves the letters alone that do not become ASCII. -/
def toLowerCase (text : List Char) : List Char := text.flatMap lowerChar

/-- The code units of a character in UTF-16, two of them from `0x10000` on. -/
def units (c : Char) : List ℕ :=
  if c.toNat < 0x10000 then [c.toNat]
  else [0xd800 + (c.toNat - 0x10000) / 0x400, 0xdc00 + (c.toNat - 0x10000) % 0x400]

/-- The low byte of each code unit, as a character. -/
def lowBytes (text : List Char) : List Char :=
  (text.flatMap units).map fun u => Char.ofNat (u % 256)

/-- Below `256` a character is its own low byte. -/
theorem lowBytes_eq_self {text : List Char} (h : ∀ c ∈ text, c.toNat < 256) :
    lowBytes text = text := by
  induction text with
  | nil => rfl
  | cons c text ih =>
    rw [List.forall_mem_cons] at h
    have hunits : units c = [c.toNat] := if_pos (by omega)
    show ((units c ++ text.flatMap units).map fun u => Char.ofNat (u % 256)) = c :: text
    rw [hunits, List.singleton_append, List.map_cons, Nat.mod_eq_of_lt h.1, Char.ofNat_toNat]
    exact congrArg _ (ih h.2)

/-! ### Integers -/

def digitValue (c : Char) : Option ℕ :=
  if '0' ≤ c ∧ c ≤ '9' then some (c.toNat - 48)
  else if 'a' ≤ c ∧ c ≤ 'f' then some (c.toNat - 87)
  else if 'A' ≤ c ∧ c ≤ 'F' then some (c.toNat - 55)
  else none

def isDigit (radix : ℕ) (c : Char) : Bool := (digitValue c).any (· < radix)

/-- The value of the digits at the beginning. -/
def parseDigits (radix : ℕ) (text : List Char) : Option ℕ :=
  match text.takeWhile (isDigit radix) with
  | [] => none
  | digits => some (digits.foldl (fun n c => radix * n + (digitValue c).getD 0) 0)

/-- The mark of a hexadecimal number is skipped. -/
def skipMark (radix : ℕ) : List Char → List Char
  | '0' :: 'x' :: rest => if radix = 16 then rest else '0' :: 'x' :: rest
  | '0' :: 'X' :: rest => if radix = 16 then rest else '0' :: 'X' :: rest
  | text => text

/-- `parseInt(text, radix)` before it is rounded to a double; `none` stands for `NaN`. -/
def parseInt (radix : ℕ) (text : List Char) : Option ℤ :=
  match text.dropWhile isWhitespace with
  | '-' :: rest => (parseDigits radix (skipMark radix rest)).map fun n => -(n : ℤ)
  | '+' :: rest => (parseDigits radix (skipMark radix rest)).map fun n => (n : ℤ)
  | rest => (parseDigits radix (skipMark radix rest)).map fun n => (n : ℤ)

/-- A property of the digits is checked on their codes. -/
theorem forall_isDigit {P : Char → Prop}
    (h : ∀ n < 103, isDigit 16 (Char.ofNat n) = true → P (Char.ofNat n)) :
    ∀ c, isDigit 16 c = true → P c := by
  intro c hc
  have hlt : c.toNat < 103 := by
    by_contra hlarge
    have hnone : digitValue c = none := by
      have hnine : ¬ c ≤ '9' := fun hle => hlarge (lt_of_le_of_lt hle (by decide))
      have hsmall : ¬ c ≤ 'f' := fun hle => hlarge (lt_of_le_of_lt hle (by decide))
      have hlarge : ¬ c ≤ 'F' := fun hle => hlarge (lt_of_le_of_lt hle (by decide))
      simp [digitValue, hnine, hsmall, hlarge]
    simp [isDigit, hnone] at hc
  have hP := h c.toNat hlt
  rw [Char.ofNat_toNat] at hP
  exact hP hc

/-- Digits are neither white space nor signs nor marks. -/
theorem isDigit_ne : ∀ c, isDigit 16 c = true →
    isWhitespace c = false ∧ c ≠ '-' ∧ c ≠ '+' ∧ c ≠ 'x' ∧ c ≠ 'X' :=
  forall_isDigit (by decide)

theorem isDigit_mono {radix radix' : ℕ} (hle : radix ≤ radix') {c : Char}
    (hc : isDigit radix c = true) : isDigit radix' c = true := by
  unfold isDigit at *
  cases hvalue : digitValue c with
  | none => simp [hvalue] at hc
  | some v =>
    simp only [hvalue, Option.any_some, decide_eq_true_eq] at hc ⊢
    omega

theorem parseDigits_isSome (radix : ℕ) (text : List Char) :
    (parseDigits radix text).isSome = text.head?.any (isDigit radix) := by
  cases text with
  | nil => rfl
  | cons c text =>
    by_cases hc : isDigit radix c = true
    · simp [parseDigits, hc]
    · simp [parseDigits, hc]

theorem map_cast_eq (x : Option ℕ) (f : ℤ → ℤ) :
    Option.map f (do let n ← x; pure (n : ℤ)) = Option.map (fun n : ℕ => f n) x := by
  cases x <;> rfl

/-- Without a sign, the digits come first. -/
theorem parseInt_of_no_sign {radix : ℕ} {a : Char} {text : List Char}
    (hspace : isWhitespace a = false) (hminus : a ≠ '-') (hplus : a ≠ '+') :
    parseInt radix (a :: text) =
      Option.map Int.ofNat (parseDigits radix (skipMark radix (a :: text))) := by
  rw [parseInt, List.dropWhile_cons_of_neg (by simp [hspace])]
  split
  · next h => exact absurd (List.cons.inj h).1 hminus
  · next h => exact absurd (List.cons.inj h).1 hplus
  · exact map_cast_eq _ _

/-! ### Numbers -/

inductive Number
  | nan
  | negInfinity
  | finite (q : ℚ)
  | posInfinity
  deriving DecidableEq

namespace Number

/-- `k <= n`. -/
def AtLeast : Number → ℕ → Prop
  | nan, _ | negInfinity, _ => False
  | finite q, k => (k : ℚ) ≤ q
  | posInfinity, _ => True

/-- `k === n`. -/
def Equals (n : Number) (k : ℕ) : Prop := n = finite k

instance (n : Number) (k : ℕ) : Decidable (n.AtLeast k) :=
  match n with
  | nan | negInfinity => inferInstanceAs (Decidable False)
  | finite q => inferInstanceAs (Decidable ((k : ℚ) ≤ q))
  | posInfinity => inferInstanceAs (Decidable True)

instance (n : Number) (k : ℕ) : Decidable (n.Equals k) :=
  inferInstanceAs (Decidable (n = finite k))

theorem AtLeast.mono {n : Number} {j k : ℕ} (h : n.AtLeast k) (hjk : j ≤ k) : n.AtLeast j := by
  cases n with
  | nan => exact h
  | negInfinity => exact h
  | finite q => exact (Nat.cast_le.2 hjk).trans h
  | posInfinity => exact h

/-- A number below which there is still one is not equal to it. -/
theorem AtLeast.not_equals {n : Number} {j k : ℕ} (h : n.AtLeast k) (hjk : j < k) :
    ¬ n.Equals j := by
  rintro rfl
  exact absurd (Nat.cast_le.1 h) (not_le.2 hjk)

/-- Only infinity is at least every count. -/
theorem exists_not_atLeast {n : Number} (h : n ≠ posInfinity) : ∃ k, ¬ n.AtLeast k := by
  cases n with
  | nan => exact ⟨0, id⟩
  | negInfinity => exact ⟨0, id⟩
  | finite q =>
    obtain ⟨k, hk⟩ := exists_nat_gt q
    exact ⟨k, not_le.2 hk⟩
  | posInfinity => exact absurd rfl h

end Number

end Js
