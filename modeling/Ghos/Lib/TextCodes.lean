import Ghos.Lib.Bounded
import Mathlib.Tactic

/-!
# Base64 and Base58

Byte strings as text.  `Base64.decode` reads up to the first padding character, skips what is not in
the alphabet, and undoes `Base64.encode` (`Base64.decode_encode`).  `Base58.decode` looks for the byte
string with a text, and there is at most one of a length (`Base58.decode_eq_some`).
-/

namespace Base64

/-- The characters for `0` to `63`. -/
def alphabet : List Char :=
  "ABCDEFGHIJKLMNOPQRSTUVWXYZabcdefghijklmnopqrstuvwxyz0123456789+/".toList

/-- The character of a sextet. -/
def digit (n : ℕ) : Char := alphabet.getD n '='

/-- The sextet of a character, also in the alphabet that is safe in URLs. -/
def sextet (c : Char) : Option ℕ :=
  if c = '-' then some 62
  else if c = '_' then some 63
  else alphabet.idxOf? c

/-- Three bytes are four digits. -/
def encode : List UInt8 → List Char
  | x :: y :: z :: rest =>
    digit (x.toNat / 4) :: digit (x.toNat % 4 * 16 + y.toNat / 16) ::
      digit (y.toNat % 16 * 4 + z.toNat / 64) :: digit (z.toNat % 64) :: encode rest
  | [x, y] =>
    [digit (x.toNat / 4), digit (x.toNat % 4 * 16 + y.toNat / 16), digit (y.toNat % 16 * 4), '=']
  | [x] => [digit (x.toNat / 4), digit (x.toNat % 4 * 16), '=', '=']
  | [] => []

/-- The bytes of a list of sextets; what does not make up a byte is dropped. -/
def bytes : List ℕ → List UInt8
  | a :: b :: c :: d :: rest =>
    .ofNat (a * 4 + b / 16) :: .ofNat (b % 16 * 16 + c / 4) :: .ofNat (c % 4 * 64 + d) :: bytes rest
  | [a, b, c] => [.ofNat (a * 4 + b / 16), .ofNat (b % 16 * 16 + c / 4)]
  | [a, b] => [.ofNat (a * 4 + b / 16)]
  | _ => []

/-- The digits in a text up to the first padding character. -/
def sextets (text : List Char) : List ℕ := (text.takeWhile (· ≠ '=')).filterMap sextet

/-- The bytes of the digits in a text, as far as the first padding character. -/
def decode (text : List Char) : List UInt8 := bytes (sextets text)

theorem sextet_digit {n : ℕ} (hn : n < 64) : sextet (digit n) = some n := by
  have hall : ∀ k : Fin 64, sextet (digit k) = some k.val := by decide +kernel
  exact hall ⟨n, hn⟩

theorem digit_ne_pad {n : ℕ} (hn : n < 64) : digit n ≠ '=' := by
  have hall : ∀ k : Fin 64, digit k ≠ '=' := by decide +kernel
  exact hall ⟨n, hn⟩

@[simp] theorem sextets_nil : sextets [] = [] := rfl

/-- What follows a padding character is not read. -/
theorem sextets_pad (text : List Char) : sextets ('=' :: text) = [] := by
  rw [sextets, List.takeWhile_cons_of_neg (by simp)]
  rfl

theorem sextets_digit {n : ℕ} (hn : n < 64) (text : List Char) :
    sextets (digit n :: text) = n :: sextets text := by
  rw [sextets, List.takeWhile_cons_of_pos (by simpa using digit_ne_pad hn),
    List.filterMap_cons_some (sextet_digit hn)]
  rfl

/-- The first byte from its two sextets, and so on. -/
theorem first_byte (x y : UInt8) :
    x.toNat / 4 * 4 + (x.toNat % 4 * 16 + y.toNat / 16) / 16 = x.toNat := by
  have hy := y.toNat_lt
  omega

theorem second_byte (x y z : UInt8) :
    (x.toNat % 4 * 16 + y.toNat / 16) % 16 * 16 + (y.toNat % 16 * 4 + z.toNat / 64) / 4 =
      y.toNat := by
  have hy := y.toNat_lt
  have hz := z.toNat_lt
  omega

theorem third_byte (y z : UInt8) :
    (y.toNat % 16 * 4 + z.toNat / 64) % 4 * 64 + z.toNat % 64 = z.toNat := by
  have hz := z.toNat_lt
  omega

theorem decode_encode (b : List UInt8) : decode (encode b) = b := by
  unfold decode
  induction b using encode.induct with
  | case1 x y z rest ih =>
    have hx := x.toNat_lt
    have hy := y.toNat_lt
    have hz := z.toNat_lt
    simp only [encode, sextets_digit (show x.toNat / 4 < 64 by omega),
      sextets_digit (show x.toNat % 4 * 16 + y.toNat / 16 < 64 by omega),
      sextets_digit (show y.toNat % 16 * 4 + z.toNat / 64 < 64 by omega),
      sextets_digit (show z.toNat % 64 < 64 by omega), bytes, ih, first_byte, second_byte,
      third_byte, UInt8.ofNat_toNat]
  | case2 x y =>
    have hx := x.toNat_lt
    have hy := y.toNat_lt
    have hsecond := second_byte x y 0
    simp only [UInt8.toNat_zero, Nat.zero_div, Nat.add_zero] at hsecond
    simp only [encode, sextets_digit (show x.toNat / 4 < 64 by omega),
      sextets_digit (show x.toNat % 4 * 16 + y.toNat / 16 < 64 by omega),
      sextets_digit (show y.toNat % 16 * 4 < 64 by omega), sextets_pad, bytes, first_byte, hsecond,
      UInt8.ofNat_toNat]
  | case3 x =>
    have hx := x.toNat_lt
    have hfirst := first_byte x 0
    simp only [UInt8.toNat_zero, Nat.zero_div, Nat.add_zero] at hfirst
    simp only [encode, sextets_digit (show x.toNat / 4 < 64 by omega),
      sextets_digit (show x.toNat % 4 * 16 < 64 by omega), sextets_pad, bytes, hfirst,
      UInt8.ofNat_toNat]
  | case4 => rfl

theorem digit_mem (n : ℕ) : digit n ∈ '=' :: alphabet := by
  unfold digit
  rw [List.getD_eq_getElem?_getD]
  cases h : alphabet[n]? with
  | none => simp
  | some c => exact List.mem_cons_of_mem _ (List.mem_of_getElem? h)

/-- Only digits and padding occur. -/
theorem mem_encode {b : List UInt8} : ∀ c ∈ encode b, c ∈ '=' :: alphabet := by
  induction b using encode.induct with
  | case1 x y z rest ih =>
    simp only [encode, List.forall_mem_cons]
    exact ⟨digit_mem _, digit_mem _, digit_mem _, digit_mem _, ih⟩
  | case2 x y =>
    simp only [encode, List.forall_mem_cons]
    exact ⟨digit_mem _, digit_mem _, digit_mem _, List.mem_cons_self, by simp⟩
  | case3 x =>
    simp only [encode, List.forall_mem_cons]
    exact ⟨digit_mem _, digit_mem _, List.mem_cons_self, List.mem_cons_self, by simp⟩
  | case4 => simp [encode]

theorem encode_ne_nil {b : List UInt8} (hb : b ≠ []) : encode b ≠ [] := by
  intro h
  have hdecode := decode_encode b
  rw [h] at hdecode
  exact hb hdecode.symm

end Base64

namespace Base58

/-- The characters for `0` to `57`. -/
def alphabet : List Char := "123456789ABCDEFGHJKLMNPQRSTUVWXYZabcdefghijkmnopqrstuvwxyz".toList

/-- The big-endian number of the bytes. -/
def value (b : List UInt8) : ℕ := Nat.ofDigits 256 (b.reverse.map UInt8.toNat)

/-- The number in base 58, with a one for each zero byte that leads. -/
def encode (b : List UInt8) : List Char :=
  List.replicate (b.takeWhile (· = 0)).length '1' ++
    ((Nat.digits 58 (value b)).reverse.map fun n => alphabet.getD n '1')

theorem mem_encode {b : List UInt8} : ∀ c ∈ encode b, c ∈ alphabet := by
  intro c hc
  rcases List.mem_append.1 hc with hone | hdigit
  · rw [(List.mem_replicate.1 hone).2]
    decide
  · obtain ⟨n, -, rfl⟩ := List.mem_map.1 hdigit
    rw [List.getD_eq_getElem?_getD]
    cases h : alphabet[n]? with
    | none => decide
    | some c => exact List.mem_of_getElem? h

/-! ### The number of a text -/

theorem value_eq_leNat (b : List UInt8) : value b = leNat b.reverse := by
  unfold value
  induction b.reverse with
  | nil => rfl
  | cons x l ih => rw [List.map_cons, Nat.ofDigits_cons, ih, leNat]

/-- The number of the digits, most significant first. -/
def number (text : List Char) : ℕ :=
  Nat.ofDigits 58 (text.reverse.map fun c => alphabet.idxOf c)

theorem idxOf_getD : ∀ n < 58, alphabet.idxOf (alphabet.getD n '1') = n := by decide

/-- Leading ones do not count. -/
theorem number_encode (b : List UInt8) : number (encode b) = value b := by
  have hdigits : ((Nat.digits 58 (value b)).map fun n => alphabet.getD n '1').map
      (fun c => alphabet.idxOf c) = Nat.digits 58 (value b) := by
    rw [List.map_map]
    refine (List.map_congr_left fun n hn => ?_).trans (List.map_id _)
    exact idxOf_getD n (Nat.digits_lt_base (by omega) hn)
  have hone : alphabet.idxOf '1' = 0 := by decide
  rw [number, encode, List.reverse_append, List.map_append, ← List.map_reverse,
    List.reverse_reverse, hdigits, List.reverse_replicate, List.map_replicate, hone,
    Nat.ofDigits_append_replicate_zero, Nat.ofDigits_digits]

/-- The bytes of a number, most significant first. -/
def bytes (n k : ℕ) : Vector UInt8 n := ⟨(leBytes n k).reverse.toArray, by simp [length_leBytes]⟩

theorem bytes_value {n : ℕ} (b : Vector UInt8 n) : bytes n (value b.toList) = b := by
  apply Vector.toList_inj.1
  show (leBytes n (value b.toList)).reverse.toArray.toList = b.toList
  rw [value_eq_leNat, leBytes_leNat (by simp), List.reverse_reverse, List.toList_toArray]

/-- The byte string of a length with a text. -/
def decode (n : ℕ) (text : List Char) : Option (Vector UInt8 n) :=
  if encode (bytes n (number text)).toList = text then some (bytes n (number text)) else none

theorem decode_eq_some {n : ℕ} {text : List Char} {b : Vector UInt8 n} :
    decode n text = some b ↔ text = encode b.toList := by
  constructor
  · intro h
    unfold decode at h
    split_ifs at h with htext
    rw [← Option.some.inj h, htext]
  · rintro rfl
    rw [decode, number_encode, bytes_value, if_pos rfl]

/-- Leading zeros do not count. -/
theorem value_append_zeros (z : ℕ) (b : List UInt8) :
    value (List.replicate z 0 ++ b) = value b := by
  rw [value, List.reverse_append, List.map_append, List.reverse_replicate, List.map_replicate]
  exact Nat.ofDigits_append_replicate_zero _

/-- Byte strings have short texts. -/
theorem length_encode_le {b : List UInt8} {m : ℕ} (h : 256 ^ b.length ≤ 58 ^ m) :
    (encode b).length ≤ m := by
  have hsplit := List.takeWhile_append_dropWhile (p := fun x : UInt8 => decide (x = 0)) (l := b)
  have hzeros : b.takeWhile (fun x => decide (x = 0)) =
      List.replicate (b.takeWhile fun x => decide (x = 0)).length 0 :=
    List.eq_replicate_of_mem fun x hx => by simpa using List.all_eq_true.1 List.all_takeWhile x hx
  have hlength : (encode b).length =
      (b.takeWhile fun x => decide (x = 0)).length + (Nat.digits 58 (value b)).length := by
    simp [encode]
  rw [hlength]
  generalize b.dropWhile (fun x => decide (x = 0)) = rest at hsplit
  generalize (b.takeWhile fun x => decide (x = 0)).length = z at hzeros ⊢
  rw [hzeros] at hsplit
  subst hsplit
  rw [List.length_append, List.length_replicate] at h
  have hm : z + rest.length ≤ m := by
    rw [← Nat.pow_le_pow_iff_right (a := 58) (by omega)]
    exact (Nat.pow_le_pow_left (by omega) _).trans h
  have hvalue : value (List.replicate z 0 ++ rest) < 58 ^ (m - z) := by
    rw [value_append_zeros]
    have hrest : 256 ^ rest.length ≤ 58 ^ (m - z) := by
      apply Nat.le_of_mul_le_mul_right _ (Nat.pow_pos (n := z) (by omega : 0 < 58))
      calc 256 ^ rest.length * 58 ^ z
          ≤ 256 ^ rest.length * 256 ^ z :=
            Nat.mul_le_mul_left _ (Nat.pow_le_pow_left (by omega) z)
        _ = 256 ^ (z + rest.length) := by rw [← pow_add, add_comm]
        _ ≤ 58 ^ m := h
        _ = 58 ^ (m - z) * 58 ^ z := by rw [← pow_add, Nat.sub_add_cancel (by omega)]
    rw [value_eq_leNat]
    refine (leNat_lt rest.reverse).trans_le ?_
    rwa [List.length_reverse]
  have hdigits := (Nat.digits_length_le_iff (by omega) _).2 hvalue
  omega

end Base58
