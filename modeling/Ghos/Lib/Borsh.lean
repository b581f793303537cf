import Ghos.Lib.Bounded

/-!
# Reading Borsh

A reader takes a value off the front of a byte string and hands on the rest.  `take`, `array`,
`u32` and `vec` read raw bytes, an array of fixed length, a length and a `Vec<u8>`.  Each comes with
the lemma that says how the byte string it accepts is put together; what follows the value is up to
the next reader, or is ignored.  `uint` reads a number of any width, and `u8`, `u16`, `u64`, `i64`
and `bool` are cut out of it.
-/

/-- A value read off the front, and the bytes that follow it. -/
abbrev BorshReader (α : Type*) := List UInt8 → Option (α × List UInt8)

namespace Borsh

variable {b rest x p : List UInt8} {n : ℕ}

/-- The first `n` bytes. -/
def take (n : ℕ) : BorshReader (List UInt8) := fun b =>
  if n ≤ b.length then some (b.take n, b.drop n) else none

/-- `[u8; n]`. -/
def array (n : ℕ) : BorshReader (Vector UInt8 n) := fun b =>
  if h : n ≤ b.length then some (⟨(b.take n).toArray, by simpa using h⟩, b.drop n) else none

/-- `u32`, little-endian. -/
def u32 : BorshReader ℕ := fun b => (take 4 b).map fun (p, rest) => (leNat p, rest)

/-- `Vec<u8>`: the length, then the bytes. -/
def vec : BorshReader (List UInt8) := fun b => (u32 b).bind fun (n, rest) => take n rest

/-- An unsigned number of `n` bytes, little-endian. -/
def uint (n : ℕ) : BorshReader ℕ := fun b => (take n b).map fun (p, rest) => (leNat p, rest)

def u8 : BorshReader UInt8 := fun b => (uint 1 b).map fun (x, rest) => (UInt8.ofNat x, rest)

def u16 : BorshReader UInt16 := fun b => (uint 2 b).map fun (x, rest) => (UInt16.ofNat x, rest)

def u64 : BorshReader UInt64 := fun b => (uint 8 b).map fun (x, rest) => (UInt64.ofNat x, rest)

/-- `i64`, in two's complement. -/
def i64 : BorshReader Int64 := fun b => (uint 8 b).map fun (x, rest) => (Int64.ofNat x, rest)

/-- `bool`: one byte, zero or one. -/
def bool : BorshReader Bool := fun b => (uint 1 b).bind fun (x, rest) =>
  match x with
  | 0 => some (false, rest)
  | 1 => some (true, rest)
  | _ => none

theorem take_eq_some : take n b = some (x, rest) ↔ x.length = n ∧ b = x ++ rest := by
  unfold take
  split_ifs with h
  · rw [Option.some.injEq, Prod.mk.injEq]
    constructor
    · rintro ⟨rfl, rfl⟩
      exact ⟨List.length_take_of_le h, (List.take_append_drop n b).symm⟩
    · rintro ⟨rfl, rfl⟩
      exact ⟨List.take_left, List.drop_left⟩
  · refine iff_of_false (by simp) ?_
    rintro ⟨rfl, rfl⟩
    exact h (by simp)

theorem array_eq_some {v : Vector UInt8 n} : array n b = some (v, rest) ↔ b = v.toList ++ rest := by
  unfold array
  split_ifs with h
  · rw [Option.some.injEq, Prod.mk.injEq, ← Vector.toList_inj]
    constructor
    · rintro ⟨hv, rfl⟩
      rw [← hv]
      exact (List.take_append_drop n b).symm
    · rintro rfl
      exact ⟨List.take_left' v.length_toList, List.drop_left' v.length_toList⟩
  · refine iff_of_false (by simp) ?_
    rintro rfl
    exact h (by simp)

theorem u32_eq_some : u32 b = some (n, rest) ↔ ∃ p, p.length = 4 ∧ leNat p = n ∧ b = p ++ rest := by
  unfold u32
  rw [Option.map_eq_some_iff]
  constructor
  · rintro ⟨⟨p, rest'⟩, hp, heq⟩
    cases heq
    obtain ⟨hlen, hb⟩ := take_eq_some.1 hp
    exact ⟨p, hlen, rfl, hb⟩
  · rintro ⟨p, hlen, rfl, hb⟩
    exact ⟨(p, rest), take_eq_some.2 ⟨hlen, hb⟩, rfl⟩

theorem vec_eq_some :
    vec b = some (x, rest) ↔ ∃ p, p.length = 4 ∧ leNat p = x.length ∧ b = p ++ (x ++ rest) := by
  unfold vec
  rw [Option.bind_eq_some_iff]
  constructor
  · rintro ⟨⟨n, rest'⟩, hn, hx⟩
    obtain ⟨p, hlen, rfl, rfl⟩ := u32_eq_some.1 hn
    obtain ⟨hxlen, rfl⟩ := take_eq_some.1 hx
    exact ⟨p, hlen, hxlen.symm, rfl⟩
  · rintro ⟨p, hlen, hn, rfl⟩
    exact ⟨(x.length, x ++ rest), u32_eq_some.2 ⟨p, hlen, hn, rfl⟩, take_eq_some.2 ⟨rfl, rfl⟩⟩

theorem uint_append (hp : p.length = n) : uint n (p ++ rest) = some (leNat p, rest) := by
  rw [uint, take_eq_some.2 ⟨hp, rfl⟩]
  rfl

theorem u64_eq_some {v : UInt64} : u64 b = some (v, rest) ↔ b = v.toLeBytes ++ rest := by
  simp only [u64, uint, Option.map_map, Option.map_eq_some_iff, Prod.exists, Function.comp,
    take_eq_some, Prod.mk.injEq]
  constructor
  · rintro ⟨p, rest', ⟨hlen, rfl⟩, hv, rfl⟩
    rw [(UInt64.ofNat_leNat_eq_iff hlen).1 hv]
  · rintro rfl
    exact ⟨_, rest, ⟨v.length_toLeBytes, rfl⟩,
      (UInt64.ofNat_leNat_eq_iff v.length_toLeBytes).2 rfl, rfl⟩

theorem i64_eq_some {v : Int64} : i64 b = some (v, rest) ↔ b = v.toLeBytes ++ rest := by
  simp only [i64, uint, Option.map_map, Option.map_eq_some_iff, Prod.exists, Function.comp,
    take_eq_some, Prod.mk.injEq]
  constructor
  · rintro ⟨p, rest', ⟨hlen, rfl⟩, hv, rfl⟩
    rw [(Int64.ofNat_leNat_eq_iff hlen).1 hv]
  · rintro rfl
    exact ⟨_, rest, ⟨v.length_toLeBytes, rfl⟩,
      (Int64.ofNat_leNat_eq_iff v.length_toLeBytes).2 rfl, rfl⟩

theorem u64_append (hp : p.length = 8) : u64 (p ++ rest) = some (UInt64.ofNat (leNat p), rest) := by
  rw [u64, uint_append hp]
  rfl

theorem i64_append (hp : p.length = 8) : i64 (p ++ rest) = some (Int64.ofNat (leNat p), rest) := by
  rw [i64, uint_append hp]
  rfl

end Borsh
