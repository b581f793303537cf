import Ghos.Lib.Borsh
import Mathlib.Data.PEquiv

/-!
# Codecs

A codec says how a value is written as tokens and how it is read off the front of them.  Its law
`read_eq_some` makes the two agree: what is read is what was written, and nothing else is read.  So
codecs of parts make a codec of the whole.

* `seq`, `sigma`: one value after the other; a tag and then what the tag announces;
* `via`: values of another type, by a partial equivalence;
* `HasWidth`: every value takes the same number of tokens;
* `u8` … `vec`: the readers of Borsh with what they read;
* `AtLeast`: how many tokens a value takes at least.
-/

/-- How values are written as tokens, if they can be, and read off the front. -/
structure Codec (τ α : Type) where
  write : α → Option (List τ)
  read : List τ → Option (α × List τ)
  read_eq_some : ∀ {s rest : List τ} {x : α},
    read s = some (x, rest) ↔ ∃ p, write x = some p ∧ s = p ++ rest

namespace Codec

variable {τ α β ι : Type} {γ : ι → Type}

section Laws

variable {A : Codec τ α} {s p q rest : List τ} {x y : α}

theorem read_append (h : A.write x = some p) (rest : List τ) :
    A.read (p ++ rest) = some (x, rest) :=
  A.read_eq_some.2 ⟨p, h, rfl⟩

theorem exists_write (h : A.read s = some (x, rest)) : ∃ p, A.write x = some p ∧ s = p ++ rest :=
  A.read_eq_some.1 h

/-- What is read is what has an encoding at the front. -/
theorem exists_read_iff :
    (∃ rest, A.read s = some (x, rest)) ↔ ∃ p, A.write x = some p ∧ p <+: s := by
  constructor
  · rintro ⟨rest, h⟩
    obtain ⟨p, hp, rfl⟩ := A.exists_write h
    exact ⟨p, hp, List.prefix_append p rest⟩
  · rintro ⟨p, hp, rest, rfl⟩
    exact ⟨rest, A.read_append hp rest⟩

theorem exists_read_append_iff (h : A.write x = some p) :
    (∃ rest', A.read (p ++ rest) = some (y, rest')) ↔ y = x := by
  rw [A.read_append h]
  simp [eq_comm]

end Laws

/-- Every value has an encoding. -/
def total (write : α → List τ) (read : List τ → Option (α × List τ))
    (h : ∀ s rest x, read s = some (x, rest) ↔ s = write x ++ rest) : Codec τ α where
  write x := some (write x)
  read := read
  read_eq_some {s rest x} := by
    rw [h s rest x]
    simp

/-- No tokens for the one value. -/
def nil : Codec τ Unit := .total (fun _ => []) (fun s => some ((), s)) fun s rest x => by
  simp [eq_comm]

/-- One value after the other. -/
def seq (A : Codec τ α) (B : Codec τ β) : Codec τ (α × β) where
  write x := do
    let p ← A.write x.1
    let q ← B.write x.2
    return p ++ q
  read s := do
    let (x, s) ← A.read s
    let (y, s) ← B.read s
    return ((x, y), s)
  read_eq_some {s rest x} := by
    obtain ⟨x, y⟩ := x
    simp only [bind, Option.bind_eq_some_iff, Prod.exists, pure, Option.some.injEq, Prod.mk.injEq,
      A.read_eq_some, B.read_eq_some]
    constructor
    · rintro ⟨_, _, ⟨p, hp, rfl⟩, _, _, ⟨q, hq, rfl⟩, ⟨rfl, rfl⟩, rfl⟩
      exact ⟨p ++ q, ⟨p, hp, q, hq, rfl⟩, (List.append_assoc p q _).symm⟩
    · rintro ⟨_, ⟨p, hp, q, hq, rfl⟩, rfl⟩
      exact ⟨x, q ++ rest, ⟨p, hp, List.append_assoc p q rest⟩, y, rest, ⟨q, hq, rfl⟩, ⟨rfl, rfl⟩,
        rfl⟩

theorem seq_write_eq_some {A : Codec τ α} {B : Codec τ β} {x : α × β} {s : List τ} :
    (A.seq B).write x = some s ↔
      ∃ p q, A.write x.1 = some p ∧ B.write x.2 = some q ∧ s = p ++ q := by
  simp only [seq, bind, Option.bind_eq_some_iff, pure, Option.some.injEq]
  constructor
  · rintro ⟨p, hp, q, hq, rfl⟩
    exact ⟨p, q, hp, hq, rfl⟩
  · rintro ⟨p, q, hp, hq, rfl⟩
    exact ⟨p, hp, q, hq, rfl⟩

theorem seq_write {A : Codec τ α} {B : Codec τ β} {x : α} {y : β} {p q : List τ}
    (hx : A.write x = some p) (hy : B.write y = some q) :
    (A.seq B).write (x, y) = some (p ++ q) :=
  seq_write_eq_some.2 ⟨p, q, hx, hy, rfl⟩

/-- A tag, and then a value of the type that the tag announces. -/
def sigma (T : Codec τ ι) (A : ∀ i, Codec τ (γ i)) : Codec τ (Σ i, γ i) where
  write x := do
    let p ← T.write x.1
    let q ← (A x.1).write x.2
    return p ++ q
  read s := do
    let (i, s) ← T.read s
    let (x, s) ← (A i).read s
    return (⟨i, x⟩, s)
  read_eq_some {s rest x} := by
    obtain ⟨i, x⟩ := x
    simp only [bind, Option.bind_eq_some_iff, Prod.exists, pure, Option.some.injEq, Prod.mk.injEq,
      T.read_eq_some]
    constructor
    · rintro ⟨j, _, ⟨p, hp, rfl⟩, y, _, hread, heq, rfl⟩
      cases heq
      obtain ⟨q, hq, rfl⟩ := (A i).read_eq_some.1 hread
      exact ⟨p ++ q, ⟨p, hp, q, hq, rfl⟩, (List.append_assoc p q _).symm⟩
    · rintro ⟨_, ⟨p, hp, q, hq, rfl⟩, rfl⟩
      exact ⟨i, q ++ rest, ⟨p, hp, List.append_assoc p q rest⟩, x, rest, (A i).read_append hq rest,
        rfl, rfl⟩

/-- Values of another type.  Tokens of a value without a counterpart are not read, and a value
without one is not written. -/
def via (A : Codec τ α) (e : α ≃. β) : Codec τ β where
  write y := (e.symm y).bind A.write
  read s := do
    let (x, s) ← A.read s
    let y ← e x
    return (y, s)
  read_eq_some {s rest y} := by
    simp only [bind, Option.bind_eq_some_iff, Prod.exists, pure, Option.some.injEq, Prod.mk.injEq,
      A.read_eq_some]
    constructor
    · rintro ⟨x, _, ⟨p, hp, rfl⟩, _, hy, rfl, rfl⟩
      exact ⟨p, ⟨x, (PEquiv.mem_iff_mem e).2 hy, hp⟩, rfl⟩
    · rintro ⟨p, ⟨x, hx, hp⟩, rfl⟩
      exact ⟨x, rest, ⟨p, hp, rfl⟩, y, (PEquiv.mem_iff_mem e).1 hx, rfl, rfl⟩

/-- The values of an equivalent type. -/
def iso (A : Codec τ α) (e : α ≃ β) : Codec τ β := A.via e.toPEquiv

@[simp] theorem iso_write (A : Codec τ α) (e : α ≃ β) (y : β) :
    (A.iso e).write y = A.write (e.symm y) := rfl

/-- Values with a code. -/
def coded (A : Codec τ α) (code : β → α) (name : α → Option β)
    (h : ∀ x y, name x = some y ↔ code y = x) : Codec τ β :=
  A.via
    { toFun := name
      invFun := fun y => some (code y)
      inv := fun x y => by
        show some (code y) = some x ↔ name x = some y
        rw [h x y, Option.some.injEq] }

/-- The decoder of a code for finitely many values looks through them. -/
theorem find?_eq_some_iff [DecidableEq α] {code : ι → α} (hcode : Function.Injective code)
    {all : List ι} (hall : ∀ i, i ∈ all) (x : α) (i : ι) :
    (all.find? fun i => code i = x) = some i ↔ code i = x := by
  constructor
  · intro h
    exact of_decide_eq_true (List.find?_some h :)
  · intro h
    cases hfind : all.find? fun i => code i = x with
    | none =>
      have hnone := List.find?_eq_none.1 hfind i (hall i)
      exact absurd (decide_eq_true h) hnone
    | some j =>
      have hj : code j = x := of_decide_eq_true (List.find?_some hfind :)
      rw [hcode (hj.trans h.symm)]

/-! ### Widths -/

/-- Every encoding takes `n` tokens. -/
def HasWidth (A : Codec τ α) (n : ℕ) : Prop := ∀ x p, A.write x = some p → p.length = n

namespace HasWidth

variable {A : Codec τ α} {B : Codec τ β} {m n : ℕ}

theorem seq (hA : A.HasWidth m) (hB : B.HasWidth n) : (A.seq B).HasWidth (m + n) := by
  intro x s hs
  obtain ⟨p, q, hp, hq, rfl⟩ := seq_write_eq_some.1 hs
  rw [List.length_append, hA x.1 p hp, hB x.2 q hq]

theorem via (hA : A.HasWidth n) (e : α ≃. β) : (A.via e).HasWidth n := by
  intro y p hp
  obtain ⟨x, -, hx⟩ := Option.bind_eq_some_iff.1 hp
  exact hA x p hx

theorem iso (hA : A.HasWidth n) (e : α ≃ β) : (A.iso e).HasWidth n := hA.via _

end HasWidth

/-! ### Borsh -/

/-- `[u8; n]`. -/
def array (n : ℕ) : Codec UInt8 (Vector UInt8 n) :=
  .total Vector.toList (Borsh.array n) fun _ _ _ => Borsh.array_eq_some

def u8 : Codec UInt8 UInt8 := .total (fun x => [x]) Borsh.u8 fun s rest x => by
  simp only [Borsh.u8, Borsh.uint, Option.map_map, Option.map_eq_some_iff, Prod.exists,
    Function.comp, Borsh.take_eq_some, Prod.mk.injEq]
  constructor
  · rintro ⟨p, rest', ⟨hlen, rfl⟩, hx, rfl⟩
    obtain ⟨y, rfl⟩ := List.length_eq_one_iff.1 hlen
    rw [leNat_singleton, UInt8.ofNat_toNat] at hx
    rw [hx]
  · rintro rfl
    exact ⟨[x], rest, ⟨rfl, rfl⟩, by rw [leNat_singleton, UInt8.ofNat_toNat], rfl⟩

def u16 : Codec UInt8 UInt16 := .total (fun x => leBytes 2 x.toNat) Borsh.u16 fun s rest x => by
  simp only [Borsh.u16, Borsh.uint, Option.map_map, Option.map_eq_some_iff, Prod.exists,
    Function.comp, Borsh.take_eq_some, Prod.mk.injEq]
  constructor
  · rintro ⟨p, rest', ⟨hlen, rfl⟩, rfl, rfl⟩
    have hlt : leNat p < 2 ^ 16 := by
      have h := leNat_lt p
      rwa [hlen] at h
    rw [UInt16.toNat_ofNat_of_lt' hlt, leBytes_leNat hlen]
  · rintro rfl
    refine ⟨_, rest, ⟨length_leBytes 2 _, rfl⟩, ?_, rfl⟩
    rw [leNat_leBytes_of_lt x.toNat_lt, UInt16.ofNat_toNat]

def u32 : Codec UInt8 UInt32 :=
  .total (fun x => leBytes 4 x.toNat) (fun s => (Borsh.u32 s).map fun v => (.ofNat v.1, v.2))
  fun s rest x => by
    simp only [Option.map_eq_some_iff, Prod.exists, Prod.mk.injEq, Borsh.u32_eq_some]
    constructor
    · rintro ⟨n, rest', ⟨p, hlen, rfl, rfl⟩, rfl, rfl⟩
      have hlt : leNat p < 2 ^ 32 := by
        have h := leNat_lt p
        rwa [hlen] at h
      rw [UInt32.toNat_ofNat_of_lt' hlt, leBytes_leNat hlen]
    · rintro rfl
      refine ⟨x.toNat, rest, ⟨_, length_leBytes 4 _, leNat_leBytes_of_lt x.toNat_lt, rfl⟩, ?_, rfl⟩
      rw [UInt32.ofNat_toNat]

def u64 : Codec UInt8 UInt64 :=
  .total UInt64.toLeBytes Borsh.u64 fun _ _ _ => Borsh.u64_eq_some

def i64 : Codec UInt8 Int64 :=
  .total Int64.toLeBytes Borsh.i64 fun _ _ _ => Borsh.i64_eq_some

def bool : Codec UInt8 Bool := .total (fun x => [x.toUInt8]) Borsh.bool fun s rest x => by
  simp only [Borsh.bool, Borsh.uint, Option.bind_eq_some_iff, Option.map_eq_some_iff, Prod.exists,
    Borsh.take_eq_some, Prod.mk.injEq]
  constructor
  · rintro ⟨n, rest', ⟨p, _, ⟨hlen, rfl⟩, rfl, rfl⟩, hx⟩
    obtain ⟨y, rfl⟩ := List.length_eq_one_iff.1 hlen
    rw [leNat_singleton] at hx
    split at hx
    · rename_i h
      cases hx
      rw [UInt8.toNat_inj.1 (show y.toNat = (0 : UInt8).toNat from h)]
      rfl
    · rename_i h
      cases hx
      rw [UInt8.toNat_inj.1 (show y.toNat = (1 : UInt8).toNat from h)]
      rfl
    · cases hx
  · rintro rfl
    refine ⟨x.toNat, rest, ⟨[x.toUInt8], rest, ⟨rfl, rfl⟩, ?_, rfl⟩, ?_⟩ <;> cases x <;> rfl

/-- `Vec<u8>`, which has to be shorter than 2^32 bytes. -/
def vec : Codec UInt8 (List UInt8) where
  write x := if x.length < 2 ^ 32 then some (leBytes 4 x.length ++ x) else none
  read := Borsh.vec
  read_eq_some {s rest x} := by
    rw [Borsh.vec_eq_some]
    constructor
    · rintro ⟨p, hlen, hx, rfl⟩
      have hlt : leNat p < 2 ^ 32 := by
        have h := leNat_lt p
        rwa [hlen] at h
      rw [← hx, if_pos hlt, leBytes_leNat hlen]
      exact ⟨_, rfl, (List.append_assoc _ _ _).symm⟩
    · rintro ⟨p, hp, rfl⟩
      split_ifs at hp with hlt
      cases hp
      exact ⟨_, length_leBytes 4 _, leNat_leBytes_of_lt hlt, List.append_assoc _ _ _⟩

namespace HasWidth

theorem array (n : ℕ) : (Codec.array n).HasWidth n := by
  rintro x _ ⟨⟩
  exact x.length_toList

theorem u8 : Codec.u8.HasWidth 1 := by
  rintro x _ ⟨⟩
  rfl

theorem u16 : Codec.u16.HasWidth 2 := by
  rintro x _ ⟨⟩
  exact length_leBytes 2 _

theorem u32 : Codec.u32.HasWidth 4 := by
  rintro x _ ⟨⟩
  exact length_leBytes 4 _

theorem u64 : Codec.u64.HasWidth 8 := by
  rintro x _ ⟨⟩
  exact x.length_toLeBytes

theorem i64 : Codec.i64.HasWidth 8 := by
  rintro x _ ⟨⟩
  exact x.length_toLeBytes

theorem bool : Codec.bool.HasWidth 1 := by
  rintro x _ ⟨⟩
  rfl

end HasWidth

/-! ### Short inputs -/

/-- Every value takes `n` tokens or more. -/
def AtLeast (A : Codec τ α) (n : ℕ) : Prop := ∀ x p, A.write x = some p → n ≤ p.length

theorem HasWidth.atLeast {A : Codec τ α} {n : ℕ} (h : A.HasWidth n) : A.AtLeast n :=
  fun x p hp => (h x p hp).ge

namespace AtLeast

variable {A : Codec τ α} {B : Codec τ β} {m n : ℕ}

theorem not_exists_read (h : A.AtLeast n) {s : List τ} (hs : s.length < n) {x : α} :
    ¬ ∃ rest, A.read s = some (x, rest) := by
  rw [exists_read_iff]
  rintro ⟨p, hp, hfront⟩
  have hle := h x p hp
  have hlen := hfront.length_le
  omega

theorem seq (hA : A.AtLeast m) (hB : B.AtLeast n) : (A.seq B).AtLeast (m + n) := by
  intro x s hs
  obtain ⟨p, q, hp, hq, rfl⟩ := seq_write_eq_some.1 hs
  rw [List.length_append]
  exact Nat.add_le_add (hA x.1 p hp) (hB x.2 q hq)

theorem array (n : ℕ) : (Codec.array n).AtLeast n := (HasWidth.array n).atLeast

theorem u64 : Codec.u64.AtLeast 8 := HasWidth.u64.atLeast

theorem i64 : Codec.i64.AtLeast 8 := HasWidth.i64.atLeast

theorem vec : Codec.vec.AtLeast 4 := by
  intro x p hp
  simp only [Codec.vec] at hp
  split_ifs at hp
  cases hp
  rw [List.length_append, length_leBytes]
  exact Nat.le_add_right 4 _

end AtLeast

end Codec
