import Ghos.Lib.Bounded

/-!
# What the program takes from the Solana runtime

* `Seed`, `AddressSpace`: program derived addresses.  `createProgramAddress` is the address of a
  seed list and a bump, `findProgramAddress` picks the canonical bump.  Addresses are hashes of
  the concatenated seeds and the bump, so seed lists with different concatenations never share an
  address.
* `Sha256`, `hashv`: the hash syscall, which hashes the concatenation of its slices.

Both are parameters of the development.  `Sym` is the free address space, in which an address is
its own seed list; it is used for concrete runs.
-/

namespace Ghos

/-- A seed: a byte string or the bytes of a key. -/
inductive Seed (Pubkey : Type)
  | bytes (b : List UInt8)
  | key (k : Pubkey)
  deriving DecidableEq

/-- The seeds one after the other; where a seed ends is not recorded. -/
def Seed.concat {Pubkey : Type} : List (Seed Pubkey) → List (UInt8 ⊕ Pubkey)
  | [] => []
  | .bytes b :: seeds => b.map .inl ++ concat seeds
  | .key k :: seeds => .inr k :: concat seeds

/-- Program derived addresses: one address for each concatenation of seeds and bump. -/
class AddressSpace (Pubkey : Type) where
  createProgramAddress : List (Seed Pubkey) → UInt8 → Option Pubkey
  findProgramAddress : List (Seed Pubkey) → Pubkey × UInt8
  systemProgramId : Pubkey
  create_find : ∀ seeds, createProgramAddress seeds (findProgramAddress seeds).2 =
    some (findProgramAddress seeds).1
  create_injective : ∀ {seeds seeds' bump bump' a}, createProgramAddress seeds bump = some a →
    createProgramAddress seeds' bump' = some a →
    Seed.concat seeds = Seed.concat seeds' ∧ bump = bump'

export AddressSpace (createProgramAddress findProgramAddress systemProgramId)

theorem findProgramAddress_injective {Pubkey : Type} [AddressSpace Pubkey]
    {seeds seeds' : List (Seed Pubkey)}
    (h : (findProgramAddress seeds).1 = (findProgramAddress seeds').1) :
    Seed.concat seeds = Seed.concat seeds' :=
  (AddressSpace.create_injective (AddressSpace.create_find seeds)
    (h ▸ AddressSpace.create_find seeds')).1

/-- The hash function of the runtime. -/
class Sha256 (Digest : Type) where
  sha256 : List UInt8 → Digest

/-- The hash of a list of slices is the hash of their concatenation. -/
def hashv {Digest : Type} [Sha256 Digest] (vals : List (List UInt8)) : Digest :=
  Sha256.sha256 vals.flatten

/-! ### The free address space -/

/-- Keys as terms: a wallet, or the concatenation of a seed list closed by its bump. -/
inductive Sym
  | wallet (n : ℕ)
  | bump (b : UInt8)
  | byte (b : UInt8) (rest : Sym)
  | key (k : Sym) (rest : Sym)
  deriving DecidableEq

/-- Seeds and a bump as a term. -/
def Sym.derive : List (UInt8 ⊕ Sym) → UInt8 → Sym
  | [], b => .bump b
  | .inl x :: seeds, b => .byte x (derive seeds b)
  | .inr k :: seeds, b => .key k (derive seeds b)

theorem Sym.derive_injective {seeds seeds' : List (UInt8 ⊕ Sym)} {b b' : UInt8}
    (h : derive seeds b = derive seeds' b') : seeds = seeds' ∧ b = b' := by
  induction seeds generalizing seeds' with
  | nil =>
    cases seeds' with
    | nil => exact ⟨rfl, Sym.bump.inj h⟩
    | cons s seeds' => cases s <;> cases h
  | cons s seeds ih =>
    cases seeds' with
    | nil => cases s <;> cases h
    | cons s' seeds' =>
      cases s <;> cases s' <;>
        simp only [derive, Sym.byte.injEq, Sym.key.injEq, reduceCtorEq] at h
      all_goals
        obtain ⟨rfl, h⟩ := h
        obtain ⟨rfl, rfl⟩ := ih h
        exact ⟨rfl, rfl⟩

instance : AddressSpace Sym where
  createProgramAddress seeds b := some (Sym.derive (Seed.concat seeds) b)
  findProgramAddress seeds := (Sym.derive (Seed.concat seeds) 255, 255)
  systemProgramId := .wallet 0
  create_find _ := rfl
  create_injective h h' := Sym.derive_injective (Option.some.inj (h.trans h'.symm))

/-- The hash that keeps its input. -/
instance : Sha256 (List UInt8) := ⟨id⟩

end Ghos
