import Ghos.Client.Pdas

/-!
# The bytes under the addresses of the program

The runtime hashes the seeds of an account one after the other, and nothing says where a seed ends.
Some tags of `constants.rs` begin alike, and a key or a number may be any bytes.

* `ProgramPda.seedBytes_injective`: the bytes determine the account;
* `ProgramPda.seedBytes_separate`: two accounts with one address are a collision of the hash;
* `ProgramPda.seedBytes_eq_iff_concat`: `Seed.concat` tells the same accounts apart.
-/

namespace Ghos

/-- `PADDING_VAULT_SEED` -/
def paddingVaultSeed : List UInt8 := asciiBytes "ghos.padding"

/-- `Pubkey`, an array of 32 bytes. -/
abbrev PubkeyBytes := Vector UInt8 32

instance : Sdk.KeyBytes PubkeyBytes := ⟨id⟩

/-! ### The accounts -/

/-- The kinds of accounts that the program derives. -/
inductive PdaKind
  | config
  | burner
  | mixRound
  | mixCommitment
  | auditor
  | paddingVault
  deriving DecidableEq

/-- The lengths of the seeds of a kind, the tag first. -/
def PdaKind.widths : PdaKind → List ℕ
  | config => [11]
  | burner => [11, 32, 8]
  | mixRound => [14, 32, 8]
  | mixCommitment => [15, 32, 32]
  | auditor => [12, 32]
  | paddingVault => [12]

/-- The six totals are different. -/
theorem PdaKind.sum_widths_injective :
    Function.Injective fun kind : PdaKind => kind.widths.sum := by
  intro kind kind' h
  cases kind <;> cases kind' <;> first | rfl | exact absurd h (by decide)

/-- An account with the arguments of its seeds. -/
inductive ProgramPda
  | config
  | burner (owner : PubkeyBytes) (nonce : UInt64)
  | mixRound (mint : PubkeyBytes) (roundId : UInt64)
  | mixCommitment (round participant : PubkeyBytes)
  | auditor (mint : PubkeyBytes)
  | paddingVault
  deriving DecidableEq

namespace ProgramPda

def kind : ProgramPda → PdaKind
  | config => .config
  | burner _ _ => .burner
  | mixRound _ _ => .mixRound
  | mixCommitment _ _ => .mixCommitment
  | auditor _ => .auditor
  | paddingVault => .paddingVault

/-- The seeds, as the constraints of the instructions list them. -/
def seeds : ProgramPda → List (Seed PubkeyBytes)
  | config => configSeeds
  | burner owner nonce => burnerSeeds owner nonce
  | mixRound mint roundId => mixRoundSeeds mint roundId
  | mixCommitment round participant => mixCommitmentSeeds round participant
  | auditor mint => auditorSeeds mint
  | paddingVault => [.bytes paddingVaultSeed]

/-- The slices that the runtime is given. -/
def slices (a : ProgramPda) : List (List UInt8) := a.seeds.map Seed.toBytes

/-- The slices one after the other. -/
def seedBytes (a : ProgramPda) : List UInt8 := a.slices.flatten

variable {a b : ProgramPda}

/-! ### The bytes determine the account -/

theorem slices_burner (owner : PubkeyBytes) (nonce : UInt64) :
    (burner owner nonce).slices = [burnerSeed, owner.toList, nonce.toLeBytes] := rfl

theorem slices_mixRound (mint : PubkeyBytes) (roundId : UInt64) :
    (mixRound mint roundId).slices = [mixRoundSeed, mint.toList, roundId.toLeBytes] := rfl

theorem slices_mixCommitment (round participant : PubkeyBytes) :
    (mixCommitment round participant).slices =
      [mixCommitmentSeed, round.toList, participant.toList] := rfl

theorem slices_auditor (mint : PubkeyBytes) :
    (auditor mint).slices = [auditorSeed, mint.toList] := rfl

theorem map_length_slices (a : ProgramPda) : a.slices.map List.length = a.kind.widths := by
  cases a with
  | config => rfl
  | burner owner nonce =>
    simp only [slices_burner, List.map_cons, Vector.length_toList, UInt64.length_toLeBytes]
    rfl
  | mixRound mint roundId =>
    simp only [slices_mixRound, List.map_cons, Vector.length_toList, UInt64.length_toLeBytes]
    rfl
  | mixCommitment round participant =>
    simp only [slices_mixCommitment, List.map_cons, Vector.length_toList]
    rfl
  | auditor mint =>
    simp only [slices_auditor, List.map_cons, Vector.length_toList]
    rfl
  | paddingVault => rfl

/-- The total length says which kind it is. -/
theorem kind_eq_of_length (h : a.seedBytes.length = b.seedBytes.length) : a.kind = b.kind := by
  refine PdaKind.sum_widths_injective ?_
  dsimp only
  rw [← map_length_slices, ← map_length_slices, ← List.length_flatten, ← List.length_flatten]
  exact h

theorem eq_of_slices_eq (hkind : a.kind = b.kind) (h : a.slices = b.slices) : a = b := by
  cases a <;> cases b <;> cases hkind
  case config.config => rfl
  case burner.burner owner nonce owner' nonce' =>
    simp only [slices_burner, List.cons.injEq, Vector.toList_inj, true_and, and_true] at h
    rw [h.1, UInt64.toLeBytes_injective h.2]
  case mixRound.mixRound mint roundId mint' roundId' =>
    simp only [slices_mixRound, List.cons.injEq, Vector.toList_inj, true_and, and_true] at h
    rw [h.1, UInt64.toLeBytes_injective h.2]
  case mixCommitment.mixCommitment round participant round' participant' =>
    simp only [slices_mixCommitment, List.cons.injEq, Vector.toList_inj, true_and, and_true] at h
    rw [h.1, h.2]
  case auditor.auditor mint mint' =>
    simp only [slices_auditor, List.cons.injEq, Vector.toList_inj, true_and, and_true] at h
    rw [h]
  case paddingVault.paddingVault => rfl

/-- The slices are cut out again, because the total length gives their lengths. -/
theorem seedBytes_injective : Function.Injective seedBytes := by
  intro a b h
  have hkind : a.kind = b.kind := kind_eq_of_length (congrArg List.length h)
  refine eq_of_slices_eq hkind (List.eq_iff_flatten_eq.2 ⟨h, ?_⟩)
  rw [map_length_slices, map_length_slices, hkind]

theorem seedBytes_bump_ne (h : a ≠ b) (bump bump' : UInt8) :
    a.seedBytes ++ [bump] ≠ b.seedBytes ++ [bump'] := fun heq =>
  h (seedBytes_injective (List.append_inj' heq rfl).1)

end ProgramPda

/-! ### The addresses -/

/-- `Pubkey::find_program_address` for one program: an address that it finds is the hash of the
seeds, the bump, and bytes that belong to the program. -/
structure PdaFinder (Digest : Type) [Sha256 Digest] where
  find : List (List UInt8) → Option (Digest × UInt8)
  programBytes : List UInt8
  hashed : ∀ {slices address bump}, find slices = some (address, bump) →
    address = hashv (slices ++ [[bump], programBytes])

namespace ProgramPda

variable {a b : ProgramPda}

/-- What is hashed for an account. -/
def preimage (a : ProgramPda) (bump : UInt8) (programBytes : List UInt8) : List UInt8 :=
  a.seedBytes ++ [bump] ++ programBytes

theorem preimage_ne (h : a ≠ b) (bump bump' : UInt8) (programBytes : List UInt8) :
    a.preimage bump programBytes ≠ b.preimage bump' programBytes := fun heq =>
  seedBytes_bump_ne h bump bump' (List.append_cancel_right heq)

theorem hashv_slices {Digest : Type} [Sha256 Digest] (a : ProgramPda) (bump : UInt8)
    (programBytes : List UInt8) :
    (hashv (a.slices ++ [[bump], programBytes]) : Digest) =
      Sha256.sha256 (a.preimage bump programBytes) := by
  rw [hashv, preimage, seedBytes, List.flatten_append, List.append_assoc]
  simp

/-- Two accounts of the program are hashed from different bytes.  If they share an address, these
bytes are a collision. -/
theorem seedBytes_separate (h : a ≠ b) :
    a.seedBytes ≠ b.seedBytes ∧
      (∀ bump bump' : UInt8, a.seedBytes ++ [bump] ≠ b.seedBytes ++ [bump']) ∧
      ∀ {Digest : Type} [Sha256 Digest] (finder : PdaFinder Digest) {address : Digest}
        {bump bump' : UInt8}, finder.find a.slices = some (address, bump) →
        finder.find b.slices = some (address, bump') →
        Sdk.Collides Digest (a.preimage bump finder.programBytes)
          (b.preimage bump' finder.programBytes) := by
  refine ⟨fun heq => h (seedBytes_injective heq), seedBytes_bump_ne h, ?_⟩
  intro Digest _ finder address bump bump' hfind hfind'
  refine ⟨preimage_ne h bump bump' finder.programBytes, ?_⟩
  rw [← hashv_slices, ← hashv_slices, ← finder.hashed hfind, ← finder.hashed hfind']

/-! ### The concatenation of the address space -/

/-- `Seed.concat` keeps a key as one letter.  Its bytes are the bytes of the slices. -/
theorem flatMap_concat (seeds : List (Seed PubkeyBytes)) :
    (Seed.concat seeds).flatMap (Sum.elim (fun byte => [byte]) Vector.toList) =
      (seeds.map Seed.toBytes).flatten := by
  induction seeds with
  | nil => rfl
  | cons seed seeds ih =>
    cases seed with
    | bytes b =>
      rw [Seed.concat, List.flatMap_append, ih]
      simp [Seed.toBytes, List.flatMap_map]
    | key k =>
      rw [Seed.concat, List.flatMap_cons, ih]
      rfl

/-- Between accounts of the program it makes no difference whether keys are letters or bytes. -/
theorem seedBytes_eq_iff_concat :
    a.seedBytes = b.seedBytes ↔ Seed.concat a.seeds = Seed.concat b.seeds := by
  constructor
  · intro h
    rw [seedBytes_injective h]
  · intro h
    rw [seedBytes, seedBytes, slices, slices, ← flatMap_concat, ← flatMap_concat, h]

end ProgramPda

/-! ### A concrete finder -/

namespace Sample

/-- A finder that takes the last bump, for a hash that keeps its input. -/
def finder : PdaFinder (List UInt8) where
  find slices := some (hashv (slices ++ [[255], asciiBytes "ProgramDerivedAddress"]), 255)
  programBytes := asciiBytes "ProgramDerivedAddress"
  hashed h := by
    cases h
    rfl

/-- The auditor entry of a mint, and the vault: the two tags have one length. -/
def auditorOfZero : ProgramPda := .auditor (.replicate 32 0)

end Sample

theorem ProgramPda.seedBytes_separate_sample :
    Sample.auditorOfZero.seedBytes ≠ ProgramPda.paddingVault.seedBytes ∧
      (Sample.finder.find Sample.auditorOfZero.slices).map Prod.fst ≠
        (Sample.finder.find ProgramPda.paddingVault.slices).map Prod.fst := by
  have h := ProgramPda.seedBytes_separate
    (show Sample.auditorOfZero ≠ ProgramPda.paddingVault from nofun)
  refine ⟨h.1, fun heq => ?_⟩
  have heq : (hashv _ : List UInt8) = hashv _ := Option.some.inj heq
  have hcollides := h.2.2 Sample.finder rfl (congrArg (fun a => some (a, (255 : UInt8))) heq.symm)
  exact hcollides.1 hcollides.2

end Ghos
