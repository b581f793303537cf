import Ghos.Program.Instruction
import Ghos.Program.Auditor
import Ghos.Program.Burner
import Ghos.Program.Token

/-!
# The whole program as a machine

`Entrypoint` collects the fourteen entry points of `lib.rs`: the six of `Instruction`, which act on
the ledger alone, and the eight that act on a registry or on the accounts of other programs.  The
state of the other programs is not the program's own: each `Call` finds some state there, and the
output of the call says what became of it.
-/

namespace Ghos

/-- An entry point of the program with its accounts and arguments. -/
inductive Entrypoint (Pubkey Digest : Type)
  | core (instruction : Instruction Pubkey Digest)
  | shield (accounts : Shield Pubkey) (amount : UInt64)
  | applyPending (accounts : ApplyPending Pubkey) (expectedPendingCounter : UInt64)
      (newDecryptableAvailable : Vector UInt8 36)
  | confidentialTransfer (accounts : ConfidentialTransfer Pubkey) (destinationOwner : Pubkey)
      (newSourceDecryptableBalance : Vector UInt8 36)
  | withdraw (accounts : Withdraw Pubkey) (amount : UInt64)
      (newDecryptableAvailable : Vector UInt8 36)
  | createBurner (accounts : CreateBurner Pubkey) (nonce : UInt64) (ttlSeconds : Int64)
  | destroyBurner (accounts : DestroyBurner Pubkey) (zeroProofBytes : List UInt8)
  | auditorRegister (accounts : AuditorRegister Pubkey) (auditorPubkey : Vector UInt8 32)
      (pubkeyValidityProof : List UInt8) (rotationCooldown : Int64)
  | auditorRotate (accounts : AuditorRotate Pubkey) (newAuditorPubkey : Vector UInt8 32)
      (pubkeyValidityProof : List UInt8)
  deriving DecidableEq

/-- A call as the runtime presents it: the clock, the signers, the state of the other programs and
the entry point. -/
structure Call (Pubkey Digest World : Type) where
  now : Int64
  signers : List Pubkey
  world : World
  entrypoint : Entrypoint Pubkey Digest

/-- What a call emits, and the state in which it leaves the other programs. -/
abbrev Output (Pubkey Digest World : Type) :=
  (Event Pubkey Digest ⊕ RegistryEvent Pubkey) × World

variable {Pubkey Digest World : Type} [DecidableEq Pubkey] [DecidableEq Digest]
  [AddressSpace Pubkey] [Sha256 Digest] [External Pubkey World]

/-- The entry points of the program. -/
def Call.dispatch (c : Chain Pubkey Digest) (t : Call Pubkey Digest World) :
    Outcome (Chain Pubkey Digest × Output Pubkey Digest World) :=
  match t.entrypoint with
  | .core instruction => do
    let (ledger, event) ← Ghos.dispatch c.ledger ⟨t.now, t.signers, instruction⟩
    return ({ c with ledger }, .inl event, t.world)
  | .shield accounts amount => do
    let (event, world) ← shield c t.world t.now t.signers accounts amount
    return (c, .inr event, world)
  | .applyPending accounts expectedPendingCounter newDecryptableAvailable => do
    let (event, world) ← applyPending c t.world t.now t.signers accounts expectedPendingCounter
      newDecryptableAvailable
    return (c, .inr event, world)
  | .confidentialTransfer accounts destinationOwner newSourceDecryptableBalance => do
    let (event, world) ← confidentialTransfer c t.world t.now t.signers accounts destinationOwner
      newSourceDecryptableBalance
    return (c, .inr event, world)
  | .withdraw accounts amount newDecryptableAvailable => do
    let (event, world) ← withdraw c t.world t.now t.signers accounts amount
      newDecryptableAvailable
    return (c, .inr event, world)
  | .createBurner accounts nonce ttlSeconds => do
    let (c, event) ← createBurner c t.now t.signers accounts nonce ttlSeconds
    return (c, .inr event, t.world)
  | .destroyBurner accounts zeroProofBytes => do
    let (c, event, world) ← destroyBurner c t.world t.now t.signers accounts zeroProofBytes
    return (c, .inr event, world)
  | .auditorRegister accounts auditorPubkey pubkeyValidityProof rotationCooldown => do
    let (c, event, world) ← auditorRegister c t.world t.now t.signers accounts auditorPubkey
      pubkeyValidityProof rotationCooldown
    return (c, .inr event, world)
  | .auditorRotate accounts newAuditorPubkey pubkeyValidityProof => do
    let (c, event, world) ← auditorRotate c t.world t.now t.signers accounts newAuditorPubkey
      pubkeyValidityProof
    return (c, .inr event, world)

/-- The program: a machine over its accounts. -/
def program : Machine (Chain Pubkey Digest) (Call Pubkey Digest World) Failure
    (Output Pubkey Digest World) where
  init := ⟨fun _ => none, fun _ => none, fun _ => none⟩
  step := Call.dispatch

/-- The clock never goes back. -/
def ChronologicalCalls (run : List (Call Pubkey Digest World)) : Prop :=
  run.Pairwise fun t u => t.now ≤ u.now

omit [DecidableEq Pubkey] [DecidableEq Digest] [AddressSpace Pubkey] [Sha256 Digest]
  [External Pubkey World] in
theorem ChronologicalCalls.now_le {run : List (Call Pubkey Digest World)}
    (hclock : ChronologicalCalls run) {i j : ℕ} {t u : Call Pubkey Digest World}
    (ht : run[i]? = some t) (hu : run[j]? = some u) (hij : i < j) : t.now ≤ u.now := by
  obtain ⟨hi, rfl⟩ := List.getElem?_eq_some_iff.1 ht
  obtain ⟨hj, rfl⟩ := List.getElem?_eq_some_iff.1 hu
  exact List.pairwise_iff_getElem.1 hclock i j hi hj hij

end Ghos
