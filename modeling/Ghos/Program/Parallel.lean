import Ghos.Program.Footprints
import Ghos.Program.CallRequests

/-!
# Calls in parallel

Two calls conflict if they share an account that one of them declares `mut`.  A runtime that knows
only the declared accounts may execute calls without conflict all at once, and may let them overtake
each other: `calls_serializable`.  What makes this sound is that no call sees or changes more than
it declares, `call_confined`.
-/

namespace Ghos

variable {Pubkey Digest World : Type}

/-- A call is confined to its declared accounts. -/
structure Confined [DecidableEq Pubkey] [DecidableEq Digest] [AddressSpace Pubkey] [Sha256 Digest]
    [External Pubkey World] (t : Call Pubkey Digest World) : Prop where
  /-- It changes only what it declares `mut`. -/
  changes : ∀ (c c' : Chain Pubkey Digest) o, program.step c t = .ok (c', o) → ∀ a,
    (∀ field ∈ t.entrypoint.accountFields, field.writable → field.key ≠ a) → SameAt c' c a
  /-- It acts alike on chains that agree on what it declares, whoever else has signed. -/
  sees : ∀ (c d : Chain Pubkey Digest) (signers : List Pubkey),
    (∀ field ∈ t.entrypoint.accountFields, SameAt c d field.key) →
    (∀ field ∈ t.entrypoint.accountFields, field.signer →
      (field.key ∈ t.signers ↔ field.key ∈ signers)) →
    Coupled (KeepsSame c d) (program.step c t) (program.step d { t with signers })

/-- Two calls share an account that one of them may change. -/
def Call.Conflicts (t u : Call Pubkey Digest World) : Prop :=
  ∃ f ∈ t.entrypoint.accountFields, ∃ g ∈ u.entrypoint.accountFields,
    f.key = g.key ∧ (f.writable ∨ g.writable)

instance [DecidableEq Pubkey] (t u : Call Pubkey Digest World) : Decidable (t.Conflicts u) :=
  inferInstanceAs (Decidable (∃ f ∈ t.entrypoint.accountFields,
    ∃ g ∈ u.entrypoint.accountFields, f.key = g.key ∧ (f.writable ∨ g.writable)))

/-- The labelled calls of `run` in another order; calls in conflict have kept theirs. -/
structure Rescheduled {ι : Type} (run run' : List (ι × Call Pubkey Digest World)) : Prop where
  perm : run.Perm run'
  order : run'.Pairwise fun u t => [t, u].Sublist run → ¬ t.2.Conflicts u.2

variable [DecidableEq Pubkey] [DecidableEq Digest] [AddressSpace Pubkey] [Sha256 Digest]
  [External Pubkey World] {ι : Type}

theorem call_confined (t : Call Pubkey Digest World) : Confined t where
  changes _ _ _ h _ ha := (call_effect h).frame ha
  sees _ _ _ hc hS := dispatch_coupled hc hS

theorem independent_iff {t u : Call Pubkey Digest World} :
    footprint.Independent t u ↔ ¬ t.Conflicts u := by
  constructor
  · rintro ⟨htu, hut⟩ ⟨f, hf, g, hg, hkey, hw⟩
    rcases hw with hw | hw
    · exact htu _ ⟨f, hf, hw, rfl⟩ ⟨g, hg, hkey.symm⟩
    · exact hut _ ⟨g, hg, hw, rfl⟩ ⟨f, hf, hkey⟩
  · intro h
    constructor
    · rintro a ⟨f, hf, hw, rfl⟩ ⟨g, hg, hkey⟩
      exact h ⟨f, hf, g, hg, hkey.symm, .inl hw⟩
    · rintro a ⟨g, hg, hw, rfl⟩ ⟨f, hf, hkey⟩
      exact h ⟨f, hf, g, hg, hkey, .inr hw⟩

/-- Executed in batches without conflict, in any order that keeps calls in conflict in theirs, the
calls of a run leave the chain that the run leaves, and each of them succeeds with the same output
or fails with the same error. -/
theorem calls_serializable (c : Chain Pubkey Digest) {run : List (ι × Call Pubkey Digest World)}
    {batches : List (List (ι × Call Pubkey Digest World))}
    (hfree : ∀ batch ∈ batches, batch.Pairwise fun x y => ¬ x.2.Conflicts y.2)
    (horder : Rescheduled run batches.flatten) :
    footprint.execBatches c batches = program.exec c (run.map Prod.snd) ∧
      (footprint.recordBatches c batches).Perm (program.record c run) := by
  refine Machine.Footprint.schedule_serializable (fun batch hbatch => ?_) ⟨horder.perm, ?_⟩
  · exact (hfree batch hbatch).imp independent_iff.2
  · exact horder.order.imp fun h hsub => independent_iff.2 (h hsub)

/-! ### A sample schedule -/

namespace Sample

/-- The chain after `initialize`. -/
def started : Chain Sym (List UInt8) := program.exec program.init [(initializeBy admin 0).toCall ()]

/-- The burners of two owners. -/
def traffic : List (ℕ × Call Sym (List UInt8) Unit) :=
  [(0, createBurnerBy (.wallet 7) (.wallet 20) 0 60 5 ()),
    (1, createBurnerBy (.wallet 8) (.wallet 21) 0 60 5 ()),
    (2, createBurnerBy (.wallet 7) (.wallet 22) 1 60 5 ())]

/-- The second owner goes first, together with the first burner of the first owner. -/
def batches : List (List (ℕ × Call Sym (List UInt8) Unit)) :=
  [[(1, createBurnerBy (.wallet 8) (.wallet 21) 0 60 5 ()),
      (0, createBurnerBy (.wallet 7) (.wallet 20) 0 60 5 ())],
    [(2, createBurnerBy (.wallet 7) (.wallet 22) 1 60 5 ())]]

end Sample

theorem calls_serializable_sample :
    footprint.execBatches Sample.started Sample.batches =
      program.exec Sample.started (Sample.traffic.map Prod.snd) ∧
      (footprint.recordBatches Sample.started Sample.batches).Perm
        (program.record Sample.started Sample.traffic) := by
  refine calls_serializable _ ?_ ⟨List.Perm.swap _ _ _, ?_⟩
  · simp only [Sample.batches, List.forall_mem_cons]
    exact ⟨List.pairwise_pair.2 (by decide), List.pairwise_singleton _ _, by simp⟩
  · refine List.pairwise_cons.2 ⟨?_, List.pairwise_pair.2 fun hsub => ?_⟩
    · refine List.forall_mem_cons.2 ⟨fun _ => by decide, List.forall_mem_cons.2 ⟨?_, by simp⟩⟩
      exact fun _ => by decide
    -- the two burners of one owner share the payer, and they are in their order
    · exact absurd (hsub.map Prod.fst) (by decide)

end Ghos
