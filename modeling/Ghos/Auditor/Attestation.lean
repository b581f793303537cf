import Ghos.Auditor.History
import Ghos.Program.CallRequests

/-!
# The key and its proof

The key and the proof of its validity are separate arguments of `auditor_register` and
`auditor_rotate`: the proof goes to the zk-token-proof program, the key into the entry, and nothing
compares them.  So the keys of the registry are attested exactly as far as the callers pass the key
that is in the proof (`keysAttested_iff`).

`attested` stands for what the zk-token-proof program knows: the public key in a proof, if the proof
shows that its author knows the secret.
-/

namespace Ghos

variable {Pubkey Digest World : Type} [DecidableEq Pubkey] [DecidableEq Digest]
  [AddressSpace Pubkey] [Sha256 Digest] [External Pubkey World]
  {run : List (Call Pubkey Digest World)} {attested : List UInt8 → Option (Vector UInt8 32)}
  {a : Pubkey} {j n : ℕ} {key : Vector UInt8 32} {proof : List UInt8}

omit [DecidableEq Pubkey] [AddressSpace Pubkey] in
/-- The zk-token-proof program accepts a proof of validity only if it attests a key. -/
def Attests (Pubkey : Type) [External Pubkey World]
    (attested : List UInt8 → Option (Vector UInt8 32)) : Prop :=
  ∀ (world world' : World) (contextAccount contextAuthority systemProgram : Pubkey) proof,
    invoke world (.zkTokenProof contextAccount contextAuthority systemProgram
      (ProofKind.pubkeyValidity.tag :: proof)) = .ok world' → (attested proof).isSome

/-- The `j`-th call writes `key` into the entry at `a` and passes `proof`. -/
def KeyWrite (run : List (Call Pubkey Digest World)) (j : ℕ) (a : Pubkey) (key : Vector UInt8 32)
    (proof : List UInt8) : Prop :=
  (∃ t accounts cooldown, Registration run j a t accounts key proof cooldown) ∨
    ∃ t accounts, Rotation run j a t accounts key proof

/-- The key of every entry is the one in the proof that was passed when it was written. -/
def KeysAttested (attested : List UInt8 → Option (Vector UInt8 32))
    (run : List (Call Pubkey Digest World)) : Prop :=
  ∀ n a e, (program.stateAt run n).auditors a = some e →
    ∃ j < n, ∃ proof, KeyWrite run j a e.auditorPubkey proof ∧
      (∀ k, j < k → k < n → ∀ key' proof', ¬ KeyWrite run k a key' proof') ∧
      attested proof = some e.auditorPubkey

theorem KeyWrite.auditors_succ (h : KeyWrite run j a key proof) :
    ∃ e, (program.stateAt run (j + 1)).auditors a = some e ∧ e.auditorPubkey = key := by
  rcases h with ⟨t, accounts, cooldown, hreg⟩ | ⟨t, accounts, hrot⟩
  · obtain ⟨config, world', -, hnew⟩ := hreg.admits
    exact ⟨_, hnew, rfl⟩
  · obtain ⟨config, world', e, -, -, hnew⟩ := hrot.admits
    exact ⟨_, hnew, rfl⟩

/-- The proof of an accepted call was accepted by the zk-token-proof program. -/
theorem KeyWrite.isSome_attested (hattests : Attests Pubkey attested)
    (h : KeyWrite run j a key proof) : (attested proof).isSome := by
  rcases h with ⟨t, accounts, cooldown, hreg⟩ | ⟨t, accounts, hrot⟩
  · obtain ⟨config, world', hadm, -⟩ := hreg.admits
    exact hattests _ _ _ _ _ _ hadm.verified
  · obtain ⟨config, world', e, hadm, -, -⟩ := hrot.admits
    exact hattests _ _ _ _ _ _ hadm.verified

/-- One call writes one key, with one proof. -/
theorem KeyWrite.unique {key' : Vector UInt8 32} {proof' : List UInt8}
    (h : KeyWrite run j a key proof) (h' : KeyWrite run j a key' proof') :
    key = key' ∧ proof = proof' := by
  rcases h with ⟨t, accounts, cooldown, hreg⟩ | ⟨t, accounts, hrot⟩ <;>
    rcases h' with ⟨t', accounts', cooldown', hreg'⟩ | ⟨t', accounts', hrot'⟩
  · obtain rfl := hreg.accepted.unique hreg'.accepted
    cases hreg.entrypoint.symm.trans hreg'.entrypoint
    exact ⟨rfl, rfl⟩
  · obtain rfl := hreg.accepted.unique hrot'.accepted
    cases hreg.entrypoint.symm.trans hrot'.entrypoint
  · obtain rfl := hrot.accepted.unique hreg'.accepted
    cases hrot.entrypoint.symm.trans hreg'.entrypoint
  · obtain rfl := hrot.accepted.unique hrot'.accepted
    cases hrot.entrypoint.symm.trans hrot'.entrypoint
    exact ⟨rfl, rfl⟩

/-- Every key was written by some call, and by none after it. -/
theorem exists_keyWrite {e : AuditorEntry Pubkey}
    (he : (program.stateAt run n).auditors a = some e) :
    ∃ j < n, ∃ proof, KeyWrite run j a e.auditorPubkey proof ∧
      ∀ k, j < k → k < n → ∀ key' proof', ¬ KeyWrite run k a key' proof' := by
  induction n generalizing e with
  | zero => cases he
  | succ n ih =>
    by_cases hwrite : ∃ key proof, KeyWrite run n a key proof
    · obtain ⟨key, proof, hw⟩ := hwrite
      obtain ⟨e', he', rfl⟩ := hw.auditors_succ
      obtain rfl := Option.some.inj (he'.symm.trans he)
      exact ⟨n, n.lt_succ_self, proof, hw, fun k hk hk' => by omega⟩
    · rcases auditors_succ_cases he with hold |
        ⟨t, accounts, key, proof, cooldown, hreg, -, -⟩ | ⟨t, accounts, key, proof, hrot⟩
      · obtain ⟨j, hj, proof, hw, hlast⟩ := ih hold
        refine ⟨j, hj.trans n.lt_succ_self, proof, hw, fun k hk hk' key' proof' hw' => ?_⟩
        rcases (Nat.lt_succ_iff.1 hk').eq_or_lt with rfl | hlt
        · exact hwrite ⟨key', proof', hw'⟩
        · exact hlast k hk hlt key' proof' hw'
      · exact absurd ⟨key, proof, .inl ⟨t, accounts, cooldown, hreg⟩⟩ hwrite
      · exact absurd ⟨key, proof, .inr ⟨t, accounts, hrot⟩⟩ hwrite

/-- With attested keys, the key of a call is the key of its proof. -/
theorem KeysAttested.attested_eq (h : KeysAttested attested run)
    (hw : KeyWrite run j a key proof) : attested proof = some key := by
  obtain ⟨e, he, rfl⟩ := hw.auditors_succ
  obtain ⟨i, hi, proof', hw', hlast, hattested⟩ := h (j + 1) a e he
  rcases (Nat.lt_succ_iff.1 hi).eq_or_lt with rfl | hlt
  · rw [(hw.unique hw').2, hattested]
  · exact absurd hw (hlast j hlt j.lt_succ_self _ _)

/-- The keys of a run are attested if and only if every accepted registration and rotation passes
the key that its proof attests. -/
theorem keysAttested_iff (hattests : Attests Pubkey attested)
    (run : List (Call Pubkey Digest World)) :
    KeysAttested attested run ↔ ∀ j a key proof P, KeyWrite run j a key proof →
      attested proof = some P → key = P := by
  constructor
  · intro h j a key proof P hw hP
    rw [h.attested_eq hw, Option.some.injEq] at hP
    exact hP
  · intro h n a e he
    obtain ⟨j, hj, proof, hw, hlast⟩ := exists_keyWrite he
    obtain ⟨P, hP⟩ := Option.isSome_iff_exists.1 (hw.isSome_attested hattests)
    exact ⟨j, hj, proof, hw, hlast, by rw [hP, h j a _ proof P hw hP]⟩

/-! ### A key that nobody attests -/

namespace Sample

theorem attests_attestedKey : Attests Sym attestedKey := by
  intro world world' contextAccount contextAuthority systemProgram proof h
  rw [Option.isSome_iff_ne_none, ne_eq, ← Option.isNone_iff_eq_none]
  intro hnone
  simp [invoke, hnone] at h

/-- The admin registers the key `7` with a proof for the key `8`. -/
def unattested : List (Call Sym (List UInt8) Unit) :=
  [(initializeBy admin 0).toCall (),
    auditorRegisterBy admin mint host (Sample.key 7) (keyProof (Sample.key 8)) 60 0 ()]

end Sample

theorem keysAttested_iff_sample :
    KeysAttested Sample.attestedKey Sample.unattested ↔
      ∀ j a key proof P, KeyWrite Sample.unattested j a key proof →
        Sample.attestedKey proof = some P → key = P :=
  keysAttested_iff Sample.attests_attestedKey Sample.unattested

theorem unattested_key_is_registered :
    Attests Sym Sample.attestedKey ∧ ¬ KeysAttested Sample.attestedKey Sample.unattested := by
  refine ⟨Sample.attests_attestedKey, fun h => ?_⟩
  have hwrite : KeyWrite Sample.unattested 1 (auditorPda Sample.mint) (Sample.key 7)
      (Sample.keyProof (Sample.key 8)) :=
    .inl ⟨_, _, 60, ⟨rfl, by decide +kernel⟩, rfl, rfl⟩
  exact absurd (h.attested_eq hwrite) (by decide +kernel)

end Ghos
