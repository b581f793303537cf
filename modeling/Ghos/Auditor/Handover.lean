import Ghos.Auditor.History
import Ghos.Program.CallRequests

/-!
# Rotation after a hand-over of the admin

`auditor_register` copies the admin into the entry, and `auditor_rotate` wants a signer who is this
admin and also the admin of the config.  `config_update` moves the latter only.  So rotation stays
open exactly for the entries that the admin in office has registered (`neverFrozen_iff`), in
particular as long as no update hands the admin over (`KeepsAdmin.neverFrozen`).
-/

namespace Ghos

variable {Pubkey Digest World : Type} [DecidableEq Pubkey] [DecidableEq Digest]
  [AddressSpace Pubkey] [Sha256 Digest] [External Pubkey World] {c : Chain Pubkey Digest}
  {now : Int64} {world : World} {run : List (Call Pubkey Digest World)}

/-- The entry of `mint` may be rotated: the program is not paused, the cooldown has elapsed, and the
zk program accepts the proof of the admin in office. -/
structure RotationDue (c : Chain Pubkey Digest) (now : Int64) (world : World)
    (mint proofContext : Pubkey) (proof : List UInt8) (config : GhosConfig Pubkey)
    (entry : AuditorEntry Pubkey) : Prop where
  configAt : c.config = some config
  unpaused : config.paused = false
  entryAt : c.auditors (auditorPda mint) = some entry
  elapsed : entry.rotationCooldown.toInt ≤ now.toInt - entry.lastRotatedAt.toInt
  verified : KeyVerified world config.admin proofContext proof

/-- In every state of the run the admin in office may rotate what is due, to any key. -/
def NeverFrozen (run : List (Call Pubkey Digest World)) : Prop :=
  ∀ n now world mint proofContext proof config entry,
    RotationDue (program.stateAt run n) now world mint proofContext proof config entry →
    ∀ key, program.Accepts (program.stateAt run n)
      (auditorRotateBy config.admin mint proofContext key proof now world)

/-- Whoever registered an entry whose rotation is due is the admin in office. -/
def RegistrantInOffice (run : List (Call Pubkey Digest World)) : Prop :=
  ∀ n now world mint proofContext proof config entry,
    RotationDue (program.stateAt run n) now world mint proofContext proof config entry →
    ∀ i t accounts key proof' cooldown, i < n →
      Registration run i (auditorPda mint) t accounts key proof' cooldown →
      accounts.admin = config.admin

/-- A rotation that is due succeeds if and only if the entry names the admin in office. -/
theorem RotationDue.accepts_iff {n : ℕ} {mint proofContext : Pubkey} {proof : List UInt8}
    {config : GhosConfig Pubkey} {entry : AuditorEntry Pubkey}
    (h : RotationDue (program.stateAt run n) now world mint proofContext proof config entry)
    (key : Vector UInt8 32) :
    program.Accepts (program.stateAt run n)
      (auditorRotateBy config.admin mint proofContext key proof now world) ↔
        entry.admin = config.admin := by
  rw [accepts_auditorRotateBy_iff (wellAddressed_ledgerAt run n)
    (registered_of_reachable (Machine.reachable_stateAt run n))]
  constructor
  · rintro ⟨config', entry', -, -, -, he, hadmin, -⟩
    obtain rfl := Option.some.inj (he.symm.trans h.entryAt)
    exact hadmin
  · intro hadmin
    exact ⟨config, entry, h.configAt, h.unpaused, rfl, h.entryAt, hadmin,
      Int64.le_saturatingSub.2 (.inl h.elapsed), h.verified⟩

theorem RegistrantInOffice.neverFrozen (h : RegistrantInOffice run) : NeverFrozen run := by
  intro n now world mint proofContext proof config entry hdue key
  obtain ⟨i, t, accounts, key', proof', cooldown, hi, hreg, hcreated⟩ :=
    exists_registration hdue.entryAt
  rw [hdue.accepts_iff, hcreated.admin]
  exact h _ _ _ _ _ _ _ _ hdue i t accounts key' proof' cooldown hi hreg

/-- Rotation never freezes in a run if and only if each rotation that is due concerns an entry that
the admin in office has registered. -/
theorem neverFrozen_iff (run : List (Call Pubkey Digest World)) :
    NeverFrozen run ↔ RegistrantInOffice run := by
  refine ⟨fun hfree => ?_, RegistrantInOffice.neverFrozen⟩
  intro n now world mint proofContext proof config entry hdue i t accounts key proof' cooldown hi
    hreg
  obtain ⟨e, he, hcreated⟩ := hreg.entry hi
  obtain rfl := Option.some.inj (he.symm.trans hdue.entryAt)
  rw [← hcreated.admin, ← hdue.accepts_iff (.replicate 32 0)]
  exact hfree _ _ _ _ _ _ _ _ hdue _

namespace Sample

/-- The admin registers an auditor and then hands over to the host. -/
def handover : List (Call Sym (List UInt8) Unit) :=
  [(initializeBy admin 0).toCall (),
    auditorRegisterBy admin mint host (key 7) (keyProof (key 7)) 60 0 (),
    (configUpdateBy admin (.admin host) 1).toCall ()]

end Sample

/-- The new admin cannot rotate the key of the old one. -/
theorem handover_freezes_rotation : ¬ NeverFrozen Sample.handover := by
  intro h
  obtain ⟨config, hconfig, hu, hadmin, entry, hentry, helapsed⟩ :
      ∃ config ∈ (program.stateAt Sample.handover 3).config, config.paused = false ∧
        config.admin = Sample.host ∧
        ∃ entry ∈ (program.stateAt Sample.handover 3).auditors (auditorPda Sample.mint),
          entry.rotationCooldown.toInt ≤ (1000 : Int64).toInt - entry.lastRotatedAt.toInt := by
    decide +kernel
  have hv : KeyVerified () config.admin Sample.host (Sample.keyProof (Sample.key 8)) := ⟨(), rfl⟩
  have hacc := h 3 1000 () Sample.mint Sample.host _ config entry
    ⟨hconfig, hu, hentry, helapsed, hv⟩ (Sample.key 8)
  rw [hadmin] at hacc
  exact absurd hacc (by decide +kernel)

/-! ### Runs without a hand-over -/

/-- No update names another admin while an auditor entry exists. -/
def KeepsAdmin (run : List (Call Pubkey Digest World)) : Prop :=
  ∀ i config q a e, UpdatedByAdmin run i config (.admin q) →
    (program.stateAt run i).auditors a = some e → q = config.admin

/-- The registrant of an entry stays in office. -/
theorem KeepsAdmin.configAt (h : KeepsAdmin run) {i n : ℕ} {a : Pubkey}
    {t : Call Pubkey Digest World} {accounts : AuditorRegister Pubkey} {key : Vector UInt8 32}
    {proof : List UInt8} {cooldown : Int64}
    (hreg : Registration run i a t accounts key proof cooldown) (hn : i ≤ n) :
    ∃ config, Ghos.configAt run n = some config ∧ config.admin = accounts.admin := by
  induction n, hn using Nat.le_induction with
  | base =>
    obtain ⟨config, world', hadm, -⟩ := hreg.admits
    exact ⟨config, hadm.configAt.eq_config (wellAddressed_ledgerAt run i), hadm.admin⟩
  | succ n hin ih =>
    obtain ⟨config, hconfig, hadmin⟩ := ih
    rcases configAt_succ hconfig with hkept | ⟨field, config', now, hupdate, hf, hsucc⟩
    · exact ⟨config, hkept, hadmin⟩
    · refine ⟨_, hsucc, ?_⟩
      rcases ConfigField.admin_of_apply hf with hsame | rfl
      · exact hsame.trans hadmin
      · rcases hin.eq_or_lt with rfl | hlt
        -- the call that registers is no update
        · obtain ⟨-, u, uaccounts, hu, hue, -⟩ := hupdate
          obtain rfl := hu.unique hreg.accepted
          rw [hreg.entrypoint] at hue
          cases hue
        · obtain ⟨e, he, -⟩ := hreg.entry hlt
          exact (h n config _ a e hupdate he).trans hadmin

theorem KeepsAdmin.neverFrozen (h : KeepsAdmin run) : NeverFrozen run := by
  refine RegistrantInOffice.neverFrozen ?_
  intro n now world mint proofContext proof config entry hdue i t accounts key proof' cooldown hi
    hreg
  obtain ⟨config', hconfig', hadmin⟩ := h.configAt hreg hi.le
  obtain rfl := Option.some.inj (hconfig'.symm.trans hdue.configAt)
  exact hadmin.symm

end Ghos
