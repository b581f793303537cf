import Ghos.Config.Authority

/-!
# The life of an auditor entry

An auditor entry is created by one `auditor_register` and then only rotated.  A rotation changes the
key and the time of the last rotation; everything else is as the registration has set it
(`Registration.entry`).
-/

namespace Ghos

variable {Pubkey Digest World : Type} [DecidableEq Pubkey] [DecidableEq Digest]
  [AddressSpace Pubkey] [Sha256 Digest] [External Pubkey World] {c c' : Chain Pubkey Digest}
  {world : World} {now : Int64} {signers : List Pubkey}
  {run : List (Call Pubkey Digest World)} {a : Pubkey} {i n : ℕ}

/-- An entry stays as it is, or it is rotated. -/
theorem CallEffect.auditor_step {entrypoint : Entrypoint Pubkey Digest}
    (h : CallEffect c world now signers entrypoint c') {e : AuditorEntry Pubkey}
    (he : c.auditors a = some e) :
    c'.auditors a = some e ∨ ∃ accounts key proof config world',
      entrypoint = .auditorRotate accounts key proof ∧ accounts.auditorEntry = a ∧
        accounts.Admits c world world' now signers proof config e ∧
        c'.auditors a = some (e.rotated now key) := by
  obtain ⟨e', he'⟩ := h.exists_auditor ⟨e, he⟩
  rcases h.auditor_cases he' with hold | hw
  · rw [he, Option.some.injEq] at hold
    exact .inl (hold ▸ he')
  · cases hw with
    | auditorRegister hw => exact absurd ((Chain.isFree_iff.1 hw.fresh).2.1.symm.trans he) (by simp)
    | auditorRotate hw =>
      obtain rfl := Option.some.inj (hw.entryAt.symm.trans he)
      exact .inr ⟨_, _, _, _, _, rfl, rfl, hw, he'⟩

/-! ### Registrations and rotations of a run -/

/-- The `i`-th call registers the entry at `a`. -/
structure Registration (run : List (Call Pubkey Digest World)) (i : ℕ) (a : Pubkey)
    (t : Call Pubkey Digest World) (accounts : AuditorRegister Pubkey) (key : Vector UInt8 32)
    (proof : List UInt8) (cooldown : Int64) : Prop where
  accepted : program.AcceptedAt run i t
  entrypoint : t.entrypoint = .auditorRegister accounts key proof cooldown
  address : accounts.auditorEntry = a

/-- The `i`-th call rotates the entry at `a`. -/
structure Rotation (run : List (Call Pubkey Digest World)) (i : ℕ) (a : Pubkey)
    (t : Call Pubkey Digest World) (accounts : AuditorRotate Pubkey) (key : Vector UInt8 32)
    (proof : List UInt8) : Prop where
  accepted : program.AcceptedAt run i t
  entrypoint : t.entrypoint = .auditorRotate accounts key proof
  address : accounts.auditorEntry = a

/-- What a registration fixes: `e` is an entry that it has created, rotated or not. -/
structure AuditorEntry.CreatedBy (e : AuditorEntry Pubkey) (accounts : AuditorRegister Pubkey)
    (registeredAt cooldown : Int64) : Prop where
  mint : e.mint = accounts.mint
  admin : e.admin = accounts.admin
  registeredAt : e.registeredAt = registeredAt
  rotationCooldown : e.rotationCooldown = cooldown

/-- A step of the run keeps an entry or rotates it. -/
theorem auditors_step {e : AuditorEntry Pubkey}
    (he : (program.stateAt run n).auditors a = some e) :
    (program.stateAt run (n + 1)).auditors a = some e ∨ ∃ t accounts key proof config world',
      Rotation run n a t accounts key proof ∧
        accounts.Admits (program.stateAt run n) t.world world' t.now t.signers proof config e ∧
        (program.stateAt run (n + 1)).auditors a = some (e.rotated t.now key) := by
  rcases Machine.stateAt_succ_cases (M := program) run n with heq | ⟨t, ht⟩
  · exact .inl (by rw [heq, he])
  · rcases (callEffect_of_acceptedAt ht).auditor_step he with
      hkept | ⟨accounts, key, proof, config, world', hp, ha, hadm, hnew⟩
    · exact .inl hkept
    · exact .inr ⟨t, accounts, key, proof, config, world', ⟨ht, hp, ha⟩, hadm, hnew⟩

theorem Registration.admits {t : Call Pubkey Digest World} {accounts : AuditorRegister Pubkey}
    {key : Vector UInt8 32} {proof : List UInt8} {cooldown : Int64}
    (h : Registration run i a t accounts key proof cooldown) :
    ∃ config world', accounts.Admits (program.stateAt run i) t.world world' t.signers proof config ∧
      (program.stateAt run (i + 1)).auditors a = some (accounts.entry t.now key cooldown) := by
  obtain ⟨ht, he, rfl⟩ := h
  have heff := callEffect_of_acceptedAt ht
  rw [he] at heff
  obtain ⟨config, world', hadm, hnew⟩ := heff.of_auditorRegister
  exact ⟨config, world', hadm, by rw [hnew, Store.set_self]⟩

theorem Rotation.admits {t : Call Pubkey Digest World} {accounts : AuditorRotate Pubkey}
    {key : Vector UInt8 32} {proof : List UInt8} (h : Rotation run i a t accounts key proof) :
    ∃ config world' e,
      accounts.Admits (program.stateAt run i) t.world world' t.now t.signers proof config e ∧
      (program.stateAt run i).auditors a = some e ∧
      (program.stateAt run (i + 1)).auditors a = some (e.rotated t.now key) := by
  obtain ⟨ht, he, rfl⟩ := h
  have heff := callEffect_of_acceptedAt ht
  rw [he] at heff
  obtain ⟨config, world', e, hadm, hnew⟩ := heff.of_auditorRotate
  exact ⟨config, world', e, hadm, hadm.entryAt, by rw [hnew, Store.set_self]⟩

/-- After its registration the entry is there, as it was created up to rotations. -/
theorem Registration.entry {t : Call Pubkey Digest World} {accounts : AuditorRegister Pubkey}
    {key : Vector UInt8 32} {proof : List UInt8} {cooldown : Int64}
    (h : Registration run i a t accounts key proof cooldown) (hn : i < n) :
    ∃ e, (program.stateAt run n).auditors a = some e ∧ e.CreatedBy accounts t.now cooldown := by
  induction n, hn using Nat.le_induction with
  | base =>
    obtain ⟨config, world', -, hnew⟩ := h.admits
    exact ⟨_, hnew, rfl, rfl, rfl, rfl⟩
  | succ n _ ih =>
    obtain ⟨e, he, hcreated⟩ := ih
    rcases auditors_step he with hkept | ⟨u, _, key', _, _, _, -, -, hnew⟩
    · exact ⟨e, hkept, hcreated⟩
    · exact ⟨_, hnew, hcreated.mint, hcreated.admin, hcreated.registeredAt,
        hcreated.rotationCooldown⟩

/-- Every entry was registered. -/
theorem exists_registration {e : AuditorEntry Pubkey}
    (he : (program.stateAt run n).auditors a = some e) :
    ∃ i t accounts key proof cooldown, i < n ∧
      Registration run i a t accounts key proof cooldown ∧
      e.CreatedBy accounts t.now cooldown := by
  obtain ⟨i, t, hi, ht, hnone, e₀, he₀⟩ := Machine.exists_turning_point (M := program)
    (P := fun c : Chain Pubkey Digest => ∃ e, c.auditors a = some e)
    (by rintro ⟨e, h⟩; cases h) ⟨e, he⟩
  have heff := callEffect_of_acceptedAt ht
  rcases heff.auditor_cases he₀ with hold | hw
  · exact absurd ⟨_, hold⟩ hnone
  · generalize hp : t.entrypoint = entrypoint at hw
    cases hw with
    | auditorRotate hw => exact absurd ⟨_, hw.entryAt⟩ hnone
    | @auditorRegister accounts key proof cooldown config world' hw =>
      have hreg : Registration run i accounts.auditorEntry t accounts key proof cooldown :=
        ⟨ht, hp, rfl⟩
      obtain ⟨e', he', hcreated⟩ := hreg.entry hi
      rw [he, Option.some.injEq] at he'
      exact ⟨i, t, accounts, key, proof, cooldown, hi, hreg, he' ▸ hcreated⟩

/-- An entry was there one call earlier, or it has just been registered or rotated. -/
theorem auditors_succ_cases {e : AuditorEntry Pubkey}
    (he : (program.stateAt run (n + 1)).auditors a = some e) :
    (program.stateAt run n).auditors a = some e ∨
      (∃ t accounts key proof cooldown, Registration run n a t accounts key proof cooldown ∧
        (program.stateAt run n).auditors a = none ∧ e = accounts.entry t.now key cooldown) ∨
      ∃ t accounts key proof, Rotation run n a t accounts key proof := by
  rcases Machine.stateAt_succ_cases (M := program) run n with heq | ⟨t, ht⟩
  · rw [heq] at he
    exact .inl he
  rcases (callEffect_of_acceptedAt ht).auditor_cases he with hold | hw
  · exact .inl hold
  · generalize hp : t.entrypoint = entrypoint at hw
    cases hw with
    | auditorRegister hw =>
      exact .inr (.inl ⟨t, _, _, _, _, ⟨ht, hp, rfl⟩, (Chain.isFree_iff.1 hw.fresh).2.1, rfl⟩)
    | auditorRotate hw => exact .inr (.inr ⟨t, _, _, _, ht, hp, rfl⟩)

/-- Entries stay. -/
theorem exists_auditor_of_le {m : ℕ} (hmn : m ≤ n)
    (he : ∃ e, (program.stateAt run m).auditors a = some e) :
    ∃ e, (program.stateAt run n).auditors a = some e := by
  induction n, hmn using Nat.le_induction with
  | base => exact he
  | succ n _ ih =>
    obtain ⟨e, he⟩ := ih
    rcases auditors_step he with hkept | ⟨t, _, key, _, _, _, -, -, hnew⟩
    · exact ⟨e, hkept⟩
    · exact ⟨_, hnew⟩

end Ghos
