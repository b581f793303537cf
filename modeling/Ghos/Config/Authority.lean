import Ghos.Program.CallViews

/-!
# Who may change the config and the auditor entries

The admin recorded in the config is the only authority of the program, and it moves: the admin of
the day names the next one.  `authorityChain` says, for every run of the whole program, that no
other call changes the config or an auditor entry (`AuthorityChain`).
-/

namespace Ghos

variable {Pubkey Digest World : Type} [DecidableEq Pubkey] [DecidableEq Digest]
  [AddressSpace Pubkey] [Sha256 Digest] [External Pubkey World] {c c' : Chain Pubkey Digest}
  {world : World} {now : Int64} {signers : List Pubkey}
  {run : List (Call Pubkey Digest World)}

/-! ### One step -/

omit [AddressSpace Pubkey] [DecidableEq Pubkey] in
/-- The admin stays, or the update names the next one. -/
theorem ConfigField.admin_of_apply {config config' : GhosConfig Pubkey}
    {field : ConfigField Pubkey} (h : field.apply config = .ok config') :
    config'.admin = config.admin ∨ field = .admin config'.admin := by
  cases field <;> simp [ConfigField.apply] at h <;> grind

omit [AddressSpace Pubkey] [DecidableEq Pubkey] in
/-- No knob changes the version. -/
theorem ConfigField.apply_version {config config' : GhosConfig Pubkey}
    {field : ConfigField Pubkey} (h : field.apply config = .ok config') :
    config'.version = config.version := by
  cases field <;> simp [ConfigField.apply] at h <;> grind

/-- A config that is there stays as it is or is updated by its admin. -/
theorem CallEffect.config_step {entrypoint : Entrypoint Pubkey Digest}
    (hL : WellAddressed c.ledger) (h : CallEffect c world now signers entrypoint c')
    {config : GhosConfig Pubkey} (hc : c.config = some config) :
    c'.config = some config ∨ ∃ accounts field config',
      entrypoint = .core (.configUpdate accounts field) ∧ accounts.admin = config.admin ∧
        config.admin ∈ signers ∧ field.apply config = .ok config' ∧
        c'.config = some { config' with lastUpdated := now } := by
  unfold Chain.config at *
  rcases h.ledger_cases with heq | ⟨instruction, rfl, heff⟩
  · rw [heq]
    exact .inl hc
  cases heff with
  | ghosInitialize hi v =>
    rw [← hi.address, Ledger.config?, Store.view_of_none hi.fresh] at hc
    cases hc
  | configUpdate hu v =>
    obtain ⟨⟨hstored, -⟩, hs, ha, hf⟩ := hu
    have haddress := hL.config_eq hstored
    rw [haddress, hc, Option.some.injEq] at hstored
    subst hstored
    refine .inr ⟨_, _, _, rfl, ha.symm, ha ▸ hs, hf, ?_⟩
    rw [v.config, haddress, Store.set_self]
  | mixInit _ v => exact .inl (v.config ▸ hc)
  | mixCommit _ v => exact .inl (v.config ▸ hc)
  | mixReveal _ v => exact .inl (v.config ▸ hc)
  | mixSettle _ v => exact .inl (v.config ▸ hc)

/-- Where a config appears, `initialize` has just written it. -/
theorem CallEffect.config_created {entrypoint : Entrypoint Pubkey Digest}
    (h : CallEffect c world now signers entrypoint c')
    {config : GhosConfig Pubkey} (hc : c.config = none) (hc' : c'.config = some config) :
    ∃ accounts, entrypoint = .core (.ghosInitialize accounts) ∧ accounts.admin ∈ signers ∧
      config.admin = accounts.admin := by
  unfold Chain.config at *
  rcases h.ledger_cases with heq | ⟨instruction, rfl, heff⟩
  · rw [heq, hc] at hc'
    cases hc'
  rcases heff.config_cases hc' with hc' | hw
  · rw [hc] at hc'
    cases hc'
  · generalize (configPda : Pubkey) = a at hw hc
    cases hw with
    | ghosInitialize hw => exact ⟨_, rfl, hw.signer, rfl⟩
    | configUpdate hw => exact absurd (hc.symm.trans hw.configAt.stored) (by simp)

/-! ### Runs -/

theorem wellAddressed_ledgerAt (run : List (Call Pubkey Digest World)) (n : ℕ) :
    WellAddressed (program.stateAt run n).ledger :=
  wellAddressed_of_reachable (ledger_reachable (Machine.reachable_stateAt run n))

/-- The config before the `n`-th call of a run. -/
def configAt (run : List (Call Pubkey Digest World)) (n : ℕ) : Option (GhosConfig Pubkey) :=
  (program.stateAt run n).config

/-- The `i`-th call is an update that the admin of the config in force has signed. -/
structure UpdatedByAdmin (run : List (Call Pubkey Digest World)) (i : ℕ)
    (config : GhosConfig Pubkey) (field : ConfigField Pubkey) : Prop where
  configAt : configAt run i = some config
  update : ∃ t accounts, program.AcceptedAt run i t ∧
    t.entrypoint = .core (.configUpdate accounts field) ∧ accounts.admin = config.admin ∧
    config.admin ∈ t.signers

/-- `q` was named by the admin `p`. -/
def Names (run : List (Call Pubkey Digest World)) (p q : Pubkey) : Prop :=
  ∃ i config, UpdatedByAdmin run i config (.admin q) ∧ config.admin = p

/-- A config is kept, up to an update by its admin. -/
theorem configAt_succ {n : ℕ} {config : GhosConfig Pubkey} (h : configAt run n = some config) :
    configAt run (n + 1) = some config ∨ ∃ field config' now,
      UpdatedByAdmin run n config field ∧ field.apply config = .ok config' ∧
        configAt run (n + 1) = some { config' with lastUpdated := now } := by
  rcases Machine.stateAt_succ_cases (M := program) run n with heq | ⟨t, ht⟩
  · exact .inl (by rw [configAt, heq]; exact h)
  · rcases (callEffect_of_acceptedAt ht).config_step (wellAddressed_ledgerAt run n) h with
      hkept | ⟨accounts, field, config', he, ha, hs, hf, hc'⟩
    · exact .inl hkept
    · exact .inr ⟨field, config', t.now, ⟨h, t, accounts, ht, he, ha, hs⟩, hf, hc'⟩

/-- Along a run the admins are named one by the other, and the version and the bump stay. -/
theorem configAt_of_le {i j : ℕ} (hij : i ≤ j) {config : GhosConfig Pubkey}
    (h : configAt run i = some config) :
    ∃ config', configAt run j = some config' ∧
      Relation.ReflTransGen (Names run) config.admin config'.admin ∧
      config'.version = config.version ∧ config'.bump = config.bump := by
  induction j, hij using Nat.le_induction with
  | base => exact ⟨config, h, .refl, rfl, rfl⟩
  | succ j _ ih =>
    obtain ⟨config', hj, hnames, hversion, hbump⟩ := ih
    rcases configAt_succ hj with hkept | ⟨field, config'', now, hupdate, hf, hsucc⟩
    · exact ⟨config', hkept, hnames, hversion, hbump⟩
    · refine ⟨_, hsucc, ?_, (ConfigField.apply_version hf).trans hversion,
        (ConfigField.apply_bump hf).trans hbump⟩
      rcases ConfigField.admin_of_apply hf with hadmin | rfl
      · rw [hadmin]
        exact hnames
      · exact hnames.tail ⟨j, config', hupdate, rfl⟩

/-- `initialize` finds no config and leaves one. -/
theorem configAt_of_initialized {i : ℕ} {t : Call Pubkey Digest World}
    {accounts : Initialize Pubkey} (ht : program.AcceptedAt run i t)
    (he : t.entrypoint = .core (.ghosInitialize accounts)) :
    configAt run i = none ∧ ∃ config, configAt run (i + 1) = some config := by
  have heff := callEffect_of_acceptedAt ht
  rw [he] at heff
  unfold configAt Chain.config
  cases heff.of_core with
  | ghosInitialize h v =>
    rw [← h.address, v.config, Store.set_self]
    exact ⟨Store.view_of_none h.fresh, _, rfl⟩

theorem initialize_lt {i j : ℕ} {t u : Call Pubkey Digest World}
    {accounts accounts' : Initialize Pubkey} (ht : program.AcceptedAt run i t)
    (he : t.entrypoint = .core (.ghosInitialize accounts)) (hu : program.AcceptedAt run j u)
    (he' : u.entrypoint = .core (.ghosInitialize accounts')) : ¬ i < j := by
  intro hij
  obtain ⟨-, config, hconfig⟩ := configAt_of_initialized ht he
  obtain ⟨config', hj, -⟩ := configAt_of_le hij hconfig
  rw [(configAt_of_initialized hu he').1] at hj
  cases hj

/-! ### Auditor entries -/

/-- The `i`-th call registers or rotates the auditor entry at `a`, and the admin of the config in
force has signed it; a rotation finds this admin in the entry too. -/
inductive AuditedByAdmin (run : List (Call Pubkey Digest World)) (i : ℕ) (a : Pubkey)
    (config : GhosConfig Pubkey) (t : Call Pubkey Digest World) : Prop
  | register {accounts key proof cooldown}
      (entrypoint : t.entrypoint = .auditorRegister accounts key proof cooldown)
      (address : accounts.auditorEntry = a) (admin : accounts.admin = config.admin)
      (signed : config.admin ∈ t.signers) (fresh : (program.stateAt run i).auditors a = none)
  | rotate {accounts key proof entry}
      (entrypoint : t.entrypoint = .auditorRotate accounts key proof)
      (address : accounts.auditorEntry = a) (admin : accounts.admin = config.admin)
      (signed : config.admin ∈ t.signers)
      (stored : (program.stateAt run i).auditors a = some entry)
      (entryAdmin : entry.admin = config.admin)

theorem AuditorWrite.auditedByAdmin {i : ℕ} {t : Call Pubkey Digest World} {a : Pubkey}
    {entry : AuditorEntry Pubkey}
    (h : AuditorWrite (program.stateAt run i) t.world t.now t.signers a t.entrypoint entry) :
    ∃ config, configAt run i = some config ∧ AuditedByAdmin run i a config t := by
  have hL := wellAddressed_ledgerAt run i
  generalize he : t.entrypoint = entrypoint at h
  cases h with
  | auditorRegister h =>
    exact ⟨_, h.configAt.eq_config hL, .register he rfl h.admin.symm (h.admin ▸ h.signer)
      (Chain.isFree_iff.1 h.fresh).2.1⟩
  | auditorRotate h =>
    exact ⟨_, h.configAt.eq_config hL, .rotate he rfl h.admin.symm (h.admin ▸ h.signer) h.entryAt
      (h.entryAdmin.trans h.admin.symm)⟩

/-- An auditor entry is kept, or it is written by a call that the admin has signed. -/
theorem auditors_succ (i : ℕ) (a : Pubkey) :
    (program.stateAt run (i + 1)).auditors a = (program.stateAt run i).auditors a ∨
      ∃ t config, program.AcceptedAt run i t ∧ configAt run i = some config ∧
        AuditedByAdmin run i a config t := by
  rcases Machine.stateAt_succ_cases (M := program) run i with heq | ⟨t, ht⟩
  · exact .inl (by rw [heq])
  have heff := callEffect_of_acceptedAt ht
  cases hnew : (program.stateAt run (i + 1)).auditors a with
  | some entry =>
    rcases heff.auditor_cases hnew with hold | hw
    · exact .inl hold.symm
    · obtain ⟨config, hconfig, haudited⟩ := hw.auditedByAdmin
      exact .inr ⟨t, config, ht, hconfig, haudited⟩
  | none =>
    cases hold : (program.stateAt run i).auditors a with
    | none => exact .inl rfl
    | some entry =>
      -- entries are never removed
      obtain ⟨entry', hentry'⟩ := heff.exists_auditor ⟨entry, hold⟩
      rw [hnew] at hentry'
      cases hentry'

/-! ### The chain of authority -/

/-- Every change of the config and of the auditor entries, and who signed it. -/
structure AuthorityChain (run : List (Call Pubkey Digest World)) : Prop where
  singleton : ∀ n a config, (program.stateAt run n).ledger.config? a = some config → a = configPda
  initializedOnce : ∀ i j t u accounts accounts', program.AcceptedAt run i t →
    t.entrypoint = .core (.ghosInitialize accounts) → program.AcceptedAt run j u →
    u.entrypoint = .core (.ghosInitialize accounts') → i = j
  created : ∀ i config, configAt run i = none → configAt run (i + 1) = some config →
    ∃ t accounts, program.AcceptedAt run i t ∧
      t.entrypoint = .core (.ghosInitialize accounts) ∧ config.admin = accounts.admin ∧
      config.admin ∈ t.signers
  updated : ∀ i config, configAt run i = some config → configAt run (i + 1) ≠ some config →
    ∃ field, UpdatedByAdmin run i config field
  adminUpdated : ∀ i config config', configAt run i = some config →
    configAt run (i + 1) = some config' → config'.admin ≠ config.admin →
    UpdatedByAdmin run i config (.admin config'.admin)
  kept : ∀ i j config, i ≤ j → configAt run i = some config → ∃ config',
    configAt run j = some config' ∧ Relation.ReflTransGen (Names run) config.admin config'.admin ∧
      config'.version = config.version ∧ config'.bump = config.bump
  audited : ∀ i a, (program.stateAt run (i + 1)).auditors a ≠ (program.stateAt run i).auditors a →
    ∃ t config, program.AcceptedAt run i t ∧ configAt run i = some config ∧
      AuditedByAdmin run i a config t

theorem authorityChain (run : List (Call Pubkey Digest World)) : AuthorityChain run where
  singleton n a config h := (wellAddressed_ledgerAt run n).config_eq h
  initializedOnce i j t u accounts accounts' ht he hu he' :=
    le_antisymm (not_lt.1 (initialize_lt hu he' ht he)) (not_lt.1 (initialize_lt ht he hu he'))
  created i config hnone hsome := by
    rcases Machine.stateAt_succ_cases (M := program) run i with heq | ⟨t, ht⟩
    · rw [configAt, heq, ← configAt, hnone] at hsome
      cases hsome
    · obtain ⟨accounts, he, hs, ha⟩ :=
        (callEffect_of_acceptedAt ht).config_created hnone hsome
      exact ⟨t, accounts, ht, he, ha, ha ▸ hs⟩
  updated i config h hne := by
    rcases configAt_succ h with hkept | ⟨field, config', now, hupdate, -, -⟩
    · exact absurd hkept hne
    · exact ⟨field, hupdate⟩
  adminUpdated i config config' h h' hne := by
    rcases configAt_succ h with hkept | ⟨field, config'', now, hupdate, hf, hsucc⟩
    · rw [hkept, Option.some.injEq] at h'
      exact absurd (congrArg GhosConfig.admin h'.symm) hne
    · rw [hsucc, Option.some.injEq] at h'
      subst h'
      rcases ConfigField.admin_of_apply hf with hadmin | rfl
      · exact absurd hadmin hne
      · exact hupdate
  kept i j config hij h := configAt_of_le hij h
  audited i a hne := (auditors_succ i a).resolve_left hne

end Ghos
