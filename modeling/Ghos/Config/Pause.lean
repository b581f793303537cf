import Ghos.Program.CallRequests

/-!
# The pause

Every handler but those of `initialize` and `config_update` begins with `assert_not_paused`, and
`initialize` finds the config in its way.  So on a paused chain no call is accepted but an update of
the config, and every update but `Paused(false)` keeps it so (`paused_freeze`).
-/

namespace Ghos

variable {Pubkey Digest World : Type} [DecidableEq Pubkey] [DecidableEq Digest]
  [AddressSpace Pubkey] [Sha256 Digest] [External Pubkey World] {c c' c'' : Chain Pubkey Digest}
  {world : World} {now : Int64} {signers : List Pubkey} {config : GhosConfig Pubkey}
  {run : List (Call Pubkey Digest World)}

section Definitions

omit [DecidableEq Pubkey] [DecidableEq Digest] [AddressSpace Pubkey] [Sha256 Digest]
  [External Pubkey World]

/-- The call is an update of the config. -/
def Entrypoint.IsConfigUpdate : Entrypoint Pubkey Digest → Prop
  | .core (.configUpdate _ _) => True
  | _ => False

/-- The call takes the pause away. -/
def Entrypoint.Unpauses : Entrypoint Pubkey Digest → Prop
  | .core (.configUpdate _ (.paused false)) => True
  | _ => False

theorem Entrypoint.Unpauses.isConfigUpdate {entrypoint : Entrypoint Pubkey Digest}
    (h : entrypoint.Unpauses) : entrypoint.IsConfigUpdate := by
  unfold Unpauses at h
  split at h
  · trivial
  · exact h.elim

/-- `c'` is paused, and is `c` but for the config. -/
structure Frozen [AddressSpace Pubkey] (c c' : Chain Pubkey Digest) : Prop where
  ledger : ∀ a ≠ configPda, c'.ledger a = c.ledger a
  auditors : c'.auditors = c.auditors
  burners : c'.burners = c.burners
  paused : ∃ config, c'.config = some config ∧ config.paused = true

theorem Frozen.trans [AddressSpace Pubkey] (h : Frozen c c') (h' : Frozen c' c'') :
    Frozen c c'' where
  ledger a ha := (h'.ledger a ha).trans (h.ledger a ha)
  auditors := h'.auditors.trans h.auditors
  burners := h'.burners.trans h.burners
  paused := h'.paused

/-- Only the knob itself sets or clears the pause. -/
theorem ConfigField.paused_of_apply {config' : GhosConfig Pubkey} {field : ConfigField Pubkey}
    (h : field.apply config = .ok config') :
    config'.paused = config.paused ∨ field = .paused config'.paused := by
  cases field <;> simp [ConfigField.apply] at h <;> grind

end Definitions

/-! ### One call -/

/-- On a paused chain the accepted calls are updates of the config. -/
theorem CallEffect.of_paused {entrypoint : Entrypoint Pubkey Digest} (hL : WellAddressed c.ledger)
    (h : CallEffect c world now signers entrypoint c') (hc : c.config = some config)
    (hp : config.paused = true) : ∃ accounts field config',
      entrypoint = .core (.configUpdate accounts field) ∧ field.apply config = .ok config' ∧
        c' = { c with
          ledger := c.ledger.set configPda (.ghosConfig { config' with lastUpdated := now }) } := by
  -- a handler that has loaded the config stops at its first check
  have stopped : ∀ {a : Pubkey} {config' : GhosConfig Pubkey},
      IsConfigAt c.ledger a config' → config'.paused ≠ false := by
    intro a config' hat
    rw [Option.some.inj ((hat.eq_config hL).symm.trans hc), hp]
    exact Bool.noConfusion
  cases h with
  | @core instruction L' event h =>
    cases instruction with
    | ghosInitialize accounts =>
      obtain ⟨hadm, -, -⟩ := ghosInitialize_eq_ok.1 h
      rw [Chain.config, ← hadm.address, Ledger.config?, Store.view_of_none hadm.fresh] at hc
      cases hc
    | configUpdate accounts field =>
      obtain ⟨config₀, config', hadm, rfl, -⟩ := configUpdate_eq_ok.1 h
      obtain rfl := Option.some.inj ((hadm.configAt.eq_config hL).symm.trans hc)
      exact ⟨accounts, field, config', rfl, hadm.field, by rw [hL.config_eq hadm.configAt.stored]⟩
    | mixInit accounts roundId denomination capacity window =>
      obtain ⟨_, hadm, -⟩ := mixInit_eq_ok.1 h
      exact absurd hadm.unpaused (stopped hadm.configAt)
    | mixCommit accounts commitmentBytes =>
      obtain ⟨_, _, hadm, -⟩ := mixCommit_eq_ok.1 h
      exact absurd hadm.unpaused (stopped hadm.configAt)
    | mixReveal accounts preimage revealSignal =>
      obtain ⟨_, _, _, hadm, -⟩ := mixReveal_eq_ok.1 h
      exact absurd hadm.unpaused (stopped hadm.configAt)
    | mixSettle accounts =>
      obtain ⟨_, _, hadm, -⟩ := mixSettle_eq_ok.1 h
      exact absurd hadm.unpaused (stopped hadm.configAt)
  | shield h => exact absurd h.unpaused (stopped h.configAt)
  | applyPending h => exact absurd h.unpaused (stopped h.configAt)
  | confidentialTransfer h => exact absurd h.unpaused (stopped h.configAt)
  | withdraw h => exact absurd h.unpaused (stopped h.configAt)
  | createBurner h => exact absurd h.unpaused (stopped h.configAt)
  | destroyBurner h => exact absurd h.unpaused (stopped h.configAt)
  | auditorRegister h => exact absurd h.unpaused (stopped h.configAt)
  | auditorRotate h => exact absurd h.unpaused (stopped h.configAt)

/-- An accepted call that does not take the pause away keeps the chain frozen. -/
theorem CallEffect.frozen {entrypoint : Entrypoint Pubkey Digest} (hL : WellAddressed c.ledger)
    (h : CallEffect c world now signers entrypoint c')
    (hp : ∃ config, c.config = some config ∧ config.paused = true)
    (hkept : ¬ entrypoint.Unpauses) : Frozen c c' := by
  obtain ⟨config, hc, hp⟩ := hp
  obtain ⟨accounts, field, config', rfl, hf, rfl⟩ := h.of_paused hL hc hp
  refine ⟨fun a ha => Store.set_of_ne _ _ ha, rfl, rfl, { config' with lastUpdated := now }, ?_, ?_⟩
  · rw [Chain.config, Ledger.config?, Store.view_set_self]
    rfl
  · rcases ConfigField.paused_of_apply hf with hsame | rfl
    · exact hsame.trans hp
    · cases hv : config'.paused with
      | true => rfl
      | false =>
        rw [hv] at hkept
        exact absurd trivial hkept

/-! ### Runs -/

/-- A frozen chain stays frozen until the pause is taken away. -/
theorem frozen_exec (h : program.Reachable c) (hc : Frozen c c)
    (hrun : ∀ i t, program.AcceptedFrom c run i t → ¬ t.entrypoint.Unpauses) :
    Frozen c (program.exec c run) := by
  refine Machine.exec_invariant_of_acceptedFrom (P := Frozen c) hc fun i t ht hfrozen => ?_
  have hL := wellAddressed_of_reachable (ledger_reachable (h.exec (run.take i)))
  exact hfrozen.trans ((callEffect_of_accepts ht.2).frozen hL hfrozen.paused (hrun i t ht))

/-- What a call that follows a pause may be. -/
theorem isConfigUpdate_of_frozen (h : program.Reachable c) (hc : Frozen c c)
    (hrun : ∀ i t, program.AcceptedFrom c run i t → ¬ t.entrypoint.Unpauses) {n : ℕ}
    {t : Call Pubkey Digest World} (ht : program.Accepts (program.exec c (run.take n)) t) :
    ∃ accounts field, t.entrypoint = .core (.configUpdate accounts field) := by
  have hfrozen : Frozen c (program.exec c (run.take n)) :=
    frozen_exec h hc fun i t ht => hrun i t ht.of_take
  obtain ⟨config, hconfig, hp⟩ := hfrozen.paused
  have hL := wellAddressed_of_reachable (ledger_reachable (h.exec (run.take n)))
  obtain ⟨accounts, field, -, he, -⟩ := (callEffect_of_accepts ht).of_paused hL hconfig hp
  exact ⟨accounts, field, he⟩

variable (World) in
/-- What a pause promises: as long as the config is not updated every call fails and nothing
changes, and updates other than `Paused(false)` change the config alone. -/
structure Freeze (c : Chain Pubkey Digest) : Prop where
  rejects : ∀ run : List (Call Pubkey Digest World),
    (∀ i t, program.AcceptedFrom c run i t → ¬ t.entrypoint.IsConfigUpdate) →
    program.exec c run = c ∧ program.log c run = [] ∧
      ∀ (i : ℕ) (t : Call Pubkey Digest World), run[i]? = some t →
        ¬ program.Accepts (program.exec c (run.take i)) t ∧
        t.worldAfter (program.exec c (run.take i)) = t.world
  keeps : ∀ run : List (Call Pubkey Digest World),
    (∀ i t, program.AcceptedFrom c run i t → ¬ t.entrypoint.Unpauses) →
    Frozen c (program.exec c run) ∧
      ∀ (i : ℕ) (t : Call Pubkey Digest World), run[i]? = some t →
        t.worldAfter (program.exec c (run.take i)) = t.world

/-- A pause is a full freeze. -/
theorem paused_freeze (h : program.Reachable c) (hc : c.config = some config)
    (hp : config.paused = true) : Freeze World c := by
  have hself : Frozen c c := ⟨fun _ _ => rfl, rfl, rfl, config, hc, hp⟩
  constructor
  · intro run hrun
    have hkept : ∀ i t, program.AcceptedFrom c run i t → ¬ t.entrypoint.Unpauses :=
      fun i t ht hun => hrun i t ht hun.isConfigUpdate
    have hrejected : ∀ i t, ¬ program.AcceptedFrom c run i t := fun i t ht => by
      obtain ⟨accounts, field, he⟩ := isConfigUpdate_of_frozen h hself hkept ht.2
      refine hrun i t ht ?_
      rw [he]
      trivial
    refine ⟨Machine.exec_of_not_acceptedFrom hrejected,
      Machine.log_of_not_acceptedFrom hrejected, fun i t hi => ?_⟩
    have hnot : ¬ program.Accepts (program.exec c (run.take i)) t := fun ht =>
      hrejected i t ⟨hi, ht⟩
    exact ⟨hnot, t.worldAfter_of_not_accepts hnot⟩
  · intro run hrun
    refine ⟨frozen_exec h hself hrun, fun i t hi => ?_⟩
    by_cases ht : program.Accepts (program.exec c (run.take i)) t
    · obtain ⟨accounts, field, he⟩ := isConfigUpdate_of_frozen h hself hrun ht
      exact t.worldAfter_of_core he
    · exact t.worldAfter_of_not_accepts ht

namespace Sample

/-- The admin pauses the program. -/
def paused : List (Call Sym (List UInt8) Unit) :=
  [(initializeBy admin 0).toCall (), (configUpdateBy admin (.paused true) 1).toCall ()]

end Sample

theorem paused_freeze_sample :
    Freeze Unit (program.exec program.init Sample.paused) := by
  obtain ⟨config, hc, hp⟩ : ∃ config ∈ (program.exec program.init Sample.paused).config,
      config.paused = true := by
    decide +kernel
  exact paused_freeze ⟨Sample.paused, rfl⟩ hc hp

end Ghos
