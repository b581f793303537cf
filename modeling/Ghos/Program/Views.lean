import Ghos.Program.Effects

/-!
# The ledger after an instruction, view by view

An accepted instruction writes addresses that are free or already hold an account of the kind it
writes, so each of the three views changes at most at the account named for it.

* `Effect`: an accepted instruction, with the conditions it met and the views after it;
* `ConfigWrite`, `RoundWrite`, `CommitmentWrite`: how the account at an address came to be what it
  is after the instruction, if it was something else before.
-/

namespace Ghos

variable {Pubkey Digest : Type} [DecidableEq Pubkey] [AddressSpace Pubkey]
  {L L' : Ledger Pubkey Digest} {now : Int64} {signers : List Pubkey}

/-- The three views of a ledger. -/
structure Views (L' : Ledger Pubkey Digest) (configs : Store Pubkey (GhosConfig Pubkey))
    (rounds : Store Pubkey (MixRound Pubkey))
    (commitments : Store Pubkey (MixCommitment Pubkey Digest)) : Prop where
  config : L'.config? = configs
  round : L'.round? = rounds
  commitment : L'.commitment? = commitments

section Writes

omit [AddressSpace Pubkey]

theorem views_set_config {a : Pubkey} {c : GhosConfig Pubkey} (hr : L.round? a = none)
    (hm : L.commitment? a = none) :
    Views (L.set a (.ghosConfig c)) (Store.set L.config? a c) L.round? L.commitment? :=
  ⟨Store.view_set_of_some L rfl, Store.view_set_of_none L rfl hr, Store.view_set_of_none L rfl hm⟩

theorem views_set_round {a : Pubkey} {r : MixRound Pubkey} (hc : L.config? a = none)
    (hm : L.commitment? a = none) :
    Views (L.set a (.mixRound r)) L.config? (Store.set L.round? a r) L.commitment? :=
  ⟨Store.view_set_of_none L rfl hc, Store.view_set_of_some L rfl, Store.view_set_of_none L rfl hm⟩

theorem views_set_commitment {a : Pubkey} {m : MixCommitment Pubkey Digest}
    (hc : L.config? a = none) (hr : L.round? a = none) :
    Views (L.set a (.mixCommitment m)) L.config? L.round? (Store.set L.commitment? a m) :=
  ⟨Store.view_set_of_none L rfl hc, Store.view_set_of_none L rfl hr, Store.view_set_of_some L rfl⟩

/-- A commitment and the round it belongs to, written together. -/
theorem views_set_pair {a R : Pubkey} {m : MixCommitment Pubkey Digest} {r r' : MixRound Pubkey}
    (hc : L.config? a = none) (hr : L.round? a = none) (hR : L.round? R = some r) :
    Views ((L.set a (.mixCommitment m)).set R (.mixRound r')) L.config? (Store.set L.round? R r')
      (Store.set L.commitment? a m) := by
  have hne : R ≠ a := fun h => by rw [h, hr] at hR; cases hR
  obtain ⟨h1, h2, h3⟩ := views_set_commitment (m := m) hc hr
  obtain ⟨k1, k2, k3⟩ := views_set_round (L := L.set a (.mixCommitment m)) (a := R) (r := r')
    (by rw [h1]; exact (Ledger.of_round hR).1)
    (by rw [h3, Store.set_of_ne _ _ hne]; exact (Ledger.of_round hR).2)
  exact ⟨k1.trans h1, k2.trans (by rw [h2]), k3.trans h3⟩

end Writes

theorem Initialize.Admits.views {accounts : Initialize Pubkey} (h : accounts.Admits L signers)
    (c : GhosConfig Pubkey) :
    Views (L.set accounts.config (.ghosConfig c)) (Store.set L.config? accounts.config c) L.round?
      L.commitment? :=
  views_set_config (Store.view_of_none h.fresh) (Store.view_of_none h.fresh)

theorem ConfigUpdate.Admits.views {accounts : ConfigUpdate Pubkey} {field : ConfigField Pubkey}
    {config config' : GhosConfig Pubkey} (h : accounts.Admits L signers field config config')
    (c : GhosConfig Pubkey) :
    Views (L.set accounts.config (.ghosConfig c)) (Store.set L.config? accounts.config c) L.round?
      L.commitment? :=
  views_set_config (Ledger.of_config h.configAt.stored).1 (Ledger.of_config h.configAt.stored).2

theorem MixInit.Admits.views {accounts : MixInit Pubkey} {roundId denomination : UInt64}
    {capacity : UInt8} {window : Int64} {config : GhosConfig Pubkey}
    (h : accounts.Admits L signers roundId denomination capacity window config)
    (r : MixRound Pubkey) :
    Views (L.set accounts.round (.mixRound r)) L.config? (Store.set L.round? accounts.round r)
      L.commitment? :=
  views_set_round (Store.view_of_none h.fresh) (Store.view_of_none h.fresh)

theorem MixCommitAccounts.Admits.views {accounts : MixCommitAccounts Pubkey}
    {config : GhosConfig Pubkey} {round : MixRound Pubkey}
    (h : accounts.Admits L now signers config round) (m : MixCommitment Pubkey Digest)
    (r : MixRound Pubkey) :
    Views ((L.set accounts.commitment (.mixCommitment m)).set accounts.round (.mixRound r))
      L.config? (Store.set L.round? accounts.round r)
      (Store.set L.commitment? accounts.commitment m) :=
  views_set_pair (Store.view_of_none h.fresh) (Store.view_of_none h.fresh) h.roundAt

theorem MixRevealAccounts.Admits.views [Sha256 Digest] {accounts : MixRevealAccounts Pubkey}
    {preimage : List UInt8} {revealSignal : Vector UInt8 32} {config : GhosConfig Pubkey}
    {round : MixRound Pubkey} {commit : MixCommitment Pubkey Digest}
    (h : accounts.Admits L now signers preimage revealSignal config round commit)
    (m : MixCommitment Pubkey Digest) (r : MixRound Pubkey) :
    Views ((L.set accounts.commitment (.mixCommitment m)).set accounts.round (.mixRound r))
      L.config? (Store.set L.round? accounts.round r)
      (Store.set L.commitment? accounts.commitment m) :=
  views_set_pair (Ledger.of_commitment h.commitmentAt).1 (Ledger.of_commitment h.commitmentAt).2
    h.roundAt

theorem MixSettleAccounts.Admits.views {accounts : MixSettleAccounts Pubkey}
    {config : GhosConfig Pubkey} {round : MixRound Pubkey}
    (h : accounts.Admits L now signers config round) (r : MixRound Pubkey) :
    Views (L.set accounts.round (.mixRound r)) L.config? (Store.set L.round? accounts.round r)
      L.commitment? :=
  views_set_round (Ledger.of_round h.roundAt).1 (Ledger.of_round h.roundAt).2

/-! ### One accepted step -/

section Step

variable [Sha256 Digest]

/-- What an accepted instruction does: it was admitted, and the views change as listed. -/
inductive Effect (L : Ledger Pubkey Digest) (now : Int64) (signers : List Pubkey) :
    Instruction Pubkey Digest → Ledger Pubkey Digest → Prop
  | ghosInitialize {accounts L'} (h : accounts.Admits L signers)
      (v : Views L' (Store.set L.config? accounts.config
        (accounts.newConfig (findProgramAddress (configSeeds : List (Seed Pubkey))).2 now))
        L.round? L.commitment?) :
      Effect L now signers (.ghosInitialize accounts) L'
  | configUpdate {accounts field config config' L'}
      (h : accounts.Admits L signers field config config')
      (v : Views L' (Store.set L.config? accounts.config { config' with lastUpdated := now })
        L.round? L.commitment?) :
      Effect L now signers (.configUpdate accounts field) L'
  | mixInit {accounts roundId denomination capacity window config L'}
      (h : accounts.Admits L signers roundId denomination capacity window config)
      (v : Views L' L.config? (Store.set L.round? accounts.round
        (accounts.newRound config now roundId denomination capacity window)) L.commitment?) :
      Effect L now signers (.mixInit accounts roundId denomination capacity window) L'
  | mixCommit {accounts commitmentBytes config round L'}
      (h : accounts.Admits L now signers config round)
      (v : Views L' L.config? (Store.set L.round? accounts.round round.joined)
        (Store.set L.commitment? accounts.commitment
          (accounts.entry round now commitmentBytes))) :
      Effect L now signers (.mixCommit accounts commitmentBytes) L'
  | mixReveal {accounts preimage revealSignal config round commit L'}
      (h : accounts.Admits L now signers preimage revealSignal config round commit)
      (v : Views L' L.config? (Store.set L.round? accounts.round round.opened)
        (Store.set L.commitment? accounts.commitment (commit.opened now revealSignal))) :
      Effect L now signers (.mixReveal accounts preimage revealSignal) L'
  | mixSettle {accounts config round L'} (h : accounts.Admits L now signers config round)
      (v : Views L' L.config? (Store.set L.round? accounts.round (round.closed config now))
        L.commitment?) :
      Effect L now signers (.mixSettle accounts) L'

/-! ### Where a view changed -/

/-- How a config comes to be written. -/
inductive ConfigWrite (L : Ledger Pubkey Digest) (now : Int64) (signers : List Pubkey) :
    Pubkey → Instruction Pubkey Digest → GhosConfig Pubkey → Prop
  | ghosInitialize {accounts} (h : accounts.Admits L signers) :
      ConfigWrite L now signers accounts.config (.ghosInitialize accounts)
        (accounts.newConfig (findProgramAddress (configSeeds : List (Seed Pubkey))).2 now)
  | configUpdate {accounts field config config'}
      (h : accounts.Admits L signers field config config') :
      ConfigWrite L now signers accounts.config (.configUpdate accounts field)
        { config' with lastUpdated := now }

/-- How a round comes to be written. -/
inductive RoundWrite (L : Ledger Pubkey Digest) (now : Int64) (signers : List Pubkey) :
    Pubkey → Instruction Pubkey Digest → MixRound Pubkey → Prop
  | mixInit {accounts roundId denomination capacity window config}
      (h : accounts.Admits L signers roundId denomination capacity window config) :
      RoundWrite L now signers accounts.round
        (.mixInit accounts roundId denomination capacity window)
        (accounts.newRound config now roundId denomination capacity window)
  | mixCommit {accounts commitmentBytes config round}
      (h : accounts.Admits L now signers config round) :
      RoundWrite L now signers accounts.round (.mixCommit accounts commitmentBytes) round.joined
  | mixReveal {accounts preimage revealSignal config round commit}
      (h : accounts.Admits L now signers preimage revealSignal config round commit) :
      RoundWrite L now signers accounts.round (.mixReveal accounts preimage revealSignal)
        round.opened
  | mixSettle {accounts config round} (h : accounts.Admits L now signers config round) :
      RoundWrite L now signers accounts.round (.mixSettle accounts) (round.closed config now)

/-- How a commitment comes to be written. -/
inductive CommitmentWrite (L : Ledger Pubkey Digest) (now : Int64) (signers : List Pubkey) :
    Pubkey → Instruction Pubkey Digest → MixCommitment Pubkey Digest → Prop
  | mixCommit {accounts commitmentBytes config round}
      (h : accounts.Admits L now signers config round) :
      CommitmentWrite L now signers accounts.commitment (.mixCommit accounts commitmentBytes)
        (accounts.entry round now commitmentBytes)
  | mixReveal {accounts preimage revealSignal config round commit}
      (h : accounts.Admits L now signers preimage revealSignal config round commit) :
      CommitmentWrite L now signers accounts.commitment
        (.mixReveal accounts preimage revealSignal) (commit.opened now revealSignal)

section Cases

variable {instruction : Instruction Pubkey Digest} {a : Pubkey}

theorem Effect.config_cases (h : Effect L now signers instruction L') {c : GhosConfig Pubkey}
    (hc : L'.config? a = some c) :
    L.config? a = some c ∨ ConfigWrite L now signers a instruction c := by
  cases h with
  | ghosInitialize h v =>
    rw [v.config, Store.set_eq_some] at hc
    rcases hc with ⟨rfl, rfl⟩ | ⟨-, hc⟩
    · exact .inr (.ghosInitialize h)
    · exact .inl hc
  | configUpdate h v =>
    rw [v.config, Store.set_eq_some] at hc
    rcases hc with ⟨rfl, rfl⟩ | ⟨-, hc⟩
    · exact .inr (.configUpdate h)
    · exact .inl hc
  | mixInit h v => exact .inl (v.config ▸ hc)
  | mixCommit h v => exact .inl (v.config ▸ hc)
  | mixReveal h v => exact .inl (v.config ▸ hc)
  | mixSettle h v => exact .inl (v.config ▸ hc)

theorem Effect.round_cases (h : Effect L now signers instruction L') {r : MixRound Pubkey}
    (hr : L'.round? a = some r) :
    L.round? a = some r ∨ RoundWrite L now signers a instruction r := by
  cases h with
  | ghosInitialize h v => exact .inl (v.round ▸ hr)
  | configUpdate h v => exact .inl (v.round ▸ hr)
  | mixInit h v =>
    rw [v.round, Store.set_eq_some] at hr
    rcases hr with ⟨rfl, rfl⟩ | ⟨-, hr⟩
    · exact .inr (.mixInit h)
    · exact .inl hr
  | mixCommit h v =>
    rw [v.round, Store.set_eq_some] at hr
    rcases hr with ⟨rfl, rfl⟩ | ⟨-, hr⟩
    · exact .inr (.mixCommit h)
    · exact .inl hr
  | mixReveal h v =>
    rw [v.round, Store.set_eq_some] at hr
    rcases hr with ⟨rfl, rfl⟩ | ⟨-, hr⟩
    · exact .inr (.mixReveal h)
    · exact .inl hr
  | mixSettle h v =>
    rw [v.round, Store.set_eq_some] at hr
    rcases hr with ⟨rfl, rfl⟩ | ⟨-, hr⟩
    · exact .inr (.mixSettle h)
    · exact .inl hr

/-- Where a round appears, `mix_init` has just opened it. -/
theorem Effect.opened_by (h : Effect L now signers instruction L') {r : MixRound Pubkey}
    (ha : L.round? a = none) (hr : L'.round? a = some r) :
    ∃ accounts roundId denomination capacity window config,
      instruction = .mixInit accounts roundId denomination capacity window ∧
      accounts.Admits L signers roundId denomination capacity window config ∧
      accounts.round = a ∧
      r = accounts.newRound config now roundId denomination capacity window := by
  rcases h.round_cases hr with hr | hw
  · rw [ha] at hr
    cases hr
  · cases hw with
    | mixInit hw => exact ⟨_, _, _, _, _, _, rfl, hw, rfl, rfl⟩
    | mixCommit hw => exact absurd (ha.symm.trans hw.roundAt) (by simp)
    | mixReveal hw => exact absurd (ha.symm.trans hw.roundAt) (by simp)
    | mixSettle hw => exact absurd (ha.symm.trans hw.roundAt) (by simp)

theorem Effect.commitment_cases (h : Effect L now signers instruction L')
    {c : MixCommitment Pubkey Digest} (hc : L'.commitment? a = some c) :
    L.commitment? a = some c ∨ CommitmentWrite L now signers a instruction c := by
  cases h with
  | ghosInitialize h v => exact .inl (v.commitment ▸ hc)
  | configUpdate h v => exact .inl (v.commitment ▸ hc)
  | mixInit h v => exact .inl (v.commitment ▸ hc)
  | mixCommit h v =>
    rw [v.commitment, Store.set_eq_some] at hc
    rcases hc with ⟨rfl, rfl⟩ | ⟨-, hc⟩
    · exact .inr (.mixCommit h)
    · exact .inl hc
  | mixReveal h v =>
    rw [v.commitment, Store.set_eq_some] at hc
    rcases hc with ⟨rfl, rfl⟩ | ⟨-, hc⟩
    · exact .inr (.mixReveal h)
    · exact .inl hc
  | mixSettle h v => exact .inl (v.commitment ▸ hc)

/-- Rounds are never removed. -/
theorem Effect.exists_round (h : Effect L now signers instruction L')
    (hr : ∃ r, L.round? a = some r) : ∃ r, L'.round? a = some r := by
  cases h with
  | ghosInitialize h v => rwa [v.round]
  | configUpdate h v => rwa [v.round]
  | mixInit h v => rw [v.round]; exact Store.exists_set _ _ hr
  | mixCommit h v => rw [v.round]; exact Store.exists_set _ _ hr
  | mixReveal h v => rw [v.round]; exact Store.exists_set _ _ hr
  | mixSettle h v => rw [v.round]; exact Store.exists_set _ _ hr

end Cases

/-! ### When an invocation is accepted -/

/-- The conditions under which an instruction is accepted. -/
def Admitted (L : Ledger Pubkey Digest) (now : Int64) (signers : List Pubkey) :
    Instruction Pubkey Digest → Prop
  | .ghosInitialize accounts => accounts.Admits L signers
  | .configUpdate accounts field =>
    ∃ config config', accounts.Admits L signers field config config'
  | .mixInit accounts roundId denomination capacity window =>
    ∃ config, accounts.Admits L signers roundId denomination capacity window config
  | .mixCommit accounts _ => ∃ config round, accounts.Admits L now signers config round
  | .mixReveal accounts preimage revealSignal =>
    ∃ config round commit, accounts.Admits L now signers preimage revealSignal config round commit
  | .mixSettle accounts => ∃ config round, accounts.Admits L now signers config round

theorem Effect.admitted {instruction : Instruction Pubkey Digest}
    (h : Effect L now signers instruction L') : Admitted L now signers instruction := by
  cases h with
  | ghosInitialize h v => exact h
  | configUpdate h v => exact ⟨_, _, h⟩
  | mixInit h v => exact ⟨_, h⟩
  | mixCommit h v => exact ⟨_, _, h⟩
  | mixReveal h v => exact ⟨_, _, _, h⟩
  | mixSettle h v => exact ⟨_, _, h⟩

variable [DecidableEq Digest]

theorem step_effect {t : Invocation Pubkey Digest} {e : Event Pubkey Digest}
    (h : ghos.step L t = .ok (L', e)) : Effect L t.now t.signers t.instruction L' := by
  obtain ⟨now, signers, instruction⟩ := t
  cases instruction with
  | ghosInitialize accounts =>
    obtain ⟨ha, rfl, -⟩ := ghosInitialize_eq_ok.1 h
    exact .ghosInitialize ha (ha.views _)
  | configUpdate accounts field =>
    obtain ⟨config, config', ha, rfl, -⟩ := configUpdate_eq_ok.1 h
    exact .configUpdate ha (ha.views _)
  | mixInit accounts roundId denomination capacity window =>
    obtain ⟨config, ha, rfl, -⟩ := mixInit_eq_ok.1 h
    exact .mixInit ha (ha.views _)
  | mixCommit accounts commitmentBytes =>
    obtain ⟨config, round, ha, rfl, -⟩ := mixCommit_eq_ok.1 h
    exact .mixCommit ha (ha.views _ _)
  | mixReveal accounts preimage revealSignal =>
    obtain ⟨config, round, commit, ha, rfl, -⟩ := mixReveal_eq_ok.1 h
    exact .mixReveal ha (ha.views _ _)
  | mixSettle accounts =>
    obtain ⟨config, round, ha, rfl, -⟩ := mixSettle_eq_ok.1 h
    exact .mixSettle ha (ha.views _)

/-- An accepted invocation moves the ledger by its effect. -/
theorem effect_of_accepts {t : Invocation Pubkey Digest} (h : ghos.Accepts L t) :
    Effect L t.now t.signers t.instruction (ghos.next L t) := by
  obtain ⟨e, he⟩ := h.exists_next
  exact step_effect he

/-- An invocation is accepted exactly when its conditions are met. -/
theorem accepts_iff {t : Invocation Pubkey Digest} :
    ghos.Accepts L t ↔ Admitted L t.now t.signers t.instruction := by
  refine ⟨fun h => (effect_of_accepts h).admitted, ?_⟩
  obtain ⟨now, signers, instruction⟩ := t
  cases instruction with
  | ghosInitialize accounts =>
    intro h
    exact ⟨_, ghosInitialize_eq_ok.2 ⟨h, rfl, rfl⟩⟩
  | configUpdate accounts field =>
    rintro ⟨config, config', h⟩
    exact ⟨_, configUpdate_eq_ok.2 ⟨config, config', h, rfl, rfl⟩⟩
  | mixInit accounts roundId denomination capacity window =>
    rintro ⟨config, h⟩
    exact ⟨_, mixInit_eq_ok.2 ⟨config, h, rfl, rfl⟩⟩
  | mixCommit accounts commitmentBytes =>
    rintro ⟨config, round, h⟩
    exact ⟨_, mixCommit_eq_ok.2 ⟨config, round, h, rfl, rfl⟩⟩
  | mixReveal accounts preimage revealSignal =>
    rintro ⟨config, round, commit, h⟩
    exact ⟨_, mixReveal_eq_ok.2 ⟨config, round, commit, h, rfl, rfl⟩⟩
  | mixSettle accounts =>
    rintro ⟨config, round, h⟩
    exact ⟨_, mixSettle_eq_ok.2 ⟨config, round, h, rfl, rfl⟩⟩

end Step

end Ghos
