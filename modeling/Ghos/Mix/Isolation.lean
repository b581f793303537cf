import Ghos.Mix.Invariant

/-!
# Rounds and hosts that do not share an account

* `rounds_do_not_interfere`: a run may be purged of the instructions on other rounds without a
  change to a round, its commitments or the fate of the instructions on it, and two instructions on
  different rounds commute.  This is an unwinding (`unwinding`): what an instruction reads and
  writes lies in the config, in the round it names and in the commitments of that round.
* `mixInitBy_accepted_iff`: the seeds of a round are its mint and its id, without the host, so an id
  is taken as soon as anybody has used it with that mint.
-/

namespace Ghos

variable {Pubkey Digest : Type} [DecidableEq Pubkey] [AddressSpace Pubkey]
  {L L' M M' : Ledger Pubkey Digest} {now : Int64} {signers : List Pubkey} {R p a : Pubkey}
  {instruction : Instruction Pubkey Digest}

/-! ### Free addresses -/

namespace WellAddressed

omit [DecidableEq Pubkey]

theorem free_configPda_iff (hL : WellAddressed L) :
    L configPda = none ↔ L.config? configPda = none := by
  refine ⟨fun h => (Ledger.eq_none_iff.1 h).1, fun h => Ledger.eq_none_iff.2 ⟨h, ?_, ?_⟩⟩
  · rw [Option.eq_none_iff_forall_ne_some]
    intro r hr
    obtain ⟨i, hi⟩ := hL.round_eq hr
    exact configPda_ne_mixRoundPda hi
  · rw [Option.eq_none_iff_forall_ne_some]
    intro c hc
    exact configPda_ne_mixCommitmentPda (hL.commitment_eq hc)

theorem free_mixRoundPda_iff (hL : WellAddressed L) {m : Pubkey} {i : UInt64} :
    L (mixRoundPda m i) = none ↔ L.round? (mixRoundPda m i) = none := by
  refine ⟨fun h => (Ledger.eq_none_iff.1 h).2.1, fun h => Ledger.eq_none_iff.2 ⟨?_, h, ?_⟩⟩
  · rw [Option.eq_none_iff_forall_ne_some]
    intro c hc
    exact configPda_ne_mixRoundPda (hL.config_eq hc).symm
  · rw [Option.eq_none_iff_forall_ne_some]
    intro c hc
    exact mixRoundPda_ne_mixCommitmentPda (hL.commitment_eq hc)

theorem free_mixCommitmentPda_iff (hL : WellAddressed L) :
    L (mixCommitmentPda R p) = none ↔ L.commitment? (mixCommitmentPda R p) = none := by
  refine ⟨fun h => (Ledger.eq_none_iff.1 h).2.2, fun h => Ledger.eq_none_iff.2 ⟨?_, ?_, h⟩⟩
  · rw [Option.eq_none_iff_forall_ne_some]
    intro c hc
    exact configPda_ne_mixCommitmentPda (hL.config_eq hc).symm
  · rw [Option.eq_none_iff_forall_ne_some]
    intro r hr
    obtain ⟨i, hi⟩ := hL.round_eq hr
    exact mixRoundPda_ne_mixCommitmentPda hi.symm

end WellAddressed

/-! ### What an instruction on a round can see -/

/-- The same config, the same round at `R` and the same commitments of it. -/
structure SameView (R : Pubkey) (L M : Ledger Pubkey Digest) : Prop where
  config : L.config? = M.config?
  agree : AgreeOn R L M

/-- The instruction acts on the config or on the round `R`. -/
def Instruction.Concerns (R : Pubkey) (instruction : Instruction Pubkey Digest) : Prop :=
  instruction.namedRound = none ∨ instruction.namedRound = some R

instance (R : Pubkey) (instruction : Instruction Pubkey Digest) :
    Decidable (instruction.Concerns R) :=
  inferInstanceAs (Decidable (_ ∨ _))

omit [DecidableEq Pubkey] [AddressSpace Pubkey] in
theorem Instruction.Concerns.round_eq {Q : Pubkey} (h : instruction.Concerns R)
    (hQ : instruction.namedRound = some Q) : Q = R := by
  rcases h with h | h
  · rw [hQ] at h
    cases h
  · exact Option.some.inj (hQ.symm.trans h)

namespace SameView

omit [DecidableEq Pubkey]

omit [AddressSpace Pubkey] in
theorem symm (h : SameView R L M) : SameView R M L := ⟨h.config.symm, h.agree.symm⟩

omit [AddressSpace Pubkey] in
theorem trans {N : Ledger Pubkey Digest} (h : SameView R L M) (h' : SameView R M N) :
    SameView R L N :=
  ⟨h.config.trans h'.config, h.agree.trans h'.agree⟩

theorem isConfigAt (h : SameView R L M) {config : GhosConfig Pubkey}
    (hc : IsConfigAt L a config) : IsConfigAt M a config :=
  ⟨by rw [← h.config]; exact hc.stored, hc.seeds⟩

theorem free_commitment (h : SameView R L M) (hL : WellAddressed L) (hM : WellAddressed M)
    (hfree : L (mixCommitmentPda R p) = none) : M (mixCommitmentPda R p) = none := by
  rw [hM.free_mixCommitmentPda_iff, Option.eq_none_iff_forall_ne_some]
  intro c hc
  have hc' := (h.agree.commitment _ c (hM.commitment_at hc).1).2 hc
  rw [hL.free_mixCommitmentPda_iff.1 hfree] at hc'
  cases hc'

end SameView

variable [Sha256 Digest]

omit [DecidableEq Pubkey] in
/-- Acceptance depends on the view only. -/
theorem Admitted.congr (h : Admitted L now signers instruction) (hL : WellAddressed L)
    (hM : WellAddressed M) (hkeep : instruction.Concerns R) (hview : SameView R L M) :
    Admitted M now signers instruction := by
  cases instruction with
  | ghosInitialize accounts =>
    refine ⟨h.signer, h.system, h.address, ?_⟩
    have hfree := h.fresh
    rw [h.address, hL.free_configPda_iff, hview.config] at hfree
    rw [h.address, hM.free_configPda_iff, hfree]
  | configUpdate accounts field =>
    obtain ⟨config, config', h⟩ := h
    exact ⟨config, config', hview.isConfigAt h.configAt, h.signer, h.admin, h.field⟩
  | mixInit accounts roundId denomination capacity window =>
    obtain ⟨config, h⟩ := h
    obtain rfl := hkeep.round_eq rfl
    refine ⟨config, hview.isConfigAt h.configAt, h.signer, h.system, h.address, ?_, h.unpaused,
      h.capacity, h.denomination, h.window⟩
    have hfree := h.fresh
    have hround := hview.agree.round
    rw [h.address] at hfree hround ⊢
    rw [hM.free_mixRoundPda_iff, ← hround, hL.free_mixRoundPda_iff.1 hfree]
  | mixCommit accounts commitmentBytes =>
    obtain ⟨config, round, h⟩ := h
    obtain rfl := hkeep.round_eq rfl
    refine ⟨config, round, hview.isConfigAt h.configAt, h.signer, ?_, h.system, h.address, ?_,
      h.unpaused, h.phase, h.inWindow, h.slot⟩
    · rw [← hview.agree.round, h.roundAt]
    · have hfree := h.fresh
      rw [h.address] at hfree ⊢
      exact hview.free_commitment hL hM hfree
  | mixReveal accounts preimage revealSignal =>
    obtain ⟨config, round, commit, h⟩ := h
    obtain rfl := hkeep.round_eq rfl
    refine ⟨config, round, commit, hview.isConfigAt h.configAt, h.signer, ?_, ?_, h.address,
      h.unpaused, h.phase, h.inWindow, h.unrevealed, h.participant, h.digest⟩
    · rw [← hview.agree.round, h.roundAt]
    · exact (hview.agree.commitment _ _ (h.owner hL).1).1 h.commitmentAt
  | mixSettle accounts =>
    obtain ⟨config, round, h⟩ := h
    obtain rfl := hkeep.round_eq rfl
    refine ⟨config, round, hview.isConfigAt h.configAt, h.signer, ?_, h.host, h.unpaused, h.phase⟩
    rw [← hview.agree.round, h.roundAt]

omit [AddressSpace Pubkey] [Sha256 Digest] in
/-- The same config, written on both sides. -/
theorem SameView.writeConfig (h : SameView R L M) {config : GhosConfig Pubkey}
    (hL : Views L' (Store.set L.config? a config) L.round? L.commitment?)
    (hM : Views M' (Store.set M.config? a config) M.round? M.commitment?) :
    SameView R L' M' :=
  ⟨by rw [hL.config, hM.config, h.config],
    by rw [hL.round, hM.round]; exact h.agree.round,
    by rw [hL.commitment, hM.commitment]; exact h.agree.commitment⟩

omit [AddressSpace Pubkey] [Sha256 Digest] in
/-- The same round, written on both sides. -/
theorem SameView.writeRound (h : SameView R L M) {r : MixRound Pubkey}
    (hL : Views L' L.config? (Store.set L.round? R r) L.commitment?)
    (hM : Views M' M.config? (Store.set M.round? R r) M.commitment?) :
    SameView R L' M' :=
  ⟨by rw [hL.config, hM.config, h.config],
    by rw [hL.round, hM.round, Store.set_self, Store.set_self],
    by rw [hL.commitment, hM.commitment]; exact h.agree.commitment⟩

omit [AddressSpace Pubkey] [Sha256 Digest] in
/-- The same round and the same commitment of it, written on both sides. -/
theorem SameView.write (h : SameView R L M) {r : MixRound Pubkey} {c : MixCommitment Pubkey Digest}
    (hL : Views L' L.config? (Store.set L.round? R r) (Store.set L.commitment? a c))
    (hM : Views M' M.config? (Store.set M.round? R r) (Store.set M.commitment? a c)) :
    SameView R L' M' := by
  refine ⟨by rw [hL.config, hM.config, h.config],
    by rw [hL.round, hM.round, Store.set_self, Store.set_self], fun k c' hc' => ?_⟩
  rw [hL.commitment, hM.commitment, Store.set_eq_some, Store.set_eq_some,
    h.agree.commitment k c' hc']

/-- What an accepted instruction does to the view depends on the view only. -/
theorem Effect.congr (h : Effect L now signers instruction L')
    (h' : Effect M now signers instruction M') (hL : WellAddressed L) (hM : WellAddressed M)
    (hkeep : instruction.Concerns R) (hview : SameView R L M) : SameView R L' M' := by
  have hconfig : ∀ {a b : Pubkey} {config config' : GhosConfig Pubkey}, L.config? a = some config →
      M.config? b = some config' → config = config' := by
    intro a b config config' hc hc'
    rw [hL.config_eq hc, hview.config] at hc
    rw [hM.config_eq hc', hc] at hc'
    exact Option.some.inj hc'
  have hround : ∀ {r r' : MixRound Pubkey}, L.round? R = some r → M.round? R = some r' → r = r' :=
    fun hr hr' => Option.some.inj (hr.symm.trans (hview.agree.round.trans hr'))
  cases h with
  | ghosInitialize h v =>
    cases h' with
    | ghosInitialize h' v' =>
      exact hview.writeConfig v v'
  | configUpdate h v =>
    cases h' with
    | configUpdate h' v' =>
      obtain rfl := hconfig h.configAt.stored h'.configAt.stored
      obtain rfl := Except.ok.inj (h.field.symm.trans h'.field)
      exact hview.writeConfig v v'
  | mixInit h v =>
    cases h' with
    | mixInit h' v' =>
      obtain rfl := hkeep.round_eq rfl
      obtain rfl := hconfig h.configAt.stored h'.configAt.stored
      exact hview.writeRound v v'
  | mixCommit h v =>
    cases h' with
    | mixCommit h' v' =>
      obtain rfl := hkeep.round_eq rfl
      obtain rfl := hround h.roundAt h'.roundAt
      exact hview.write v v'
  | mixReveal h v =>
    cases h' with
    | mixReveal h' v' =>
      obtain rfl := hkeep.round_eq rfl
      obtain rfl := hround h.roundAt h'.roundAt
      have hc := (hview.agree.commitment _ _ (h.owner hL).1).1 h.commitmentAt
      obtain rfl := Option.some.inj (hc.symm.trans h'.commitmentAt)
      exact hview.write v v'
  | mixSettle h v =>
    cases h' with
    | mixSettle h' v' =>
      obtain rfl := hkeep.round_eq rfl
      obtain rfl := hconfig h.configAt.stored h'.configAt.stored
      obtain rfl := hround h.roundAt h'.roundAt
      exact hview.writeRound v v'

/-- Instructions on other rounds do not change the view. -/
theorem Effect.sameView_of_not_concerns (hL : WellAddressed L)
    (h : Effect L now signers instruction L') (hkeep : ¬ instruction.Concerns R) :
    SameView R L' L := by
  refine ⟨?_, h.agreeOn hL fun hR => hkeep (.inr hR)⟩
  cases h with
  | ghosInitialize h v => exact absurd (.inl rfl) hkeep
  | configUpdate h v => exact absurd (.inl rfl) hkeep
  | mixInit h v => exact v.config
  | mixCommit h v => exact v.config
  | mixReveal h v => exact v.config
  | mixSettle h v => exact v.config

/-! ### Purging and commuting -/

variable [DecidableEq Digest]

theorem accepts_congr {t : Invocation Pubkey Digest} (hL : WellAddressed L) (hM : WellAddressed M)
    (hkeep : t.instruction.Concerns R) (hview : SameView R L M) :
    ghos.Accepts L t ↔ ghos.Accepts M t := by
  rw [accepts_iff, accepts_iff]
  exact ⟨fun h => h.congr hL hM hkeep hview, fun h => h.congr hM hL hkeep hview.symm⟩

/-- The view of a round is all that matters to the instructions on it. -/
theorem unwinding (R : Pubkey) :
    Machine.Unwinding (ghos : Machine (Ledger Pubkey Digest) _ _ _) WellAddressed
      (fun t => t.instruction.Concerns R) (SameView R) where
  inv_step L t L' e hL h := (step_effect h).wellAddressed hL
  symm L M := SameView.symm
  trans L M N := SameView.trans
  skip L t hL hkeep := by
    refine Machine.next_invariant (P := fun L' => SameView R L' L) ⟨rfl, .refl R L⟩ ?_
    exact fun L' e h => (step_effect h).sameView_of_not_concerns hL hkeep
  accepts L M t := accepts_congr
  follow L M t hL hM hkeep hview := by
    have hiff := accepts_congr hL hM hkeep hview
    by_cases h : ghos.Accepts L t
    · exact (effect_of_accepts h).congr (effect_of_accepts (hiff.1 h)) hL hM hkeep hview
    · rwa [Machine.next_of_not_accepts h, Machine.next_of_not_accepts (mt hiff.2 h)]

omit [DecidableEq Pubkey] [AddressSpace Pubkey] [Sha256 Digest] [DecidableEq Digest] in
/-- Ledgers that look the same to every round are the same. -/
theorem eq_of_sameView (hconfig : L.config? = M.config?) (h : ∀ R, AgreeOn R L M) : L = M :=
  Ledger.ext_views hconfig (funext fun R => (h R).round)
    (funext fun k => Option.ext fun c => (h c.round).commitment k c rfl)

omit [DecidableEq Pubkey] [AddressSpace Pubkey] [Sha256 Digest] [DecidableEq Digest] in
theorem Instruction.not_concerns {Q : Pubkey} (hQ : instruction.namedRound = some Q)
    (hne : Q ≠ R) : ¬ instruction.Concerns R :=
  fun h => hne (h.round_eq hQ)

/-- Instructions on different rounds commute. -/
theorem next_comm (hL : WellAddressed L) {t u : Invocation Pubkey Digest} {Q : Pubkey}
    (ht : t.instruction.namedRound = some R) (hu : u.instruction.namedRound = some Q)
    (hne : R ≠ Q) : ghos.next (ghos.next L t) u = ghos.next (ghos.next L u) t := by
  have hview : ∀ S, SameView S (ghos.next (ghos.next L t) u) (ghos.next (ghos.next L u) t) := by
    intro S
    by_cases hS : Q = S
    -- one of the two instructions is invisible to the round `S`
    · exact ((unwinding S).agree_swap hL u (Instruction.not_concerns ht (hS ▸ hne))).symm
    · exact (unwinding S).agree_swap hL t (Instruction.not_concerns hu hS)
  exact eq_of_sameView (hview R).config fun S => (hview S).agree

/-- A round, its commitments and the fate of the instructions on it do not depend on the
instructions on other rounds, and instructions on different rounds commute. -/
theorem rounds_do_not_interfere (start : List (Invocation Pubkey Digest)) :
    (∀ R run, AgreeOn R (ghos.exec (ghos.exec ghos.init start) run)
      (ghos.exec (ghos.exec ghos.init start)
        (run.filter fun t : Invocation Pubkey Digest => t.instruction.Concerns R))) ∧
    (∀ R pre t, t.instruction.Concerns R →
      (ghos.Accepts (ghos.exec (ghos.exec ghos.init start) pre) t ↔
        ghos.Accepts (ghos.exec (ghos.exec ghos.init start)
          (pre.filter fun t : Invocation Pubkey Digest => t.instruction.Concerns R)) t)) ∧
    (∀ t u R Q, t.instruction.namedRound = some R → u.instruction.namedRound = some Q → R ≠ Q →
      ghos.exec (ghos.exec ghos.init start) [t, u] = ghos.exec (ghos.exec ghos.init start) [u, t] ∧
      (ghos.Accepts (ghos.next (ghos.exec ghos.init start) u) t ↔
        ghos.Accepts (ghos.exec ghos.init start) t)) := by
  have hL : WellAddressed (ghos.exec ghos.init start) := wellAddressed_of_reachable ⟨start, rfl⟩
  have hrefl : ∀ R, SameView R (ghos.exec ghos.init start) (ghos.exec ghos.init start) :=
    fun R => ⟨rfl, .refl R _⟩
  refine ⟨fun R run => ?_, fun R pre t ht => ?_, fun t u R Q ht hu hne => ⟨?_, ?_⟩⟩
  · exact ((unwinding R).agree_exec_filter run hL hL (hrefl R)).agree
  · exact (unwinding R).accepts_filter_iff pre hL hL (hrefl R) ht
  · exact next_comm hL ht hu hne
  · exact (unwinding R).accepts_next_iff hL (.inr ht) (Instruction.not_concerns hu hne.symm)

/-! ### Whose round is it -/

/-- The `i`-th invocation is an accepted opening of the round `(mint, roundId)` by `host`. -/
def OpensAt (run : List (Invocation Pubkey Digest)) (host mint : Pubkey) (roundId : UInt64)
    (i : ℕ) : Prop :=
  ∃ now signers accounts denomination capacity window,
    ghos.AcceptedAt run i ⟨now, signers, .mixInit accounts roundId denomination capacity window⟩ ∧
    accounts.host = host ∧ accounts.mint = mint

/-- The address of a round is taken once somebody has opened a round with its mint and its id. -/
theorem free_iff_not_opensAt (run : List (Invocation Pubkey Digest)) {mint : Pubkey}
    {roundId : UInt64} :
    ghos.exec ghos.init run (mixRoundPda mint roundId) = none ↔
      ∀ host i, ¬ OpensAt run host mint roundId i := by
  have hL : WellAddressed (ghos.exec ghos.init run) := wellAddressed_of_reachable ⟨run, rfl⟩
  rw [hL.free_mixRoundPda_iff, ← Machine.stateAt_length]
  constructor
  · rintro hfree host i ⟨now, signers, accounts, denomination, capacity, window, hacc, -, rfl⟩
    have hlen := hacc.lt_length
    cases effect_of_acceptedAt hacc with
    | mixInit h v =>
      have hr := congrFun v.round accounts.round
      rw [Store.set_self] at hr
      obtain ⟨r', hr', -⟩ := round_stateAt (Nat.succ_le_of_lt hlen) hr
      rw [h.address, hfree] at hr'
      cases hr'
  · intro hnone
    rw [Option.eq_none_iff_forall_ne_some]
    intro r hr
    obtain ⟨i, -, now, signers, accounts, roundId', denomination, capacity, window, config, hacc,
      ha, hround, -⟩ := exists_opening hr
    obtain ⟨rfl, rfl⟩ := mixRoundPda_inj.1 (hround.symm.trans ha.address)
    exact hnone _ i ⟨now, signers, accounts, denomination, capacity, window, hacc, rfl, rfl⟩

theorem not_accepts_of_opensAt {run : List (Invocation Pubkey Digest)} {host host' mint : Pubkey}
    {roundId denomination : UInt64} {capacity : UInt8} {window : Int64} {i : ℕ}
    (h : OpensAt run host' mint roundId i) :
    ¬ ghos.Accepts (ghos.exec ghos.init run)
      (mixInitBy host mint roundId denomination capacity window now) := by
  intro hacc
  obtain ⟨config, -, -, hfree, -⟩ :=
    (accepts_mixInitBy_iff (wellAddressed_of_reachable ⟨run, rfl⟩)).1 hacc
  exact (free_iff_not_opensAt run).1 hfree host' i h

/-- A host can open the round `(mint, roundId)` exactly if no host has done so before, and the
denomination is not zero. -/
theorem mixInitBy_accepted_iff (run : List (Invocation Pubkey Digest)) {host mint : Pubkey}
    {roundId denomination : UInt64} {capacity : UInt8} {window now : Int64}
    {config : GhosConfig Pubkey}
    (hconfig : (ghos.exec ghos.init run).config? configPda = some config)
    (hunpaused : config.paused = false) (hcapacity : 4 ≤ capacity ∧ capacity ≤ 16)
    (hwindow : 0 < window) :
    ghos.Accepts (ghos.exec ghos.init run)
        (mixInitBy host mint roundId denomination capacity window now) ↔
      0 < denomination ∧ ∀ other i, ¬ OpensAt run other mint roundId i := by
  rw [accepts_mixInitBy_iff (wellAddressed_of_reachable ⟨run, rfl⟩)]
  constructor
  · rintro ⟨-, -, -, hfree, -, hd, -⟩
    exact ⟨hd, (free_iff_not_opensAt run).1 hfree⟩
  · rintro ⟨hd, hnone⟩
    exact ⟨config, hconfig, hunpaused, (free_iff_not_opensAt run).2 hnone, hcapacity, hd, hwindow⟩

theorem mixInitBy_accepted_iff_sample :
    ghos.Accepts (ghos.exec ghos.init Sample.opening)
        (mixInitBy (Sample.participant 0) Sample.mint 1 100 4 1000 1) ↔
      (0 : UInt64) < 100 ∧ ∀ other i, ¬ OpensAt Sample.opening other Sample.mint 1 i := by
  obtain ⟨config, hconfig, hpaused⟩ : ∃ config ∈ (ghos.exec ghos.init Sample.opening).config?
      configPda, config.paused = false := by decide +kernel
  exact mixInitBy_accepted_iff Sample.opening hconfig hpaused (by decide) (by decide)

/-- The round id of one host is taken by another: after `Sample.opening`, which participant `0` has
not signed, it cannot open a round of its own with the same mint and the same id. -/
theorem round_id_taken_by_other_host :
    (∀ t ∈ Sample.opening, Sample.participant 0 ∉ t.signers) ∧
      (∃ config ∈ (ghos.exec ghos.init Sample.opening).config? configPda, config.paused = false) ∧
      ¬ ghos.Accepts (ghos.exec ghos.init Sample.opening)
        (mixInitBy (Sample.participant 0) Sample.mint 0 100 4 1000 1) := by
  refine ⟨by decide +kernel, by decide +kernel, ?_⟩
  have hopens : OpensAt Sample.opening Sample.host Sample.mint 0 1 :=
    ⟨0, [Sample.host], ⟨configPda, Sample.host, Sample.mint, Sample.round, systemProgramId⟩, 100, 4,
      1000, by decide +kernel, rfl, rfl⟩
  exact not_accepts_of_opensAt hopens

end Ghos
