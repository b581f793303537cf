import Ghos.Mix.Invariant

/-!
# Who can move a round on

* `honest_reveal_accepted`: until the reveal deadline nobody can keep a participant from revealing;
* `hasExit_iff`: the rounds that the host and the participants can still bring to an end once both
  deadlines have passed: those in the reveal phase, and the completely revealed ones that meet the
  minimum in force;
* `not_hostFreeExit`: nobody but the host can close a round.
-/

namespace Ghos

variable {Pubkey Digest : Type} [DecidableEq Pubkey] [DecidableEq Digest] [AddressSpace Pubkey]
  [Sha256 Digest] {L L' : Ledger Pubkey Digest} {now : Int64} {signers : List Pubkey}
  {instruction : Instruction Pubkey Digest} {R p k : Pubkey} {r : MixRound Pubkey}
  {c : MixCommitment Pubkey Digest}

/-! ### Revealing in time -/

/-- The round is in its reveal phase until `deadline`, and `c` in it is not revealed. -/
structure CanReveal (L : Ledger Pubkey Digest) (R : Pubkey) (deadline : Int64) (k : Pubkey)
    (c : MixCommitment Pubkey Digest) : Prop where
  reachable : ghos.Reachable L
  round : ∃ r, L.round? R = some r ∧ r.phase = .reveal ∧ r.revealCloseAt = deadline
  commitment : L.commitment? k = some c

/-- A round with an unrevealed commitment is not complete. -/
theorem phase_ne_settling (hL : ghos.Reachable L) (hr : L.round? R = some r)
    (hc : L.commitment? k = some c) (hR : c.round = R) (hno : c.revealed = false) :
    r.phase ≠ .settling := by
  obtain ⟨a, ha⟩ := exists_represents hL hr
  intro hp
  refine a.stage_ne_settling (ha.only k c hc hR) ?_ (ha.stage_eq (s := .settling) hp)
  rw [← ha.revealed_iff (wellAddressed_of_reachable hL) hc hR, hno]
  exact Bool.false_ne_true

/-- Before the deadline, nobody else ends the reveal phase or touches the commitment. -/
theorem CanReveal.of_effect {deadline : Int64} (hcan : CanReveal L R deadline k c)
    (hR : c.round = R) (hno : c.revealed = false) (h : Effect L now signers instruction L')
    (hL' : ghos.Reachable L') (hnow : now ≤ deadline)
    (hp : ¬ instruction.IsRevealOf R c.participant) : CanReveal L' R deadline k c := by
  have hc : L'.commitment? k = some c := by
    rcases h.commitment_kept (wellAddressed_of_reachable hcan.reachable) hcan.commitment with
      hc | ⟨hp', -⟩
    · exact hc
    · exact absurd (hR ▸ hp') hp
  obtain ⟨r, hr, hph, hdl⟩ := hcan.round
  obtain ⟨r', hr'⟩ := h.exists_round ⟨r, hr⟩
  refine ⟨hL', ⟨r', hr', ?_⟩, hc⟩
  have hset := phase_ne_settling hL' hr' hc hR hno
  rcases h.round_cases hr' with hsame | hw
  · obtain rfl := Option.some.inj (hr.symm.trans hsame)
    exact ⟨hph, hdl⟩
  · cases hw with
    | mixInit hw => exact absurd hr (hw.round_ne r)
    | mixCommit hw =>
      obtain rfl := Option.some.inj (hr.symm.trans hw.roundAt)
      rw [hw.phase] at hph
      cases hph
    | mixReveal hw =>
      obtain rfl := Option.some.inj (hr.symm.trans hw.roundAt)
      refine ⟨?_, hdl⟩
      -- the phase ends with the last reveal, and `c` is still missing
      simp only [MixRound.opened] at hset ⊢
      split_ifs at hset ⊢ with hfull
      · exact absurd rfl hset
      · rfl
    | mixSettle hw =>
      obtain rfl := Option.some.inj (hr.symm.trans hw.roundAt)
      rcases hw.phase with ⟨hp, -⟩ | ⟨-, hlt⟩
      · rw [hph] at hp
        cases hp
      · rw [hdl] at hlt
        exact absurd hnow (Int64.not_le.2 hlt)

/-- Whatever the others do, a participant who has not revealed yet can do so until the deadline,
at any moment at which the config is not paused. -/
theorem honest_reveal_accepted {pre post : List (Invocation Pubkey Digest)} {R p k : Pubkey}
    {r : MixRound Pubkey} {c : MixCommitment Pubkey Digest} {preimage : List UInt8}
    {revealSignal : Vector UInt8 32} {now : Int64} {config : GhosConfig Pubkey}
    (hr : (ghos.exec ghos.init pre).round? R = some r) (hph : r.phase = .reveal)
    (hc : (ghos.exec ghos.init pre).commitment? k = some c) (hR : c.round = R)
    (hp : c.participant = p) (hno : c.revealed = false)
    (hd : c.commitment = hashv [preimage, revealSignal.toList])
    (hpost : ∀ t ∈ post, ¬ t.instruction.IsRevealOf R p)
    (hchron : Chronological (post ++ [mixRevealBy p R preimage revealSignal now]))
    (hnow : now ≤ r.revealCloseAt)
    (hconfig : (ghos.exec ghos.init (pre ++ post)).config? configPda = some config)
    (hunpaused : config.paused = false) :
    ghos.Accepts (ghos.exec ghos.init (pre ++ post)) (mixRevealBy p R preimage revealSignal now) := by
  have hbefore : ∀ t ∈ post, t.now ≤ now := by
    intro t ht
    exact ((List.pairwise_append.1 hchron).2.2 t ht _ (List.mem_singleton_self _) :)
  have hcan : CanReveal (ghos.exec ghos.init (pre ++ post)) R r.revealCloseAt k c := by
    rw [Machine.exec_append]
    refine Machine.exec_invariant (P := fun L => CanReveal L R r.revealCloseAt k c)
      ⟨⟨pre, rfl⟩, ⟨r, hr, hph, rfl⟩, hc⟩ ?_
    intro t ht L L' e hcan hstep
    refine hcan.of_effect hR hno (step_effect hstep) ?_
      (Int64.le_trans (hbefore t ht) hnow) (hp ▸ hpost t ht)
    rw [← Machine.next_of_ok hstep]
    exact hcan.reachable.next t
  have hL := wellAddressed_of_reachable hcan.reachable
  obtain ⟨r', hr', hph', hdl⟩ := hcan.round
  have hk := hL.commitment_eq hcan.commitment
  rw [hR, hp] at hk
  exact (accepts_mixRevealBy_iff hL).2 ⟨config, r', c, hconfig, hunpaused, hr', hph',
    by rw [hdl]; exact hnow, by rw [← hk]; exact hcan.commitment, hno, hd.symm⟩

theorem honest_reveal_accepted_sample :
    ghos.Accepts (ghos.exec ghos.init (Sample.opening ++ Sample.commits 4 ++ Sample.reveals 3))
      (mixRevealBy (Sample.participant 3) Sample.round (Sample.preimage 3) Sample.signal 2) := by
  obtain ⟨r, hr, hphase, hnow⟩ : ∃ r ∈ (ghos.exec ghos.init
      (Sample.opening ++ Sample.commits 4)).round? Sample.round,
      r.phase = .reveal ∧ 2 ≤ r.revealCloseAt := by decide +kernel
  obtain ⟨c, hc, hR, hp, hno, hd⟩ : ∃ c ∈ (ghos.exec ghos.init
      (Sample.opening ++ Sample.commits 4)).commitment?
      (mixCommitmentPda Sample.round (Sample.participant 3)), c.round = Sample.round ∧
      c.participant = Sample.participant 3 ∧ c.revealed = false ∧
      c.commitment = hashv [Sample.preimage 3, Sample.signal.toList] := by decide +kernel
  obtain ⟨config, hconfig, hpaused⟩ : ∃ config ∈ (ghos.exec ghos.init
      (Sample.opening ++ Sample.commits 4 ++ Sample.reveals 3)).config? configPda,
      config.paused = false := by decide +kernel
  refine honest_reveal_accepted hr hphase hc hR hp hno hd ?_ ?_ hnow hconfig hpaused
  · simp [Sample.reveals, List.range_succ, mixRevealBy, Instruction.IsRevealOf, Sample.participant]
  · simp [Chronological, Sample.reveals, List.range_succ, mixRevealBy]

/-! ### Ending a round after its deadlines -/

/-- `mix_commit`, `mix_reveal` and `mix_settle`. -/
def Instruction.MovesRound : Instruction Pubkey Digest → Prop
  | .mixCommit _ _ => True
  | .mixReveal _ _ _ => True
  | .mixSettle _ => True
  | _ => False

/-- Who has committed in the round `R`. -/
def IsParticipant (L : Ledger Pubkey Digest) (R p : Pubkey) : Prop :=
  ∃ k c, L.commitment? k = some c ∧ c.round = R ∧ c.participant = p

/-- What the host and the participants of `r` may send after `now` and after both deadlines. -/
structure IsExitStep (L : Ledger Pubkey Digest) (R : Pubkey) (r : MixRound Pubkey) (now : Int64)
    (t : Invocation Pubkey Digest) : Prop where
  moves : t.instruction.MovesRound
  signers : ∀ s ∈ t.signers, s = r.host ∨ IsParticipant L R s
  later : now < t.now
  commitClosed : r.commitCloseAt < t.now
  revealClosed : r.revealCloseAt < t.now

/-- Without newcomers and without the admin, the round can still be settled or aborted. -/
def HasExit (L : Ledger Pubkey Digest) (R : Pubkey) (r : MixRound Pubkey) (now : Int64) : Prop :=
  ∃ post : List (Invocation Pubkey Digest), Chronological post ∧
    (∀ t ∈ post, IsExitStep L R r now t) ∧
    ∃ r', (ghos.exec L post).round? R = some r' ∧ r'.phase.Terminal

/-- The rounds that `mix_settle` closes after the deadlines. -/
def MixRound.Settleable (r : MixRound Pubkey) (config : GhosConfig Pubkey) : Prop :=
  r.phase = .reveal ∨ r.phase = .settling ∧ config.mixMinParticipants ≤ r.revealed

omit [DecidableEq Digest] in
/-- After the deadlines, nothing moves a round that `mix_settle` does not close. -/
theorem Effect.round_stuck {config : GhosConfig Pubkey} (hL : WellAddressed L)
    (h : Effect L now signers instruction L') (hr : L.round? R = some r)
    (hconfig : L.config? configPda = some config) (hstuck : ¬ r.Settleable config)
    (hclosed : r.commitCloseAt < now) : L'.round? R = some r := by
  obtain ⟨r', hr'⟩ := h.exists_round ⟨r, hr⟩
  rcases h.round_cases hr' with hsame | hw
  · rw [hr', ← hsame, hr]
  · cases hw with
    | mixInit hw => exact absurd hr (hw.round_ne r)
    | mixCommit hw =>
      obtain rfl := Option.some.inj (hr.symm.trans hw.roundAt)
      exact (Int64.lt_irrefl (Int64.lt_trans hw.inWindow hclosed)).elim
    | mixReveal hw =>
      obtain rfl := Option.some.inj (hr.symm.trans hw.roundAt)
      exact absurd (.inl hw.phase) hstuck
    | mixSettle hw =>
      obtain rfl := Option.some.inj (hr.symm.trans hw.roundAt)
      have hc := hw.configAt.stored
      rw [hL.config_eq hc, hconfig, Option.some.injEq] at hc
      subst hc
      exact absurd (hw.phase.symm.imp And.left id) hstuck

omit [DecidableEq Digest] in
theorem Effect.config_eq_of_movesRound (h : Effect L now signers instruction L')
    (hi : instruction.MovesRound) : L'.config? = L.config? := by
  cases h with
  | ghosInitialize h v => cases hi
  | configUpdate h v => cases hi
  | mixInit h v => cases hi
  | mixCommit h v => exact v.config
  | mixReveal h v => exact v.config
  | mixSettle h v => exact v.config

/-- A round that is stuck stays as it is. -/
theorem round_stuck {config : GhosConfig Pubkey} {post : List (Invocation Pubkey Digest)}
    (hL : ghos.Reachable L) (hr : L.round? R = some r)
    (hconfig : L.config? configPda = some config) (hstuck : ¬ r.Settleable config)
    (hpost : ∀ t ∈ post, t.instruction.MovesRound ∧ r.commitCloseAt < t.now) :
    (ghos.exec L post).round? R = some r := by
  have hinv : ghos.Reachable (ghos.exec L post) ∧ (ghos.exec L post).round? R = some r ∧
      (ghos.exec L post).config? configPda = some config := by
    refine Machine.exec_invariant (P := fun M => ghos.Reachable M ∧ M.round? R = some r ∧
      M.config? configPda = some config) ⟨hL, hr, hconfig⟩ ?_
    intro t ht M M' e ⟨hM, hr, hconfig⟩ hstep
    have heff := step_effect hstep
    obtain ⟨hmoves, hclosed⟩ := hpost t ht
    refine ⟨?_, heff.round_stuck (wellAddressed_of_reachable hM) hr hconfig hstuck hclosed, ?_⟩
    · rw [← Machine.next_of_ok hstep]
      exact hM.next t
    · rw [heff.config_eq_of_movesRound hmoves, hconfig]
  exact hinv.2.1

theorem not_hasExit {config : GhosConfig Pubkey} {now : Int64} (hL : ghos.Reachable L)
    (hr : L.round? R = some r) (hopen : ¬ r.phase.Terminal)
    (hconfig : L.config? configPda = some config) (hstuck : ¬ r.Settleable config) :
    ¬ HasExit L R r now := by
  rintro ⟨post, -, hpost, r', hr', hterm⟩
  have hsame := round_stuck hL hr hconfig hstuck fun t ht =>
    ⟨(hpost t ht).moves, (hpost t ht).commitClosed⟩
  obtain rfl := Option.some.inj (hr'.symm.trans hsame)
  exact hopen hterm

/-- An exit takes a moment after the clock and after the deadlines. -/
theorem HasExit.lt_maxValue {now : Int64} (h : HasExit L R r now) (hr : L.round? R = some r)
    (hopen : ¬ r.phase.Terminal) : now < Int64.maxValue ∧ r.revealCloseAt < Int64.maxValue := by
  obtain ⟨post, -, hpost, r', hr', hterm⟩ := h
  cases post with
  | nil =>
    obtain rfl := Option.some.inj (hr.symm.trans hr')
    exact absurd hterm hopen
  | cons t post =>
    have ht := hpost t List.mem_cons_self
    exact ⟨Int64.lt_of_lt_of_le ht.later (Int64.le_maxValue _),
      Int64.lt_of_lt_of_le ht.revealClosed (Int64.le_maxValue _)⟩

/-- A round that can be settled is closed by its host, if there is a moment left to do so. -/
theorem hasExit_of_settleable {config : GhosConfig Pubkey} {now : Int64} (hL : ghos.Reachable L)
    (hr : L.round? R = some r) (hconfig : L.config? configPda = some config)
    (hunpaused : config.paused = false) (hnow : now < Int64.maxValue)
    (hclose : r.revealCloseAt < Int64.maxValue) (hset : r.Settleable config) :
    HasExit L R r now := by
  -- the last moment of all is later than the clock and than both deadlines
  have hacc : ghos.Accepts L (mixSettleBy r.host R Int64.maxValue) :=
    (accepts_mixSettleBy_iff (wellAddressed_of_reachable hL)).2
      ⟨config, r, hconfig, hunpaused, hr, rfl, hset.symm.imp id fun hp => ⟨hp, hclose⟩⟩
  refine ⟨[mixSettleBy r.host R Int64.maxValue], List.pairwise_singleton .., ?_, ?_⟩
  · intro t ht
    obtain rfl := List.mem_singleton.1 ht
    exact ⟨trivial, fun s hs => .inl (List.mem_singleton.1 hs), hnow,
      Int64.lt_of_le_of_lt (commitCloseAt_le_revealCloseAt hL hr) hclose, hclose⟩
  · cases effect_of_accepts hacc with
    | mixSettle h v =>
      refine ⟨_, by rw [Machine.exec_cons, Machine.exec_nil, v.round, Store.set_self], ?_⟩
      exact MixRound.terminal_closed _ _ _

/-- A round that is not closed yet can still be brought to an end exactly if `mix_settle` closes it
and neither the clock nor its deadline stands at the largest value. -/
theorem hasExit_iff (run : List (Invocation Pubkey Digest)) {R : Pubkey} {r : MixRound Pubkey}
    {config : GhosConfig Pubkey} (now : Int64)
    (hr : (ghos.exec ghos.init run).round? R = some r) (hopen : ¬ r.phase.Terminal)
    (hconfig : (ghos.exec ghos.init run).config? configPda = some config)
    (hunpaused : config.paused = false) :
    HasExit (ghos.exec ghos.init run) R r now ↔
      (now < Int64.maxValue ∧ r.revealCloseAt < Int64.maxValue) ∧ r.Settleable config := by
  have hL : ghos.Reachable (ghos.exec ghos.init run) := ⟨run, rfl⟩
  constructor
  · intro h
    refine ⟨h.lt_maxValue hr hopen, ?_⟩
    by_contra hstuck
    exact not_hasExit hL hr hopen hconfig hstuck h
  · rintro ⟨⟨hnow, hclose⟩, hset⟩
    exact hasExit_of_settleable hL hr hconfig hunpaused hnow hclose hset

theorem hasExit_iff_sampleRun :
    ∃ r config, (ghos.exec ghos.init sampleRun).round? Sample.round = some r ∧
      (HasExit (ghos.exec ghos.init sampleRun) Sample.round r 2 ↔
        ((2 : Int64) < Int64.maxValue ∧ r.revealCloseAt < Int64.maxValue) ∧
          r.Settleable config) := by
  obtain ⟨r, hr, hphase⟩ : ∃ r ∈ (ghos.exec ghos.init sampleRun).round? Sample.round,
      r.phase = .settling := by decide +kernel
  obtain ⟨config, hconfig, hpaused⟩ : ∃ config ∈ (ghos.exec ghos.init sampleRun).config? configPda,
      config.paused = false := by decide +kernel
  have hopen : ¬ r.phase.Terminal := by rw [hphase]; simp [MixPhase.Terminal]
  exact ⟨r, config, hr, hasExit_iff sampleRun 2 hr hopen hconfig hpaused⟩

namespace Sample

/-- Two of four participants have committed. -/
def underfilled : List (Invocation Sym (List UInt8)) := opening ++ commits 2

/-- One of four reveals is missing. -/
def unrevealed : List (Invocation Sym (List UInt8)) := opening ++ commits 4 ++ reveals 3

end Sample

/-- Nobody can end an under-filled round once its deadlines have passed. -/
theorem underfilled_round_has_no_exit :
    ∃ r config, (ghos.exec ghos.init Sample.underfilled).round? Sample.round = some r ∧
      (r.phase = .commit ∧ r.committed < r.capacity) ∧
      (ghos.exec ghos.init Sample.underfilled).config? configPda = some config ∧
      config.paused = false ∧
      ¬ HasExit (ghos.exec ghos.init Sample.underfilled) Sample.round r 1 := by
  obtain ⟨r, hr, hphase, hlt⟩ : ∃ r ∈ (ghos.exec ghos.init Sample.underfilled).round? Sample.round,
      r.phase = .commit ∧ r.committed < r.capacity := by decide +kernel
  obtain ⟨config, hconfig, hpaused⟩ : ∃ config ∈ (ghos.exec ghos.init Sample.underfilled).config?
      configPda, config.paused = false := by decide +kernel
  have hopen : ¬ r.phase.Terminal := by rw [hphase]; simp [MixPhase.Terminal]
  have hstuck : ¬ r.Settleable config := by rw [MixRound.Settleable, hphase]; simp
  exact ⟨r, config, hr, ⟨hphase, hlt⟩, hconfig, hpaused,
    not_hasExit ⟨_, rfl⟩ hr hopen hconfig hstuck⟩

/-! ### Only the host closes a round -/

/-- Without the host's signature, the round can still be settled or aborted. -/
def HasHostFreeExit (L : Ledger Pubkey Digest) (R : Pubkey) (r : MixRound Pubkey) : Prop :=
  ∃ post : List (Invocation Pubkey Digest), (∀ t ∈ post, r.host ∉ t.signers) ∧
    ∃ r', (ghos.exec L post).round? R = some r' ∧ r'.phase.Terminal

omit [DecidableEq Digest] in
/-- An instruction that the host did not sign does not close the round. -/
theorem Effect.open_of_host_not_mem {r' : MixRound Pubkey}
    (h : Effect L now signers instruction L') (hr : L.round? R = some r)
    (hopen : ¬ r.phase.Terminal) (hhost : r.host ∉ signers) (hr' : L'.round? R = some r') :
    ¬ r'.phase.Terminal ∧ r'.host = r.host := by
  rcases h.round_cases hr' with hsame | hw
  · obtain rfl := Option.some.inj (hr.symm.trans hsame)
    exact ⟨hopen, rfl⟩
  · cases hw with
    | mixInit hw => exact absurd hr (hw.round_ne r)
    | mixCommit hw =>
      obtain rfl := Option.some.inj (hr.symm.trans hw.roundAt)
      exact ⟨MixRound.not_terminal_joined _, rfl⟩
    | mixReveal hw =>
      obtain rfl := Option.some.inj (hr.symm.trans hw.roundAt)
      exact ⟨MixRound.not_terminal_opened _, rfl⟩
    | mixSettle hw =>
      obtain rfl := Option.some.inj (hr.symm.trans hw.roundAt)
      exact absurd (hw.host ▸ hw.signer) hhost

theorem not_hasHostFreeExit_of_round (hr : L.round? R = some r) (hopen : ¬ r.phase.Terminal) :
    ¬ HasHostFreeExit L R r := by
  rintro ⟨post, hpost, r', hr', hterm⟩
  have hinv : ∃ r', (ghos.exec L post).round? R = some r' ∧ ¬ r'.phase.Terminal ∧
      r'.host = r.host := by
    refine Machine.exec_invariant (P := fun M : Ledger Pubkey Digest => ∃ r', M.round? R = some r' ∧
      ¬ r'.phase.Terminal ∧ r'.host = r.host) ⟨r, hr, hopen, rfl⟩ ?_
    intro t ht M M' e ⟨r₁, hr₁, hopen₁, hhost₁⟩ hstep
    obtain ⟨r₂, hr₂⟩ := (step_effect hstep).exists_round ⟨r₁, hr₁⟩
    have hsign := hpost t ht
    rw [← hhost₁] at hsign
    obtain ⟨hopen₂, hhost₂⟩ := (step_effect hstep).open_of_host_not_mem hr₁ hopen₁ hsign hr₂
    exact ⟨r₂, hr₂, hopen₂, hhost₂.trans hhost₁⟩
  obtain ⟨r'', hr'', hopen'', -⟩ := hinv
  obtain rfl := Option.some.inj (hr'.symm.trans hr'')
  exact hopen'' hterm

/-- The host has a veto: whoever else acts, in whatever order and at whatever times, a round that
is not closed stays so. -/
theorem not_hasHostFreeExit (run : List (Invocation Pubkey Digest)) {R : Pubkey}
    {r : MixRound Pubkey} (hr : (ghos.exec ghos.init run).round? R = some r)
    (hphase : r.phase = .reveal ∨ r.phase = .settling) :
    ¬ HasHostFreeExit (ghos.exec ghos.init run) R r := by
  refine not_hasHostFreeExit_of_round hr ?_
  rcases hphase with hp | hp <;> rw [hp] <;> simp [MixPhase.Terminal]

theorem not_hasHostFreeExit_sampleRun :
    ∃ r, (ghos.exec ghos.init sampleRun).round? Sample.round = some r ∧
      ¬ HasHostFreeExit (ghos.exec ghos.init sampleRun) Sample.round r := by
  obtain ⟨r, hr, hphase⟩ : ∃ r ∈ (ghos.exec ghos.init sampleRun).round? Sample.round,
      r.phase = .settling := by decide +kernel
  exact ⟨r, hr, not_hasHostFreeExit sampleRun hr (.inr hphase)⟩

/-- The reveal deadline has passed with a reveal missing, and the others wait for the host. -/
theorem timed_out_round_waits_for_host :
    ∃ r config, (ghos.exec ghos.init Sample.unrevealed).round? Sample.round = some r ∧
      (r.phase = .reveal ∧ r.revealCloseAt < 2000) ∧
      (ghos.exec ghos.init Sample.unrevealed).config? configPda = some config ∧
      config.paused = false ∧
      ¬ HasHostFreeExit (ghos.exec ghos.init Sample.unrevealed) Sample.round r := by
  obtain ⟨r, hr, hphase, hlt⟩ : ∃ r ∈ (ghos.exec ghos.init Sample.unrevealed).round? Sample.round,
      r.phase = .reveal ∧ r.revealCloseAt < 2000 := by decide +kernel
  obtain ⟨config, hconfig, hpaused⟩ : ∃ config ∈ (ghos.exec ghos.init Sample.unrevealed).config?
      configPda, config.paused = false := by decide +kernel
  have hopen : ¬ r.phase.Terminal := by rw [hphase]; simp [MixPhase.Terminal]
  exact ⟨r, config, hr, ⟨hphase, hlt⟩, hconfig, hpaused, not_hasHostFreeExit_of_round hr hopen⟩

end Ghos
