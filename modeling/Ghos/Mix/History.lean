import Ghos.Mix.Refinement

/-!
# Where the accounts of a ledger come from

`CommitsAt`, `RevealsAt`, `SettlesAt` name the accepted instructions of a run by what they do, and
`spec` says what the ledger was before and is after.  Conversely every account was written by such
an instruction: a round by its `mix_init` (`exists_opening`), a commitment by its `mix_commit`
(`exists_commit`), a revealed flag by its `mix_reveal` (`exists_reveal`), a closed round by its
`mix_settle` (`exists_settle`).
-/

namespace Ghos

variable {Pubkey Digest : Type} [DecidableEq Pubkey] [DecidableEq Digest] [AddressSpace Pubkey]
  [Sha256 Digest] {run : List (Invocation Pubkey Digest)} {R p k : Pubkey} {i n : ℕ} {now : Int64}
  {d : Digest} {preimage : List UInt8} {revealSignal : Vector UInt8 32}
  {r : MixRound Pubkey} {c : MixCommitment Pubkey Digest}

/-- No instruction changes a round that is settled or aborted. -/
def MixPhase.Terminal (phase : MixPhase) : Prop := phase = .settled ∨ phase = .aborted

omit [DecidableEq Pubkey] [DecidableEq Digest] [AddressSpace Pubkey] [Sha256 Digest] in
theorem MixRound.terminal_closed (r : MixRound Pubkey) (config : GhosConfig Pubkey) (now : Int64) :
    (r.closed config now).phase.Terminal := by
  unfold MixPhase.Terminal MixRound.closed
  split_ifs <;> simp

omit [DecidableEq Pubkey] [DecidableEq Digest] [AddressSpace Pubkey] [Sha256 Digest] in
theorem MixRound.not_terminal_joined (r : MixRound Pubkey) : ¬ r.joined.phase.Terminal := by
  unfold MixPhase.Terminal MixRound.joined
  split_ifs <;> simp

omit [DecidableEq Pubkey] [DecidableEq Digest] [AddressSpace Pubkey] [Sha256 Digest] in
theorem MixRound.not_terminal_opened (r : MixRound Pubkey) : ¬ r.opened.phase.Terminal := by
  unfold MixPhase.Terminal MixRound.opened
  split_ifs <;> simp

/-- Commit, reveal, settling, closed. -/
def MixPhase.rank : MixPhase → ℕ
  | .open => 0
  | .commit => 1
  | .reveal => 2
  | .settling => 3
  | .settled => 4
  | .aborted => 4

theorem MixPhase.rank_ofStage (s : CommitReveal.Stage) : (ofStage s).rank = s.rank + 1 := by
  cases s <;> rfl

/-- The `i`-th invocation is an accepted commit of `d` by `p` in the round `R`. -/
def CommitsAt (run : List (Invocation Pubkey Digest)) (R p : Pubkey) (d : Digest) (i : ℕ)
    (now : Int64) : Prop :=
  ∃ signers accounts, ghos.AcceptedAt run i ⟨now, signers, .mixCommit accounts d⟩ ∧
    accounts.round = R ∧ accounts.participant = p

/-- The `i`-th invocation is an accepted reveal by `p` in the round `R`. -/
def RevealsAt (run : List (Invocation Pubkey Digest)) (R p : Pubkey) (preimage : List UInt8)
    (revealSignal : Vector UInt8 32) (i : ℕ) (now : Int64) : Prop :=
  ∃ signers accounts,
    ghos.AcceptedAt run i ⟨now, signers, .mixReveal accounts preimage revealSignal⟩ ∧
    accounts.round = R ∧ accounts.participant = p

/-- The `i`-th invocation is an accepted settle of the round `R`. -/
def SettlesAt (run : List (Invocation Pubkey Digest)) (R : Pubkey) (i : ℕ) (now : Int64) : Prop :=
  ∃ signers accounts, ghos.AcceptedAt run i ⟨now, signers, .mixSettle accounts⟩ ∧
    accounts.round = R

/-- The instruction reveals the commitment of `p` in the round `R`. -/
def Instruction.IsRevealOf (R p : Pubkey) : Instruction Pubkey Digest → Prop
  | .mixReveal accounts _ _ => accounts.round = R ∧ accounts.participant = p
  | _ => False

/-- The effect of an accepted position. -/
theorem effect_of_acceptedAt {t : Invocation Pubkey Digest} (h : ghos.AcceptedAt run i t) :
    Effect (ghos.stateAt run i) t.now t.signers t.instruction (ghos.stateAt run (i + 1)) := by
  obtain ⟨e, he⟩ := h.exists_step
  exact step_effect he

theorem wellAddressed_stateAt (run : List (Invocation Pubkey Digest)) (i : ℕ) :
    WellAddressed (ghos.stateAt run i) :=
  wellAddressed_of_reachable (Machine.reachable_stateAt run i)

/-! ### What an accepted instruction did -/

theorem CommitsAt.spec (h : CommitsAt run R p d i now) :
    ∃ r, (ghos.stateAt run i).round? R = some r ∧ r.phase = .commit ∧ now < r.commitCloseAt ∧
      (ghos.stateAt run i).commitment? (mixCommitmentPda R p) = none ∧
      (ghos.stateAt run (i + 1)).round? R = some r.joined ∧
      ∃ c, (ghos.stateAt run (i + 1)).commitment? (mixCommitmentPda R p) = some c := by
  obtain ⟨signers, accounts, hacc, rfl, rfl⟩ := h
  cases effect_of_acceptedAt hacc with
  | mixCommit ha v =>
    refine ⟨_, ha.roundAt, ha.phase, ha.inWindow, ?_, by rw [v.round, Store.set_self], ?_⟩
    · rw [← ha.address]
      exact Store.view_of_none ha.fresh
    · rw [v.commitment, ← ha.address]
      exact ⟨_, Store.set_self ..⟩

theorem RevealsAt.spec (h : RevealsAt run R p preimage revealSignal i now) :
    ∃ r c, (ghos.stateAt run i).round? R = some r ∧ r.phase = .reveal ∧ now ≤ r.revealCloseAt ∧
      (ghos.stateAt run i).commitment? (mixCommitmentPda R p) = some c ∧ c.revealed = false ∧
      c.commitment = hashv [preimage, revealSignal.toList] ∧
      (ghos.stateAt run (i + 1)).round? R = some r.opened ∧
      (ghos.stateAt run (i + 1)).commitment? (mixCommitmentPda R p) =
        some (c.opened now revealSignal) := by
  obtain ⟨signers, accounts, hacc, rfl, rfl⟩ := h
  cases effect_of_acceptedAt hacc with
  | mixReveal ha v =>
    have hpda := (ha.owner (wellAddressed_stateAt run i)).2
    refine ⟨_, _, ha.roundAt, ha.phase, ha.inWindow, ?_, ha.unrevealed, ha.digest.symm,
      by rw [v.round, Store.set_self], by rw [v.commitment, ← hpda, Store.set_self]⟩
    rw [← hpda]
    exact ha.commitmentAt

theorem SettlesAt.spec (h : SettlesAt run R i now) :
    ∃ config r, IsConfigAt (ghos.stateAt run i) configPda config ∧
      (ghos.stateAt run i).round? R = some r ∧
      (r.phase = .settling ∧ config.mixMinParticipants ≤ r.revealed ∨
        r.phase = .reveal ∧ r.revealCloseAt < now) ∧
      (ghos.stateAt run (i + 1)).round? R = some (r.closed config now) := by
  obtain ⟨signers, accounts, hacc, rfl⟩ := h
  have hL := wellAddressed_stateAt run i
  cases effect_of_acceptedAt hacc with
  | mixSettle ha v =>
    refine ⟨_, _, ?_, ha.roundAt, ha.phase, by rw [v.round, Store.set_self]⟩
    rw [← hL.config_eq ha.configAt.stored]
    exact ha.configAt

/-! ### Where an account comes from -/

/-- Every round was opened by a `mix_init`, which fixed its terms. -/
theorem exists_opening (hr : (ghos.stateAt run n).round? R = some r) :
    ∃ i < n, ∃ now signers accounts roundId denomination capacity window config,
      ghos.AcceptedAt run i
        ⟨now, signers, .mixInit accounts roundId denomination capacity window⟩ ∧
      accounts.Admits (ghos.stateAt run i) signers roundId denomination capacity window config ∧
      accounts.round = R ∧
      (accounts.newRound config now roundId denomination capacity window).SameTerms r := by
  obtain ⟨i, t, hi, hacc, hbefore, r₀, hafter⟩ := Machine.exists_turning_point
    (P := fun L : Ledger Pubkey Digest => ∃ r, L.round? R = some r) (by rintro ⟨r, h⟩; cases h)
    ⟨r, hr⟩
  have hnone : (ghos.stateAt run i).round? R = none := by
    cases h : (ghos.stateAt run i).round? R with
    | none => rfl
    | some r => exact absurd ⟨r, h⟩ hbefore
  obtain ⟨accounts, roundId, denomination, capacity, window, config, hinstr, ha, hround, rfl⟩ :=
    (effect_of_acceptedAt hacc).opened_by hnone hafter
  obtain ⟨now, signers, instruction⟩ := t
  subst hinstr
  refine ⟨i, hi, now, signers, accounts, roundId, denomination, capacity, window, config, hacc, ha,
    hround, ?_⟩
  obtain ⟨a, hrep⟩ := exists_represents (Machine.reachable_stateAt run (i + 1)) hafter
  obtain ⟨r', a', hrep', hterms, -⟩ := later_stateAt run R (Nat.succ_le_of_lt hi) _ a hrep
  obtain rfl := Option.some.inj (hrep'.stored.symm.trans hr)
  exact hterms

/-- Every commitment was made by a `mix_commit` of its participant. -/
theorem exists_commit (hc : (ghos.stateAt run n).commitment? k = some c) :
    ∃ i < n, ∃ now, CommitsAt run c.round c.participant c.commitment i now := by
  obtain ⟨i, t, hi, hacc, hbefore, c', hafter, hR, hp, hd⟩ := Machine.exists_turning_point
    (P := fun L : Ledger Pubkey Digest => ∃ c', L.commitment? k = some c' ∧ c'.round = c.round ∧
      c'.participant = c.participant ∧ c'.commitment = c.commitment)
    (by rintro ⟨c', h, -⟩; cases h) ⟨c, hc, rfl, rfl, rfl⟩
  obtain ⟨now, signers, instruction⟩ := t
  refine ⟨i, hi, now, ?_⟩
  rcases (effect_of_acceptedAt hacc).commitment_cases hafter with hafter | hw
  · exact absurd ⟨c', hafter, hR, hp, hd⟩ hbefore
  · cases hw with
    | mixCommit h => exact ⟨signers, _, hd ▸ hacc, hR, hp⟩
    -- a reveal keeps the owner and the digest, so the account was there before
    | mixReveal h => exact absurd ⟨_, h.commitmentAt, hR, hp, hd⟩ hbefore

/-- Every revealed commitment was opened by a `mix_reveal` of its participant. -/
theorem exists_reveal (hc : (ghos.stateAt run n).commitment? k = some c)
    (hrev : c.revealed = true) :
    ∃ i < n, ∃ now preimage, RevealsAt run c.round c.participant preimage c.revealSignal i now ∧
      hashv [preimage, c.revealSignal.toList] = c.commitment := by
  obtain ⟨i, t, hi, hacc, hbefore, hafter⟩ := Machine.exists_turning_point
    (P := fun L : Ledger Pubkey Digest => L.commitment? k = some c) (fun h => by cases h) hc
  obtain ⟨now, signers, instruction⟩ := t
  refine ⟨i, hi, now, ?_⟩
  rcases (effect_of_acceptedAt hacc).commitment_cases hafter with hafter | hw
  · exact absurd hafter hbefore
  · cases hw with
    | mixCommit h => cases hrev
    | mixReveal h =>
      exact ⟨_, ⟨signers, _, hacc, (h.owner (wellAddressed_stateAt run i)).1.symm,
        h.participant.symm⟩, h.digest⟩

/-- Every closed round was closed by a `mix_settle`, under the config of that moment. -/
theorem exists_settle (hr : (ghos.stateAt run n).round? R = some r) (hterm : r.phase.Terminal) :
    ∃ i < n, ∃ now signers accounts config r₀,
      ghos.AcceptedAt run i ⟨now, signers, .mixSettle accounts⟩ ∧ accounts.round = R ∧
      accounts.Admits (ghos.stateAt run i) now signers config r₀ ∧ r = r₀.closed config now := by
  obtain ⟨i, t, hi, hacc, hbefore, hafter⟩ := Machine.exists_turning_point
    (P := fun L : Ledger Pubkey Digest => L.round? R = some r) (fun h => by cases h) hr
  obtain ⟨now, signers, instruction⟩ := t
  rcases (effect_of_acceptedAt hacc).round_cases hafter with hafter | hw
  · exact absurd hafter hbefore
  · cases hw with
    | mixInit h => rcases hterm with h | h <;> cases h
    | mixCommit h => exact absurd hterm (MixRound.not_terminal_joined _)
    | mixReveal h => exact absurd hterm (MixRound.not_terminal_opened _)
    | mixSettle h => exact ⟨i, hi, now, signers, _, _, _, hacc, rfl, h, rfl⟩

/-! ### What survives -/

section Step

variable {L L' : Ledger Pubkey Digest} {signers : List Pubkey}
  {instruction : Instruction Pubkey Digest}

/-- What a commitment keeps: everything but the flag, the signal and the time of the reveal, and
these too once it is revealed. -/
structure MixCommitment.Extends (c c' : MixCommitment Pubkey Digest) : Prop where
  round : c'.round = c.round
  participant : c'.participant = c.participant
  commitment : c'.commitment = c.commitment
  index : c'.index = c.index
  committedAt : c'.committedAt = c.committedAt
  eq_of_revealed : c.revealed = true → c' = c

namespace MixCommitment.Extends

omit [DecidableEq Pubkey] [DecidableEq Digest] [AddressSpace Pubkey] [Sha256 Digest]

theorem refl (c : MixCommitment Pubkey Digest) : c.Extends c :=
  ⟨rfl, rfl, rfl, rfl, rfl, fun _ => rfl⟩

theorem trans {c c' c'' : MixCommitment Pubkey Digest} (h : c.Extends c') (h' : c'.Extends c'') :
    c.Extends c'' := by
  refine ⟨h'.round.trans h.round, h'.participant.trans h.participant,
    h'.commitment.trans h.commitment, h'.index.trans h.index,
    h'.committedAt.trans h.committedAt, fun hrev => ?_⟩
  obtain rfl := h.eq_of_revealed hrev
  exact h'.eq_of_revealed hrev

end MixCommitment.Extends

omit [DecidableEq Digest] in
/-- Only its own reveal changes a commitment. -/
theorem Effect.commitment_kept (hL : WellAddressed L) (h : Effect L now signers instruction L')
    (hc : L.commitment? k = some c) :
    L'.commitment? k = some c ∨
      instruction.IsRevealOf c.round c.participant ∧ c.revealed = false ∧
        ∃ revealSignal, L'.commitment? k = some (c.opened now revealSignal) := by
  cases h with
  | ghosInitialize h v => exact .inl (by rw [v.commitment, hc])
  | configUpdate h v => exact .inl (by rw [v.commitment, hc])
  | mixInit h v => exact .inl (by rw [v.commitment, hc])
  | mixCommit h v =>
    refine .inl ?_
    rw [v.commitment, Store.set_of_ne, hc]
    rintro rfl
    exact h.commitment_ne c hc
  | @mixReveal accounts _ _ _ _ _ _ h v =>
    rw [v.commitment]
    by_cases hk : k = accounts.commitment
    · subst hk
      obtain rfl := Option.some.inj (hc.symm.trans h.commitmentAt)
      exact .inr ⟨⟨(h.owner hL).1.symm, h.participant.symm⟩, h.unrevealed, _, Store.set_self ..⟩
    · rw [Store.set_of_ne _ _ hk]
      exact .inl hc
  | mixSettle h v => exact .inl (by rw [v.commitment, hc])

omit [DecidableEq Digest] in
/-- No instruction is accepted on a closed round. -/
theorem Effect.agreeOn_of_terminal (hL : WellAddressed L) (h : Effect L now signers instruction L')
    (hr : L.round? R = some r) (hterm : r.phase.Terminal) : AgreeOn R L' L := by
  refine h.agreeOn hL fun hR => ?_
  have hphase : ∀ {r' : MixRound Pubkey} {phase : MixPhase}, L.round? R = some r' →
      r'.phase = phase → phase.Terminal := by
    intro r' phase hr' hp
    obtain rfl := Option.some.inj (hr.symm.trans hr')
    exact hp ▸ hterm
  cases h with
  | ghosInitialize h v => cases hR
  | configUpdate h v => cases hR
  | mixInit h v =>
    obtain rfl := Option.some.inj hR
    exact absurd hr (h.round_ne r)
  | mixCommit h v =>
    obtain rfl := Option.some.inj hR
    rcases hphase h.roundAt h.phase with h | h <;> cases h
  | mixReveal h v =>
    obtain rfl := Option.some.inj hR
    rcases hphase h.roundAt h.phase with h | h <;> cases h
  | mixSettle h v =>
    obtain rfl := Option.some.inj hR
    rcases h.phase with ⟨hp, -⟩ | ⟨hp, -⟩ <;>
      rcases hphase h.roundAt hp with h | h <;> cases h

end Step

theorem commitment_stateAt {j : ℕ} (hij : i ≤ j)
    (hc : (ghos.stateAt run i).commitment? k = some c) :
    ∃ c', (ghos.stateAt run j).commitment? k = some c' ∧ c.Extends c' := by
  refine Machine.stateAt_rel
    (R := fun L L' : Ledger Pubkey Digest => ∀ c, L.commitment? k = some c →
    ∃ c', L'.commitment? k = some c' ∧ c.Extends c') (fun L c hc => ⟨c, hc, .refl c⟩) ?_ ?_ run hij
    c hc
  · intro L L' L'' h h' c hc
    obtain ⟨c', hc', he⟩ := h c hc
    obtain ⟨c'', hc'', he'⟩ := h' c' hc'
    exact ⟨c'', hc'', he.trans he'⟩
  · intro L t L' e hreach hstep c hc
    have hL := wellAddressed_of_reachable hreach
    rcases (step_effect hstep).commitment_kept hL hc with h | ⟨-, hno, _, h⟩
    · exact ⟨c, h, .refl c⟩
    · exact ⟨_, h, rfl, rfl, rfl, rfl, rfl, fun hrev => absurd hrev (by rw [hno]; simp)⟩

theorem round_stateAt {j : ℕ} (hij : i ≤ j) (hr : (ghos.stateAt run i).round? R = some r) :
    ∃ r', (ghos.stateAt run j).round? R = some r' ∧ r.SameTerms r' ∧
      r.phase.rank ≤ r'.phase.rank := by
  obtain ⟨a, ha⟩ := exists_represents (Machine.reachable_stateAt run i) hr
  obtain ⟨r', a', ha', hterms, hreach⟩ := later_stateAt run R hij r a ha
  refine ⟨r', ha'.stored, hterms, ?_⟩
  rw [ha.phase, ha'.phase, MixPhase.rank_ofStage, MixPhase.rank_ofStage]
  exact Nat.succ_le_succ hreach.extends.rank

/-- The counters of a round never go down. -/
theorem counters_stateAt {r' : MixRound Pubkey} {j : ℕ} (hij : i ≤ j)
    (hr : (ghos.stateAt run i).round? R = some r) (hr' : (ghos.stateAt run j).round? R = some r') :
    r.committed ≤ r'.committed ∧ r.revealed ≤ r'.revealed := by
  obtain ⟨a, ha⟩ := exists_represents (Machine.reachable_stateAt run i) hr
  obtain ⟨r'', a', ha', -, hreach⟩ := later_stateAt run R hij r a ha
  obtain rfl := Option.some.inj (hr'.symm.trans ha'.stored)
  rw [UInt8.le_iff_toNat_le, UInt8.le_iff_toNat_le, ha.committed, ha'.committed, ha.revealed,
    ha'.revealed]
  exact ⟨hreach.extends.commits.length_le, Finset.card_le_card hreach.extends.opened⟩

/-- A closed round and its commitments stay as they are. -/
theorem agreeOn_stateAt_of_terminal {j : ℕ} (hij : i ≤ j)
    (hr : (ghos.stateAt run i).round? R = some r) (hterm : r.phase.Terminal) :
    AgreeOn R (ghos.stateAt run j) (ghos.stateAt run i) := by
  refine Machine.stateAt_rel (R := fun L L' : Ledger Pubkey Digest =>
    (∃ r, L.round? R = some r ∧ r.phase.Terminal) → AgreeOn R L' L) (fun L _ => .refl R L) ?_ ?_ run
    hij ⟨r, hr, hterm⟩
  · intro L L' L'' h h' ht
    have hag := h ht
    exact (h' (by rwa [hag.round])).trans hag
  · intro L t L' e hreach hstep ⟨r, hr, hterm⟩
    exact (step_effect hstep).agreeOn_of_terminal (wellAddressed_of_reachable hreach) hr hterm

end Ghos
