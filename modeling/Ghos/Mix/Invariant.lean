import Ghos.Mix.History
import Ghos.Mix.Requests
import Mathlib.Data.Set.Card

/-!
# The invariant of a mix round

`RoundInvariant L R r` relates the counters of the round `r` at `R` to the commitment accounts of
that round, and its phase to its counters.  It is read off the abstract round that `r` represents;
what the abstract round does not know, the bounds that `mix_init` checks, comes from the opening of
the round and from the config in force then (`GhosConfig.Sound`).
-/

namespace Ghos

open CommitReveal

variable {Pubkey Digest : Type} [DecidableEq Pubkey] [AddressSpace Pubkey]
  {L L' : Ledger Pubkey Digest} {R : Pubkey} {r : MixRound Pubkey} {a : Round Pubkey Digest}

/-- The addresses of the commitments of a round. -/
def commitmentAddresses (L : Ledger Pubkey Digest) (R : Pubkey) : Set Pubkey :=
  {k | ∃ c, L.commitment? k = some c ∧ c.round = R}

/-- The addresses of its revealed commitments. -/
def revealedAddresses (L : Ledger Pubkey Digest) (R : Pubkey) : Set Pubkey :=
  {k | ∃ c, L.commitment? k = some c ∧ c.round = R ∧ c.revealed = true}

/-- The counters, the phase and the deadlines of a round, and its commitment accounts. -/
structure RoundInvariant (L : Ledger Pubkey Digest) (R : Pubkey) (r : MixRound Pubkey) : Prop where
  capacity : 4 ≤ r.capacity ∧ r.capacity ≤ 16
  counters : r.revealed ≤ r.committed ∧ r.committed ≤ r.capacity
  committed : (commitmentAddresses L R).encard = r.committed.toNat
  revealed : (revealedAddresses L R).encard = r.revealed.toNat
  index_inj : ∀ k c k' c', L.commitment? k = some c → c.round = R → L.commitment? k' = some c' →
    c'.round = R → c.index = c'.index → k = k'
  index_range : ∀ i : UInt8,
    (∃ k c, L.commitment? k = some c ∧ c.round = R ∧ c.index = i) ↔ i < r.committed
  phase_ne_open : r.phase ≠ .open
  of_commit : r.phase = .commit → r.revealed = 0 ∧ r.committed < r.capacity
  full : r.phase = .reveal ∨ r.phase = .settling ∨ r.phase = .settled ∨ r.phase = .aborted →
    r.committed = r.capacity
  of_reveal : r.phase = .reveal → r.revealed < r.committed
  of_settling : r.phase = .settling → r.revealed = r.committed
  of_aborted : r.phase = .aborted → r.revealed < r.committed
  settledAt : ¬ r.phase.Terminal → r.settledAt = 0
  openedAt : r.openedAt < r.commitCloseAt
  commitCloseAt : r.commitCloseAt ≤ r.revealCloseAt

/-! ### Counting accounts -/

namespace Represents

omit [DecidableEq Pubkey]

theorem encard_image_mixCommitmentPda (R : Pubkey) (s : Finset Pubkey) :
    (mixCommitmentPda R '' (s : Set Pubkey)).encard = s.card := by
  have hinj : Function.Injective (mixCommitmentPda R) := fun _ _ h => (mixCommitmentPda_inj.1 h).2
  rw [hinj.encard_image, Set.encard_coe_eq_coe_finsetCard]

theorem encard_commitmentAddresses [DecidableEq Pubkey] (h : Represents L R r a)
    (hL : WellAddressed L) :
    (commitmentAddresses L R).encard = r.committed.toNat := by
  have heq : commitmentAddresses L R = mixCommitmentPda R '' (a.participants.toFinset : Set _) := by
    ext k
    constructor
    · rintro ⟨c, hc, rfl⟩
      exact ⟨c.participant, by simpa using h.only k c hc rfl, (hL.commitment_eq hc).symm⟩
    · rintro ⟨p, hp, rfl⟩
      obtain ⟨c, hc, -⟩ := h.of_mem (List.mem_toFinset.1 hp)
      exact ⟨c, hc, (hL.commitment_at hc).1⟩
  rw [heq, encard_image_mixCommitmentPda, a.card_participants, h.committed]

theorem encard_revealedAddresses (h : Represents L R r a) (hL : WellAddressed L) :
    (revealedAddresses L R).encard = r.revealed.toNat := by
  have heq : revealedAddresses L R = mixCommitmentPda R '' (a.opened : Set _) := by
    ext k
    constructor
    · rintro ⟨c, hc, hR, hrev⟩
      refine ⟨c.participant, (h.revealed_iff hL hc hR).1 hrev, ?_⟩
      rw [hL.commitment_eq hc, hR]
    · rintro ⟨p, hp, rfl⟩
      obtain ⟨c, hc, hrev⟩ := h.of_mem (a.opened_subset p hp)
      exact ⟨c, hc, (hL.commitment_at hc).1, hrev.2 hp⟩
  rw [heq, encard_image_mixCommitmentPda, h.revealed]

/-- Every commitment of the round is the entry at its index. -/
theorem getElem?_index (h : Represents L R r a) (hL : WellAddressed L) {k : Pubkey}
    {c : MixCommitment Pubkey Digest} (hc : L.commitment? k = some c) (hR : c.round = R) :
    ∃ d, a.commits[c.index.toNat]? = some (c.participant, d) := by
  obtain ⟨⟨q, d⟩, hmem, hq⟩ := List.mem_map.1 (h.only k c hc hR)
  obtain rfl : q = c.participant := hq
  obtain ⟨i, hi⟩ := List.mem_iff_getElem?.1 hmem
  obtain ⟨c', hc', hidx, -⟩ := h.entry i _ d hi
  rw [hL.commitment_eq hc, hR, hc', Option.some.injEq] at hc
  subst hc
  exact ⟨d, by rw [hidx, hi]⟩

theorem index_inj (h : Represents L R r a) (hL : WellAddressed L) {k k' : Pubkey}
    {c c' : MixCommitment Pubkey Digest} (hc : L.commitment? k = some c) (hR : c.round = R)
    (hc' : L.commitment? k' = some c') (hR' : c'.round = R) (hidx : c.index = c'.index) :
    k = k' := by
  obtain ⟨d, hd⟩ := h.getElem?_index hL hc hR
  obtain ⟨d', hd'⟩ := h.getElem?_index hL hc' hR'
  rw [← hidx, hd, Option.some.injEq, Prod.mk.injEq] at hd'
  rw [hL.commitment_eq hc, hL.commitment_eq hc', hR, hR', hd'.1]

theorem index_range (h : Represents L R r a) (hL : WellAddressed L) (i : UInt8) :
    (∃ k c, L.commitment? k = some c ∧ c.round = R ∧ c.index = i) ↔ i < r.committed := by
  rw [UInt8.lt_iff_toNat_lt, h.committed]
  constructor
  · rintro ⟨k, c, hc, hR, rfl⟩
    obtain ⟨d, hd⟩ := h.getElem?_index hL hc hR
    exact (List.getElem?_eq_some_iff.1 hd).1
  · intro hi
    obtain ⟨c, hc, hidx, -⟩ := h.entry i.toNat _ _ (List.getElem?_eq_getElem hi)
    exact ⟨_, c, hc, (hL.commitment_at hc).1, UInt8.toNat_inj.1 hidx⟩

/-- The stage of a round whose phase is not `commit`. -/
theorem stage_ne_commit (h : Represents L R r a) (hp : r.phase ≠ .commit) : a.stage ≠ .commit :=
  fun hs => hp (by rw [h.phase, hs]; rfl)

end Represents

/-! ### What holds of every reachable ledger -/

section Reachable

variable [DecidableEq Digest] [Sha256 Digest]

/-- Every config in a reachable ledger is sound. -/
theorem sound_of_reachable (hL : ghos.Reachable L) {k : Pubkey} {config : GhosConfig Pubkey}
    (h : L.config? k = some config) : config.Sound := by
  have hinv : ∀ k config, L.config? k = some config → config.Sound := by
    refine hL.invariant (P := fun L => ∀ k config, L.config? k = some config → config.Sound)
      (fun k config h => by cases h) ?_
    intro L t L' e hinv hstep k config hc
    rcases (step_effect hstep).config_cases hc with hc | hw
    · exact hinv k config hc
    · generalize t.instruction = instruction at hw
      cases hw with
      | ghosInitialize hw => exact Initialize.newConfig_sound _ _ _
      | configUpdate hw =>
        exact (ConfigField.apply_sound (hinv _ _ hw.configAt.stored) hw.field).updatedAt _
  exact hinv k config h

/-- A round that is not closed has no settle time. -/
theorem settledAt_eq_zero (hL : ghos.Reachable L) (hr : L.round? R = some r)
    (hopen : ¬ r.phase.Terminal) : r.settledAt = 0 := by
  have hinv : ∀ R r, L.round? R = some r → ¬ r.phase.Terminal → r.settledAt = 0 := by
    refine hL.invariant
      (P := fun L => ∀ R r, L.round? R = some r → ¬ r.phase.Terminal → r.settledAt = 0)
      (fun R r h => by cases h) ?_
    intro L t L' e hinv hstep R r hr hopen
    rcases (step_effect hstep).round_cases hr with hr | hw
    · exact hinv R r hr hopen
    · generalize t.instruction = instruction at hw
      cases hw with
      | mixInit hw => rfl
      | mixCommit hw =>
        exact (hinv _ _ hw.roundAt (by rw [hw.phase]; simp [MixPhase.Terminal]) :)
      | mixReveal hw =>
        exact (hinv _ _ hw.roundAt (by rw [hw.phase]; simp [MixPhase.Terminal]) :)
      | mixSettle hw => exact absurd (MixRound.terminal_closed _ _ _) hopen
  exact hinv R r hr hopen

/-- The deadlines are in order. -/
theorem commitCloseAt_le_revealCloseAt (hL : ghos.Reachable L) (hr : L.round? R = some r) :
    r.commitCloseAt ≤ r.revealCloseAt := by
  obtain ⟨run, rfl⟩ := hL
  rw [← Machine.stateAt_length] at hr
  obtain ⟨i, -, now, signers, accounts, roundId, denomination, capacity, window, config, -, ha, -,
    hterms⟩ := exists_opening hr
  have hsound := sound_of_reachable (Machine.reachable_stateAt run i) ha.configAt.stored
  rw [hterms.commitCloseAt, hterms.revealCloseAt]
  show now.saturatingAdd window ≤ (now.saturatingAdd window).saturatingAdd config.mixRevealWindow
  exact Int64.le_saturatingAdd hsound.mixRevealWindow

/-- The invariant, in every run whose clocks stay below the largest value. -/
theorem mixRound_invariant (run : List (Invocation Pubkey Digest))
    (hclock : ∀ t ∈ run, t.now < Int64.maxValue) (R : Pubkey) (r : MixRound Pubkey)
    (hr : (ghos.exec ghos.init run).round? R = some r) :
    RoundInvariant (ghos.exec ghos.init run) R r := by
  have hreach : ghos.Reachable (ghos.exec ghos.init run) := ⟨run, rfl⟩
  have hL := wellAddressed_of_reachable hreach
  obtain ⟨a, h⟩ := exists_represents hreach hr
  have hstage : ∀ s, r.phase = .ofStage s → a.stage = s := fun s => h.stage_eq
  have hr' := hr
  rw [← Machine.stateAt_length] at hr'
  obtain ⟨i, -, now, signers, accounts, roundId, denomination, capacity, window, config, hacc, ha,
    -, hterms⟩ := exists_opening hr'
  have hnow := hclock _ (List.mem_of_getElem? hacc.1)
  constructor
  case capacity => rw [hterms.capacity]; exact ha.capacity
  case counters =>
    rw [UInt8.le_iff_toNat_le, UInt8.le_iff_toNat_le, h.revealed, h.committed, h.capacity]
    exact ⟨a.card_opened_le, a.length_le⟩
  case committed => exact h.encard_commitmentAddresses hL
  case revealed => exact h.encard_revealedAddresses hL
  case index_inj => exact fun k c k' c' => h.index_inj hL
  case index_range => exact h.index_range hL
  case phase_ne_open => rw [h.phase]; cases a.stage <;> simp [MixPhase.ofStage]
  case of_commit =>
    intro hp
    obtain ⟨hopened, hlt⟩ := a.of_commit (hstage _ hp)
    rw [← UInt8.toNat_inj, UInt8.lt_iff_toNat_lt, h.revealed, h.committed, h.capacity, hopened]
    exact ⟨rfl, hlt⟩
  case full =>
    intro hp
    have hne : r.phase ≠ .commit := by rcases hp with hp | hp | hp | hp <;> rw [hp] <;> simp
    rw [← UInt8.toNat_inj, h.committed, h.capacity]
    exact a.full (h.stage_ne_commit hne)
  case of_reveal =>
    intro hp
    rw [UInt8.lt_iff_toNat_lt, h.revealed, h.committed]
    exact a.missing (.inl (hstage _ hp))
  case of_settling =>
    intro hp
    rw [← UInt8.toNat_inj, h.revealed, h.committed]
    exact a.complete (hstage _ hp)
  case of_aborted =>
    intro hp
    rw [UInt8.lt_iff_toNat_lt, h.revealed, h.committed]
    exact a.missing (.inr (hstage _ hp))
  case settledAt => exact settledAt_eq_zero hreach hr
  case openedAt =>
    rw [hterms.openedAt, hterms.commitCloseAt]
    show now < now.saturatingAdd window
    exact Int64.lt_saturatingAdd hnow ha.window
  case commitCloseAt => exact commitCloseAt_le_revealCloseAt hreach hr

end Reachable

theorem mixRound_invariant_sampleRun :
    ∃ r, (ghos.exec ghos.init sampleRun).round? Sample.round = some r ∧
      RoundInvariant (ghos.exec ghos.init sampleRun) Sample.round r := by
  obtain ⟨r, hr, -⟩ : ∃ r ∈ (ghos.exec ghos.init sampleRun).round? Sample.round,
      r.phase = .settling := by decide +kernel
  exact ⟨r, hr, mixRound_invariant sampleRun (by decide +kernel) Sample.round r hr⟩

end Ghos
