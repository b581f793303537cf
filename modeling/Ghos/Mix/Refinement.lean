import Ghos.Lib.CommitReveal
import Ghos.Mix.Addressing

/-!
# Mix rounds are commit-reveal rounds

`Represents L R r a`: the round `r` stored at `R`, with all its commitments, is the abstract
commit-reveal round `a`.  The two counters of the account are the lengths of the two collections,
and the commitment of the `i`-th participant carries the index `i`.

* `Effect.simulates`: an accepted instruction leaves `a` alone or makes one of its transitions;
* `exists_represents`: every round of a reachable ledger represents an abstract round;
* `stateAt_simulates`: a run makes a run of abstract transitions, and the terms of a round that
  `mix_init` fixed are the same ever after.
-/

namespace Ghos

open CommitReveal

variable {Pubkey Digest : Type} [DecidableEq Pubkey] [AddressSpace Pubkey]
  {L L' : Ledger Pubkey Digest} {now : Int64} {signers : List Pubkey} {R : Pubkey}
  {r r' : MixRound Pubkey} {a : Round Pubkey Digest}

/-- The phase that shows a stage. -/
def MixPhase.ofStage : Stage → MixPhase
  | .commit => .commit
  | .reveal => .reveal
  | .settling => .settling
  | .settled => .settled
  | .aborted => .aborted

theorem MixPhase.ofStage_injective : Function.Injective MixPhase.ofStage := by
  intro s s' h
  cases s <;> cases s' <;> first | rfl | cases h

/-- What `mix_init` fixes for the life of a round. -/
structure MixRound.SameTerms (r r' : MixRound Pubkey) : Prop where
  mint : r'.mint = r.mint
  denomination : r'.denomination = r.denomination
  host : r'.host = r.host
  capacity : r'.capacity = r.capacity
  openedAt : r'.openedAt = r.openedAt
  commitCloseAt : r'.commitCloseAt = r.commitCloseAt
  revealCloseAt : r'.revealCloseAt = r.revealCloseAt

namespace MixRound.SameTerms

omit [DecidableEq Pubkey] [AddressSpace Pubkey]

theorem refl (r : MixRound Pubkey) : r.SameTerms r := ⟨rfl, rfl, rfl, rfl, rfl, rfl, rfl⟩

theorem trans {r'' : MixRound Pubkey} (h : r.SameTerms r') (h' : r'.SameTerms r'') :
    r.SameTerms r'' :=
  ⟨h'.mint.trans h.mint, h'.denomination.trans h.denomination, h'.host.trans h.host,
    h'.capacity.trans h.capacity, h'.openedAt.trans h.openedAt,
    h'.commitCloseAt.trans h.commitCloseAt, h'.revealCloseAt.trans h.revealCloseAt⟩

end MixRound.SameTerms

/-- The round `r` stored at `R` and its commitments are the abstract round `a`. -/
structure Represents (L : Ledger Pubkey Digest) (R : Pubkey) (r : MixRound Pubkey)
    (a : Round Pubkey Digest) : Prop where
  stored : L.round? R = some r
  capacity : r.capacity.toNat = a.capacity
  committed : r.committed.toNat = a.commits.length
  revealed : r.revealed.toNat = a.opened.card
  phase : r.phase = .ofStage a.stage
  entry : ∀ i p d, a.commits[i]? = some (p, d) →
    ∃ c, L.commitment? (mixCommitmentPda R p) = some c ∧ c.index.toNat = i ∧ c.commitment = d ∧
      (c.revealed = true ↔ p ∈ a.opened)
  only : ∀ k c, L.commitment? k = some c → c.round = R → c.participant ∈ a.participants

namespace Represents

omit [DecidableEq Pubkey]

theorem stage_eq (h : Represents L R r a) {s : Stage} (hp : r.phase = .ofStage s) :
    a.stage = s :=
  MixPhase.ofStage_injective (h.phase.symm.trans hp)

/-- The commitment of a participant. -/
theorem of_mem (h : Represents L R r a) {p : Pubkey} (hp : p ∈ a.participants) :
    ∃ c, L.commitment? (mixCommitmentPda R p) = some c ∧ (c.revealed = true ↔ p ∈ a.opened) := by
  obtain ⟨⟨q, d⟩, hmem, rfl⟩ := List.mem_map.1 hp
  obtain ⟨i, hi⟩ := List.mem_iff_getElem?.1 hmem
  obtain ⟨c, hc, -, -, hrev⟩ := h.entry i q d hi
  exact ⟨c, hc, hrev⟩

theorem not_mem_of_fresh (h : Represents L R r a) {p : Pubkey}
    (hf : L.commitment? (mixCommitmentPda R p) = none) : p ∉ a.participants := by
  intro hp
  obtain ⟨c, hc, -⟩ := h.of_mem hp
  rw [hf] at hc
  cases hc

/-- A commitment of the round is flagged exactly when its participant has opened. -/
theorem revealed_iff (h : Represents L R r a) (hL : WellAddressed L) {k : Pubkey}
    {c : MixCommitment Pubkey Digest} (hc : L.commitment? k = some c) (hR : c.round = R) :
    c.revealed = true ↔ c.participant ∈ a.opened := by
  obtain ⟨c', hc', hrev⟩ := h.of_mem (h.only k c hc hR)
  rw [hL.commitment_eq hc, hR, hc', Option.some.injEq] at hc
  rwa [hc] at hrev

/-- Instructions on other rounds do not matter. -/
theorem of_agreeOn (h : Represents L R r a) (hL : WellAddressed L) (hag : AgreeOn R L' L) :
    Represents L' R r a := by
  refine ⟨hag.round.trans h.stored, h.capacity, h.committed, h.revealed, h.phase, ?_, ?_⟩
  · intro i p d hi
    obtain ⟨c, hc, rest⟩ := h.entry i p d hi
    exact ⟨c, (hag.commitment _ c (hL.commitment_at hc).1).2 hc, rest⟩
  · intro k c hc hR
    exact h.only k c ((hag.commitment k c hR).1 hc) hR

end Represents

/-- Whatever `R` holds in `L`, it holds a later state of the same round in `L'`. -/
def Later (R : Pubkey) (L L' : Ledger Pubkey Digest) : Prop :=
  ∀ r a, Represents L R r a →
    ∃ r' a', Represents L' R r' a' ∧ r.SameTerms r' ∧ Round.Reaches a a'

theorem Later.trans {L'' : Ledger Pubkey Digest} (h : Later R L L') (h' : Later R L' L'') :
    Later R L L'' := by
  intro r a ha
  obtain ⟨r', a', ha', ht, hs⟩ := h r a ha
  obtain ⟨r'', a'', ha'', ht', hs'⟩ := h' r' a' ha'
  exact ⟨r'', a'', ha'', ht.trans ht', Relation.ReflTransGen.trans hs hs'⟩

/-! ### One step -/

/-- A round just opened is the empty round. -/
theorem MixInit.Admits.represents {accounts : MixInit Pubkey} {roundId denomination : UInt64}
    {capacity : UInt8} {window : Int64} {config : GhosConfig Pubkey} (hL : WellAddressed L)
    (h : accounts.Admits L signers roundId denomination capacity window config)
    (v : Views L' L.config? (Store.set L.round? accounts.round
      (accounts.newRound config now roundId denomination capacity window)) L.commitment?) :
    ∃ hpos, Represents L' accounts.round
      (accounts.newRound config now roundId denomination capacity window)
      (Round.start Pubkey Digest capacity.toNat hpos) := by
  have hcap : 4 ≤ capacity.toNat := h.capacity.1
  refine ⟨by omega, by rw [v.round, Store.set_self], rfl, rfl, rfl, rfl, ?_, ?_⟩
  · intro i p d hi
    cases hi
  · intro k c hc hR
    rw [v.commitment] at hc
    obtain ⟨r, hr⟩ := hL.parent k c hc
    rw [hR] at hr
    exact absurd hr (h.round_ne r)

theorem MixCommitAccounts.Admits.simulates {accounts : MixCommitAccounts Pubkey}
    {config : GhosConfig Pubkey} {commitmentBytes : Digest}
    (h : accounts.Admits L now signers config r) (hrep : Represents L accounts.round r a)
    (v : Views L' L.config? (Store.set L.round? accounts.round r.joined)
      (Store.set L.commitment? accounts.commitment (accounts.entry r now commitmentBytes))) :
    ∃ hs hp, Represents L' accounts.round r.joined
      (a.commit accounts.participant commitmentBytes hs hp) := by
  have hs : a.stage = .commit := hrep.stage_eq h.phase
  have hp : accounts.participant ∉ a.participants :=
    hrep.not_mem_of_fresh (by rw [← h.address]; exact Store.view_of_none h.fresh)
  have hcount := UInt8.toNat_saturatingAdd_one h.slot
  have hlen : (a.commits ++ [(accounts.participant, commitmentBytes)]).length =
      a.commits.length + 1 := by simp
  refine ⟨hs, hp, by rw [v.round, Store.set_self], hrep.capacity, ?_, hrep.revealed, ?_, ?_, ?_⟩
  · exact (hcount.trans (congrArg (· + 1) hrep.committed)).trans hlen.symm
  · have hiff : r.committed.saturatingAdd 1 = r.capacity ↔ a.commits.length + 1 = a.capacity := by
      rw [← UInt8.toNat_inj, hcount, hrep.committed, hrep.capacity]
    simp only [MixRound.joined, Round.commit, hiff]
    split_ifs <;> rfl
  · intro i p d hi
    rw [v.commitment]
    simp only [Round.commit] at hi ⊢
    rcases Nat.lt_or_ge i a.commits.length with hlt | hge
    -- an earlier participant: another account, which was not written
    · rw [List.getElem?_append_left hlt] at hi
      have hne : mixCommitmentPda accounts.round p ≠ accounts.commitment := by
        rw [h.address, Ne, mixCommitmentPda_inj]
        rintro ⟨-, rfl⟩
        exact hp (List.mem_map.2 ⟨_, List.mem_of_getElem? hi, rfl⟩)
      rw [Store.set_of_ne _ _ hne]
      exact hrep.entry i p d hi
    -- the participant who has just joined
    · rw [List.getElem?_append_right hge, List.getElem?_singleton] at hi
      obtain ⟨hidx, hpd⟩ :
          i = a.commits.length ∧ (accounts.participant, commitmentBytes) = (p, d) := by
        split_ifs at hi with hz
        · exact ⟨by omega, Option.some.inj hi⟩
      cases hpd
      refine ⟨_, by rw [h.address, Store.set_self], hrep.committed.trans hidx.symm, rfl, ?_⟩
      have hno : accounts.participant ∉ a.opened := fun hm => hp (a.opened_subset _ hm)
      exact iff_of_false Bool.false_ne_true hno
  · intro k c hc hR
    rw [v.commitment, Store.set_eq_some] at hc
    rw [Round.participants, Round.commit, List.map_append, List.mem_append]
    rcases hc with ⟨-, rfl⟩ | ⟨-, hc⟩
    · exact .inr (List.mem_singleton_self _)
    · exact .inl (hrep.only k c hc hR)

theorem MixSettleAccounts.Admits.simulates {accounts : MixSettleAccounts Pubkey}
    {config : GhosConfig Pubkey} (h : accounts.Admits L now signers config r)
    (hrep : Represents L accounts.round r a)
    (v : Views L' L.config? (Store.set L.round? accounts.round (r.closed config now))
      L.commitment?) :
    ∃ a', Represents L' accounts.round (r.closed config now) a' ∧ Round.Step a a' := by
  have hentry := hrep.entry
  have honly := hrep.only
  rw [← v.commitment] at hentry honly
  have hstage : a.stage = .reveal ∨ a.stage = .settling :=
    h.phase.elim (fun hp => .inr (hrep.stage_eq hp.1)) (fun hp => .inl (hrep.stage_eq hp.1))
  by_cases hq : config.mixMinParticipants ≤ r.revealed
  · exact ⟨a.settle hstage, ⟨by rw [v.round, Store.set_self], hrep.capacity, hrep.committed,
      hrep.revealed, by rw [MixRound.closed, if_pos hq]; rfl, hentry, honly⟩, .settle hstage⟩
  · have hs : a.stage = .reveal :=
      h.phase.elim (fun hp => absurd hp.2 hq) (fun hp => hrep.stage_eq hp.1)
    exact ⟨a.abort hs, ⟨by rw [v.round, Store.set_self], hrep.capacity, hrep.committed,
      hrep.revealed, by rw [MixRound.closed, if_neg hq]; rfl, hentry, honly⟩, .abort hs⟩

section Step

variable [Sha256 Digest]

theorem MixRevealAccounts.Admits.simulates {accounts : MixRevealAccounts Pubkey}
    {preimage : List UInt8} {revealSignal : Vector UInt8 32} {config : GhosConfig Pubkey}
    {commit : MixCommitment Pubkey Digest} (hL : WellAddressed L)
    (h : accounts.Admits L now signers preimage revealSignal config r commit)
    (hrep : Represents L accounts.round r a)
    (v : Views L' L.config? (Store.set L.round? accounts.round r.opened)
      (Store.set L.commitment? accounts.commitment (commit.opened now revealSignal))) :
    ∃ hs hp hn, Represents L' accounts.round r.opened (a.reveal accounts.participant hs hp hn) := by
  obtain ⟨hround, hpda⟩ := h.owner hL
  have hs : a.stage = .reveal := hrep.stage_eq h.phase
  have hp : accounts.participant ∈ a.participants := by
    rw [← h.participant]
    exact hrep.only _ _ h.commitmentAt hround
  have hn : accounts.participant ∉ a.opened := by
    rw [← h.participant, ← hrep.revealed_iff hL h.commitmentAt hround, h.unrevealed]
    exact Bool.false_ne_true
  have hlt : r.revealed < r.committed := by
    rw [UInt8.lt_iff_toNat_lt, hrep.revealed, hrep.committed]
    exact a.missing (.inl hs)
  have hcount := UInt8.toNat_saturatingAdd_one hlt
  refine ⟨hs, hp, hn, by rw [v.round, Store.set_self], hrep.capacity, hrep.committed, ?_, ?_, ?_,
    ?_⟩
  · rw [Round.reveal, Finset.card_insert_of_notMem hn]
    exact hcount.trans (congrArg (· + 1) hrep.revealed)
  · have hiff : r.revealed.saturatingAdd 1 = r.committed ↔
        a.opened.card + 1 = a.commits.length := by
      rw [← UInt8.toNat_inj, hcount, hrep.revealed, hrep.committed]
    simp only [MixRound.opened, Round.reveal, hiff]
    split_ifs <;> rfl
  · intro i p d hi
    obtain ⟨c, hc, hidx, hd, hrev⟩ := hrep.entry i p d hi
    rw [v.commitment, hpda]
    simp only [Round.reveal, Finset.mem_insert]
    by_cases hpp : p = accounts.participant
    -- the entry that is opened
    · subst hpp
      rw [← hpda, h.commitmentAt, Option.some.injEq] at hc
      subst hc
      exact ⟨_, Store.set_self .., hidx, hd, by simp [MixCommitment.opened]⟩
    · have hne : mixCommitmentPda accounts.round p ≠
          mixCommitmentPda accounts.round accounts.participant :=
        fun he => hpp (mixCommitmentPda_inj.1 he).2
      rw [Store.set_of_ne _ _ hne]
      exact ⟨c, hc, hidx, hd, by rw [hrev, or_iff_right hpp]⟩
  · intro k c hc hR
    rw [v.commitment, Store.set_eq_some] at hc
    rcases hc with ⟨-, rfl⟩ | ⟨-, hc⟩
    · exact (hrep.only _ _ h.commitmentAt hround :)
    · exact hrep.only k c hc hR

/-- An accepted instruction leaves a round alone or makes one of its transitions, and never
touches its terms. -/
theorem Effect.simulates {instruction : Instruction Pubkey Digest} (hL : WellAddressed L)
    (h : Effect L now signers instruction L') (hrep : Represents L R r a) :
    ∃ r' a', Represents L' R r' a' ∧ r.SameTerms r' ∧ (a' = a ∨ Round.Step a a') := by
  by_cases hR : instruction.namedRound = some R
  · cases h with
    | ghosInitialize h v => cases hR
    | configUpdate h v => cases hR
    | mixInit h v =>
      obtain rfl := Option.some.inj hR
      exact absurd hrep.stored (h.round_ne r)
    | mixCommit h v =>
      obtain rfl := Option.some.inj hR
      obtain rfl := Option.some.inj (hrep.stored.symm.trans h.roundAt)
      obtain ⟨hs, hp, hrep'⟩ := h.simulates hrep v
      exact ⟨_, _, hrep', ⟨rfl, rfl, rfl, rfl, rfl, rfl, rfl⟩, .inr (.commit hs hp)⟩
    | mixReveal h v =>
      obtain rfl := Option.some.inj hR
      obtain rfl := Option.some.inj (hrep.stored.symm.trans h.roundAt)
      obtain ⟨hs, hp, hn, hrep'⟩ := h.simulates hL hrep v
      exact ⟨_, _, hrep', ⟨rfl, rfl, rfl, rfl, rfl, rfl, rfl⟩, .inr (.reveal hs hp hn)⟩
    | mixSettle h v =>
      obtain rfl := Option.some.inj hR
      obtain rfl := Option.some.inj (hrep.stored.symm.trans h.roundAt)
      obtain ⟨a', hrep', hstep⟩ := h.simulates hrep v
      exact ⟨_, a', hrep', ⟨rfl, rfl, rfl, rfl, rfl, rfl, rfl⟩, .inr hstep⟩
  · exact ⟨r, a, hrep.of_agreeOn hL (h.agreeOn hL hR), .refl r, .inl rfl⟩

/-! ### Runs -/

theorem Effect.exists_represents {instruction : Instruction Pubkey Digest} (hL : WellAddressed L)
    (h : Effect L now signers instruction L')
    (hrep : ∀ R r, L.round? R = some r → ∃ a, Represents L R r a) :
    ∀ R r, L'.round? R = some r → ∃ a, Represents L' R r a := by
  intro R r' hr'
  cases hr : L.round? R with
  | some r =>
    obtain ⟨a, ha⟩ := hrep R r hr
    obtain ⟨r'', a', ha', -⟩ := h.simulates hL ha
    obtain rfl := Option.some.inj (ha'.stored.symm.trans hr')
    exact ⟨a', ha'⟩
  | none =>
    obtain ⟨accounts, roundId, denomination, capacity, window, config, rfl, -, rfl, -⟩ :=
      h.opened_by hr hr'
    cases h with
    | mixInit h v =>
      obtain ⟨hpos, ha⟩ := h.represents hL v
      obtain rfl := Option.some.inj (ha.stored.symm.trans hr')
      exact ⟨_, ha⟩

variable [DecidableEq Digest]

/-- Every round of a reachable ledger is a commit-reveal round. -/
theorem exists_represents (hL : ghos.Reachable L) (hr : L.round? R = some r) :
    ∃ a, Represents L R r a := by
  have hinv : WellAddressed L ∧ ∀ R r, L.round? R = some r → ∃ a, Represents L R r a := by
    refine hL.invariant (P := fun L => WellAddressed L ∧
      ∀ R r, L.round? R = some r → ∃ a, Represents L R r a) ⟨wellAddressed_init, ?_⟩ ?_
    · intro R r h
      cases h
    · intro L t L' e ⟨hL, hrep⟩ hstep
      exact ⟨(step_effect hstep).wellAddressed hL, (step_effect hstep).exists_represents hL hrep⟩
  exact hinv.2 R r hr

/-- Along a run a round makes abstract transitions and keeps its terms. -/
theorem later_stateAt (run : List (Invocation Pubkey Digest)) (R : Pubkey) {i j : ℕ}
    (hij : i ≤ j) : Later R (ghos.stateAt run i) (ghos.stateAt run j) := by
  refine Machine.stateAt_rel (fun L r a ha => ⟨r, a, ha, .refl r, .refl⟩)
    (fun _ _ _ => Later.trans) ?_ run hij
  intro L t L' e hreach hstep r a ha
  obtain ⟨r', a', ha', ht, hs⟩ :=
    (step_effect hstep).simulates (wellAddressed_of_reachable hreach) ha
  refine ⟨r', a', ha', ht, ?_⟩
  rcases hs with rfl | hs
  · exact .refl
  · exact .single hs

end Step

end Ghos
