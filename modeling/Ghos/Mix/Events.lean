import Ghos.Mix.Invariant

/-!
# The event log of a round

`Emits` says which event an accepted instruction emits.  `Logged L log R` relates the ledger to the
events so far: the `MixCommitted` and `MixRevealed` events of the round `R` are counted by its
counters, the former carry the indices `0, 1, 2, …`, every stored commitment has been announced, and
a `MixSettled` event has been emitted exactly if the round is closed, settled or aborted.

So the log agrees with the state up to one point: `mix_settle` emits `MixSettled` for an aborted
round too.
-/

namespace Ghos

variable {Pubkey Digest : Type} [DecidableEq Pubkey]

/-- The index that a `MixCommitted` event of the round `R` carries. -/
def Event.committedIn (R : Pubkey) : Event Pubkey Digest → Option UInt8
  | .mixCommitted round _ _ index => if round = R then some index else none
  | _ => none

/-- The participant and the index that a `MixRevealed` event of the round `R` carries. -/
def Event.revealedIn (R : Pubkey) : Event Pubkey Digest → Option (Pubkey × UInt8)
  | .mixRevealed round participant index => if round = R then some (participant, index) else none
  | _ => none

/-- The event is the `MixSettled` of the round `R`. -/
def Event.settledIn (R : Pubkey) : Event Pubkey Digest → Bool
  | .mixSettled round _ _ => round = R
  | _ => false

/-- The indices of the `MixCommitted` events of a round, in the order of the log. -/
def committedEvents (R : Pubkey) (log : List (Event Pubkey Digest)) : List UInt8 :=
  log.filterMap (Event.committedIn R)

/-- What the `MixRevealed` events of a round carry, in the order of the log. -/
def revealedEvents (R : Pubkey) (log : List (Event Pubkey Digest)) : List (Pubkey × UInt8) :=
  log.filterMap (Event.revealedIn R)

/-- A `MixSettled` event of the round has been emitted. -/
def SettledEvent (R : Pubkey) (log : List (Event Pubkey Digest)) : Prop :=
  ∃ e ∈ log, e.settledIn R

/-! ### What an instruction emits -/

section Emits

variable [AddressSpace Pubkey] {L L' : Ledger Pubkey Digest} {now : Int64}
  {instruction : Instruction Pubkey Digest} {e : Event Pubkey Digest} {R : Pubkey}

omit [DecidableEq Pubkey] [AddressSpace Pubkey] in
/-- The event of an accepted instruction. -/
def Emits (L : Ledger Pubkey Digest) (now : Int64) (e : Event Pubkey Digest) :
    Instruction Pubkey Digest → Prop
  | .ghosInitialize accounts => e = .configInitialized accounts.admin protocolVersion now
  | .configUpdate accounts field => e = .configUpdated accounts.admin field.tag now
  | .mixInit accounts _ denomination capacity _ =>
    e = .mixRoundOpened accounts.round accounts.mint denomination capacity now
  | .mixCommit accounts commitmentBytes => ∃ r, L.round? accounts.round = some r ∧
    e = .mixCommitted accounts.round accounts.participant commitmentBytes r.committed
  | .mixReveal accounts _ _ => ∃ c, L.commitment? accounts.commitment = some c ∧
    e = .mixRevealed accounts.round c.participant c.index
  | .mixSettle accounts => ∃ r, L.round? accounts.round = some r ∧
    e = .mixSettled accounts.round r.revealed now

theorem step_emits [DecidableEq Digest] [Sha256 Digest] {t : Invocation Pubkey Digest}
    (h : ghos.step L t = .ok (L', e)) : Emits L t.now e t.instruction := by
  obtain ⟨now, signers, instruction⟩ := t
  cases instruction with
  | ghosInitialize accounts => exact (ghosInitialize_eq_ok.1 h).2.2
  | configUpdate accounts field =>
    obtain ⟨config, config', -, -, he⟩ := configUpdate_eq_ok.1 h
    exact he
  | mixInit accounts roundId denomination capacity window =>
    obtain ⟨config, -, -, he⟩ := mixInit_eq_ok.1 h
    exact he
  | mixCommit accounts commitmentBytes =>
    obtain ⟨config, r, ha, -, he⟩ := mixCommit_eq_ok.1 h
    exact ⟨r, ha.roundAt, he⟩
  | mixReveal accounts preimage revealSignal =>
    obtain ⟨config, r, c, ha, -, he⟩ := mixReveal_eq_ok.1 h
    exact ⟨c, ha.commitmentAt, he⟩
  | mixSettle accounts =>
    obtain ⟨config, r, ha, -, he⟩ := mixSettle_eq_ok.1 h
    exact ⟨r, ha.roundAt, he⟩

omit [AddressSpace Pubkey] in
/-- An instruction that does not name the round emits nothing about it. -/
theorem Emits.silent (h : Emits L now e instruction) (hR : instruction.namedRound ≠ some R) :
    e.committedIn R = none ∧ e.revealedIn R = none ∧ e.settledIn R = false := by
  cases instruction with
  | ghosInitialize accounts => subst h; exact ⟨rfl, rfl, rfl⟩
  | configUpdate accounts field => subst h; exact ⟨rfl, rfl, rfl⟩
  | mixInit accounts roundId denomination capacity window => subst h; exact ⟨rfl, rfl, rfl⟩
  | mixCommit accounts commitmentBytes =>
    obtain ⟨r, -, rfl⟩ := h
    exact ⟨if_neg fun he => hR (congrArg some he), rfl, rfl⟩
  | mixReveal accounts preimage revealSignal =>
    obtain ⟨c, -, rfl⟩ := h
    exact ⟨rfl, if_neg fun he => hR (congrArg some he), rfl⟩
  | mixSettle accounts =>
    obtain ⟨r, -, rfl⟩ := h
    exact ⟨rfl, rfl, decide_eq_false fun he => hR (congrArg some he)⟩

end Emits

/-! ### The log and the ledger -/

/-- What the events of a round say, and what its accounts say. -/
structure Logged (L : Ledger Pubkey Digest) (log : List (Event Pubkey Digest)) (R : Pubkey) :
    Prop where
  committed : ∀ r, L.round? R = some r → (committedEvents R log).length = r.committed.toNat
  revealed : ∀ r, L.round? R = some r → (revealedEvents R log).length = r.revealed.toNat
  indices : (committedEvents R log).map UInt8.toNat = List.range (committedEvents R log).length
  announced : ∀ k c, L.commitment? k = some c → c.round = R →
    ∃ i : ℕ, log[i]? = some (.mixCommitted R c.participant c.commitment c.index)
  earlier : ∀ (j : ℕ) p index, log[j]? = some (.mixRevealed R p index) →
    ∃ i < j, ∃ d, log[i]? = some (.mixCommitted R p d index)
  settled : SettledEvent R log ↔ ∃ r, L.round? R = some r ∧ r.phase.Terminal
  unopened : L.round? R = none → committedEvents R log = [] ∧ revealedEvents R log = []

namespace Logged

variable {L L' : Ledger Pubkey Digest} {log : List (Event Pubkey Digest)} {R : Pubkey}
  {e : Event Pubkey Digest}

theorem nil (R : Pubkey) : Logged (fun _ => none : Ledger Pubkey Digest) [] R where
  committed r hr := by cases hr
  revealed r hr := by cases hr
  indices := rfl
  announced k c hc := by cases hc
  earlier j p index h := by simp at h
  settled := iff_of_false (by simp [SettledEvent]) (by rintro ⟨r, hr, -⟩; cases hr)
  unopened _ := ⟨rfl, rfl⟩

omit [DecidableEq Pubkey] in
theorem getElem?_concat {i : ℕ} {e' : Event Pubkey Digest} (h : log[i]? = some e') :
    (log ++ [e])[i]? = some e' := by
  rwa [List.getElem?_append_left (List.getElem?_eq_some_iff.1 h).1]

theorem committedEvents_concat :
    committedEvents R (log ++ [e]) = committedEvents R log ++ (e.committedIn R).toList := by
  rw [committedEvents, List.filterMap_append, List.filterMap_cons, List.filterMap_nil]
  cases e.committedIn R <;> rfl

theorem revealedEvents_concat :
    revealedEvents R (log ++ [e]) = revealedEvents R log ++ (e.revealedIn R).toList := by
  rw [revealedEvents, List.filterMap_append, List.filterMap_cons, List.filterMap_nil]
  cases e.revealedIn R <;> rfl

theorem committedEvents_concat_of_none (he : e.committedIn R = none) :
    committedEvents R (log ++ [e]) = committedEvents R log := by
  rw [committedEvents_concat, he, Option.toList_none, List.append_nil]

theorem revealedEvents_concat_of_none (he : e.revealedIn R = none) :
    revealedEvents R (log ++ [e]) = revealedEvents R log := by
  rw [revealedEvents_concat, he, Option.toList_none, List.append_nil]

theorem settledEvent_concat :
    SettledEvent R (log ++ [e]) ↔ SettledEvent R log ∨ e.settledIn R = true := by
  simp [SettledEvent, or_and_right, exists_or]

/-- What was announced stays in the log. -/
theorem announced_concat (h : Logged L log R) {k : Pubkey} {c : MixCommitment Pubkey Digest}
    (hk : L.commitment? k = some c) (hR : c.round = R) :
    ∃ i : ℕ, (log ++ [e])[i]? = some (.mixCommitted R c.participant c.commitment c.index) := by
  obtain ⟨i, hi⟩ := h.announced k c hk hR
  exact ⟨i, getElem?_concat hi⟩

/-- An event that is not the reveal of this round keeps the order. -/
theorem earlier_concat (h : Logged L log R) (he : e.revealedIn R = none) (j : ℕ) (p : Pubkey)
    (index : UInt8) (hj : (log ++ [e])[j]? = some (.mixRevealed R p index)) :
    ∃ i < j, ∃ d, (log ++ [e])[i]? = some (.mixCommitted R p d index) := by
  rcases Nat.lt_or_ge j log.length with hlt | hge
  · rw [List.getElem?_append_left hlt] at hj
    obtain ⟨i, hi, d, hd⟩ := h.earlier j p index hj
    exact ⟨i, hi, d, getElem?_concat hd⟩
  · rw [List.getElem?_append_right hge, List.getElem?_singleton] at hj
    split_ifs at hj
    obtain rfl := Option.some.inj hj
    simp [Event.revealedIn] at he

/-- An event about something else changes nothing, as long as the round is left alone. -/
theorem frame (h : Logged L log R) (hag : AgreeOn R L' L)
    (he : e.committedIn R = none ∧ e.revealedIn R = none ∧ e.settledIn R = false) :
    Logged L' (log ++ [e]) R where
  committed r hr := by
    rw [committedEvents_concat_of_none he.1]
    exact h.committed r (hag.round ▸ hr)
  revealed r hr := by
    rw [revealedEvents_concat_of_none he.2.1]
    exact h.revealed r (hag.round ▸ hr)
  indices := by
    rw [committedEvents_concat_of_none he.1]
    exact h.indices
  announced k c hc hR := h.announced_concat ((hag.commitment k c hR).1 hc) hR
  earlier := h.earlier_concat he.2.1
  settled := by
    rw [settledEvent_concat, h.settled, he.2.2, hag.round]
    simp
  unopened hr := by
    rw [committedEvents_concat_of_none he.1, revealedEvents_concat_of_none he.2.1]
    exact h.unopened (hag.round ▸ hr)

/-- What has to be shown where the round is known. -/
theorem of_round {r : MixRound Pubkey} (hround : L.round? R = some r)
    (hcommitted : (committedEvents R log).length = r.committed.toNat)
    (hrevealed : (revealedEvents R log).length = r.revealed.toNat)
    (hindices : (committedEvents R log).map UInt8.toNat =
      List.range (committedEvents R log).length)
    (hannounced : ∀ k c, L.commitment? k = some c → c.round = R →
      ∃ i : ℕ, log[i]? = some (.mixCommitted R c.participant c.commitment c.index))
    (hearlier : ∀ (j : ℕ) p index, log[j]? = some (.mixRevealed R p index) →
      ∃ i < j, ∃ d, log[i]? = some (.mixCommitted R p d index))
    (hsettled : SettledEvent R log ↔ r.phase.Terminal) : Logged L log R where
  committed r' hr' := by
    obtain rfl := Option.some.inj (hround.symm.trans hr')
    exact hcommitted
  revealed r' hr' := by
    obtain rfl := Option.some.inj (hround.symm.trans hr')
    exact hrevealed
  indices := hindices
  announced := hannounced
  earlier := hearlier
  settled := by
    rw [hsettled, hround]
    simp
  unopened hn := absurd (hround.symm.trans hn) (by simp)

/-- A round that is still open has not been settled. -/
theorem not_settledEvent (h : Logged L log R) {r : MixRound Pubkey} (hr : L.round? R = some r)
    (hphase : ¬ r.phase.Terminal) : ¬ SettledEvent R log := by
  rw [h.settled]
  rintro ⟨r', hr', hterminal⟩
  obtain rfl := Option.some.inj (hr.symm.trans hr')
  exact hphase hterminal

/-! ### One accepted step -/

section Step

variable [AddressSpace Pubkey] {now : Int64} {signers : List Pubkey} {r : MixRound Pubkey}

/-- `mix_init` emits nothing that is counted, and the round starts with empty counters. -/
theorem opened (h : Logged L log R) {accounts : MixInit Pubkey} {roundId denomination : UInt64}
    {capacity : UInt8} {window : Int64} {config : GhosConfig Pubkey}
    (ha : accounts.Admits L signers roundId denomination capacity window config)
    (v : Views L' L.config? (Store.set L.round? accounts.round
      (accounts.newRound config now roundId denomination capacity window)) L.commitment?)
    (hR : accounts.round = R) :
    Logged L' (log ++ [.mixRoundOpened R accounts.mint denomination capacity now]) R := by
  subst hR
  have hnone : L.round? accounts.round = none := Store.view_of_none ha.fresh
  obtain ⟨hc, hr⟩ := h.unopened hnone
  have hround : L'.round? accounts.round =
      some (accounts.newRound config now roundId denomination capacity window) := by
    rw [v.round, Store.set_self]
  refine of_round hround ?committed ?revealed ?indices (fun k c hk hR => ?announced)
    (h.earlier_concat rfl) ?settled
  case committed =>
    rw [committedEvents_concat_of_none rfl, hc]
    rfl
  case revealed =>
    rw [revealedEvents_concat_of_none rfl, hr]
    rfl
  case indices =>
    rw [committedEvents_concat_of_none rfl, hc]
    rfl
  case announced =>
    rw [v.commitment] at hk
    exact h.announced_concat hk hR
  case settled =>
    rw [settledEvent_concat, h.settled, hnone]
    simp [MixPhase.Terminal, MixInit.newRound, Event.settledIn]

/-- `mix_commit` announces the commitment with the next index. -/
theorem joined (h : Logged L log R) {accounts : MixCommitAccounts Pubkey} {commitmentBytes : Digest}
    {config : GhosConfig Pubkey} (ha : accounts.Admits L now signers config r)
    (v : Views L' L.config? (Store.set L.round? accounts.round r.joined)
      (Store.set L.commitment? accounts.commitment (accounts.entry r now commitmentBytes)))
    (hR : accounts.round = R) :
    Logged L' (log ++ [.mixCommitted R accounts.participant commitmentBytes r.committed]) R := by
  subst hR
  have hround : L'.round? accounts.round = some r.joined := by rw [v.round, Store.set_self]
  have hlen := h.committed r ha.roundAt
  have hevents : committedEvents accounts.round
      (log ++ [.mixCommitted accounts.round accounts.participant commitmentBytes r.committed]) =
      committedEvents accounts.round log ++ [r.committed] := by
    rw [committedEvents_concat, Event.committedIn, if_pos rfl, Option.toList_some]
  refine of_round hround ?committed ?revealed ?indices (fun k c hk hR => ?announced)
    (h.earlier_concat rfl) ?settled
  case committed =>
    rw [hevents, List.length_append, hlen, List.length_singleton]
    exact (UInt8.toNat_saturatingAdd_one ha.slot).symm
  case revealed =>
    rw [revealedEvents_concat_of_none rfl]
    exact (h.revealed r ha.roundAt :)
  case indices =>
    rw [hevents, List.map_append, h.indices, List.length_append, List.length_singleton,
      List.range_succ, hlen]
    rfl
  case announced =>
    rw [v.commitment, Store.set_eq_some] at hk
    rcases hk with ⟨-, rfl⟩ | ⟨-, hk⟩
    · exact ⟨log.length, by simp [MixCommitAccounts.entry]⟩
    · exact h.announced_concat hk hR
  case settled =>
    have hbefore := h.not_settledEvent ha.roundAt (by rw [ha.phase]; simp [MixPhase.Terminal])
    rw [settledEvent_concat]
    simp [hbefore, MixRound.not_terminal_joined r, Event.settledIn]

/-- `mix_reveal` repeats what was announced for the commitment it opens. -/
theorem revealedBy [Sha256 Digest] [DecidableEq Digest] (hreach : ghos.Reachable L)
    (h : Logged L log R) {accounts : MixRevealAccounts Pubkey} {preimage : List UInt8}
    {revealSignal : Vector UInt8 32} {config : GhosConfig Pubkey} {c : MixCommitment Pubkey Digest}
    (ha : accounts.Admits L now signers preimage revealSignal config r c)
    (v : Views L' L.config? (Store.set L.round? accounts.round r.opened)
      (Store.set L.commitment? accounts.commitment (c.opened now revealSignal)))
    (hR : accounts.round = R) :
    Logged L' (log ++ [.mixRevealed R c.participant c.index]) R := by
  subst hR
  have hround : L'.round? accounts.round = some r.opened := by rw [v.round, Store.set_self]
  have hown := (ha.owner (wellAddressed_of_reachable hreach)).1
  obtain ⟨i, hi⟩ := h.announced _ c ha.commitmentAt hown
  have hlt : r.revealed < r.committed := by
    obtain ⟨a, hrep⟩ := exists_represents hreach ha.roundAt
    rw [UInt8.lt_iff_toNat_lt, hrep.revealed, hrep.committed]
    exact a.missing (.inl (hrep.stage_eq ha.phase))
  refine of_round hround ?committed ?revealed ?indices (fun k c' hk hR => ?announced)
    (fun j p index hj => ?earlier) ?settled
  case committed =>
    rw [committedEvents_concat_of_none rfl]
    exact (h.committed r ha.roundAt :)
  case revealed =>
    rw [revealedEvents_concat, Event.revealedIn, if_pos rfl, Option.toList_some,
      List.length_append, h.revealed r ha.roundAt, List.length_singleton]
    exact (UInt8.toNat_saturatingAdd_one hlt).symm
  case indices =>
    rw [committedEvents_concat_of_none rfl]
    exact h.indices
  case announced =>
    rw [v.commitment, Store.set_eq_some] at hk
    rcases hk with ⟨-, rfl⟩ | ⟨-, hk⟩
    · exact ⟨i, getElem?_concat hi⟩
    · exact h.announced_concat hk hR
  case earlier =>
    rcases Nat.lt_or_ge j log.length with hlt | hge
    · rw [List.getElem?_append_left hlt] at hj
      obtain ⟨m, hm, d, hd⟩ := h.earlier j p index hj
      exact ⟨m, hm, d, getElem?_concat hd⟩
    -- the new event: the commitment was announced at the position `i`
    · rw [List.getElem?_append_right hge, List.getElem?_singleton] at hj
      split_ifs at hj
      cases hj
      exact ⟨i, (List.getElem?_eq_some_iff.1 hi).1.trans_le hge, c.commitment, by
        rw [← hown]
        exact getElem?_concat (hown.symm ▸ hi)⟩
  case settled =>
    have hbefore := h.not_settledEvent ha.roundAt (by rw [ha.phase]; simp [MixPhase.Terminal])
    rw [settledEvent_concat]
    simp [hbefore, MixRound.not_terminal_opened r, Event.settledIn]

/-- `mix_settle` closes the round and emits `MixSettled`, whichever way it closes. -/
theorem closed (h : Logged L log R) {accounts : MixSettleAccounts Pubkey}
    {config : GhosConfig Pubkey} (ha : accounts.Admits L now signers config r)
    (v : Views L' L.config? (Store.set L.round? accounts.round (r.closed config now))
      L.commitment?) (hR : accounts.round = R) :
    Logged L' (log ++ [.mixSettled R r.revealed now]) R := by
  subst hR
  have hround : L'.round? accounts.round = some (r.closed config now) := by
    rw [v.round, Store.set_self]
  refine of_round hround ?committed ?revealed ?indices (fun k c hk hR => ?announced)
    (h.earlier_concat rfl) ?settled
  case committed =>
    rw [committedEvents_concat_of_none rfl]
    exact (h.committed r ha.roundAt :)
  case revealed =>
    rw [revealedEvents_concat_of_none rfl]
    exact (h.revealed r ha.roundAt :)
  case indices =>
    rw [committedEvents_concat_of_none rfl]
    exact h.indices
  case announced =>
    rw [v.commitment] at hk
    exact h.announced_concat hk hR
  case settled =>
    rw [settledEvent_concat]
    exact iff_of_true (.inr (decide_eq_true rfl)) (MixRound.terminal_closed _ _ _)

variable [Sha256 Digest] [DecidableEq Digest]

theorem step (hreach : ghos.Reachable L) (h : Logged L log R) {t : Invocation Pubkey Digest}
    (hstep : ghos.step L t = .ok (L', e)) : Logged L' (log ++ [e]) R := by
  have heff := step_effect hstep
  have hemit := step_emits hstep
  obtain ⟨now, signers, instruction⟩ := t
  by_cases hR : instruction.namedRound = some R
  · cases heff with
    | ghosInitialize ha v => cases hR
    | configUpdate ha v => cases hR
    | mixInit ha v =>
      obtain rfl := Option.some.inj hR
      obtain rfl := hemit
      exact h.opened ha v rfl
    | mixCommit ha v =>
      obtain rfl := Option.some.inj hR
      obtain ⟨r', hr', rfl⟩ := hemit
      obtain rfl := Option.some.inj (ha.roundAt.symm.trans hr')
      exact h.joined ha v rfl
    | mixReveal ha v =>
      obtain rfl := Option.some.inj hR
      obtain ⟨c', hc', rfl⟩ := hemit
      obtain rfl := Option.some.inj (ha.commitmentAt.symm.trans hc')
      exact h.revealedBy hreach ha v rfl
    | mixSettle ha v =>
      obtain rfl := Option.some.inj hR
      obtain ⟨r', hr', rfl⟩ := hemit
      obtain rfl := Option.some.inj (ha.roundAt.symm.trans hr')
      exact h.closed ha v rfl
  · exact h.frame (heff.agreeOn (wellAddressed_of_reachable hreach) hR) (hemit.silent hR)

end Step

end Logged

/-! ### Whole runs -/

section Runs

variable [AddressSpace Pubkey] [Sha256 Digest] [DecidableEq Digest]

theorem logged (run : List (Invocation Pubkey Digest)) (R : Pubkey) :
    Logged (ghos.exec ghos.init run) (ghos.log ghos.init run) R :=
  Machine.log_invariant (P := fun L log => Logged L log R) (.nil R)
    (fun _ _ _ _ _ hreach h hstep => h.step hreach hstep) run

/-- The events of the round `R` say what its accounts say. -/
structure EventsAgree (run : List (Invocation Pubkey Digest)) (R : Pubkey) : Prop where
  committed : ∀ r, (ghos.exec ghos.init run).round? R = some r →
    (committedEvents R (ghos.log ghos.init run)).length = r.committed.toNat
  revealed : ∀ r, (ghos.exec ghos.init run).round? R = some r →
    (revealedEvents R (ghos.log ghos.init run)).length = r.revealed.toNat
  indices : (committedEvents R (ghos.log ghos.init run)).map UInt8.toNat =
    List.range (committedEvents R (ghos.log ghos.init run)).length
  earlier : ∀ (j : ℕ) p index, (ghos.log ghos.init run)[j]? = some (.mixRevealed R p index) →
    ∃ i < j, ∃ d, (ghos.log ghos.init run)[i]? = some (.mixCommitted R p d index)
  settled : SettledEvent R (ghos.log ghos.init run) ↔
    ∃ r, (ghos.exec ghos.init run).round? R = some r ∧ r.phase = .settled

/-- A settle closes the round for the rest of the run. -/
theorem SettlesAt.exec_round {run : List (Invocation Pubkey Digest)} {R : Pubkey} {i : ℕ}
    {now : Int64} (hs : SettlesAt run R i now) {config : GhosConfig Pubkey} {r : MixRound Pubkey}
    (hconfig : (ghos.stateAt run i).config? configPda = some config)
    (hr : (ghos.stateAt run i).round? R = some r) :
    (ghos.exec ghos.init run).round? R = some (r.closed config now) := by
  obtain ⟨config', r', hc', hr', -, hclosed⟩ := hs.spec
  obtain rfl := Option.some.inj (hconfig.symm.trans hc'.stored)
  obtain rfl := Option.some.inj (hr.symm.trans hr')
  obtain ⟨signers, accounts, hacc, -⟩ := hs
  have hlen : i + 1 ≤ run.length := Nat.succ_le_of_lt hacc.lt_length
  rw [← Machine.stateAt_length,
    (agreeOn_stateAt_of_terminal hlen hclosed (MixRound.terminal_closed r config now)).round,
    hclosed]

/-- A closed round was closed by a settle. -/
theorem exists_settlesAt {run : List (Invocation Pubkey Digest)} {R : Pubkey} {r : MixRound Pubkey}
    (hr : (ghos.exec ghos.init run).round? R = some r) (hterm : r.phase.Terminal) :
    ∃ i now config r₀, SettlesAt run R i now ∧
      (ghos.stateAt run i).config? configPda = some config ∧
      (ghos.stateAt run i).round? R = some r₀ ∧ r = r₀.closed config now := by
  rw [← Machine.stateAt_length] at hr
  obtain ⟨i, -, now, signers, accounts, config, r₀, hacc, hround, ha, rfl⟩ := exists_settle hr hterm
  have hconfig := ha.configAt.stored
  rw [(wellAddressed_stateAt run i).config_eq hconfig] at hconfig
  exact ⟨i, now, config, r₀, ⟨signers, accounts, hacc, hround⟩, hconfig, hround ▸ ha.roundAt, rfl⟩

/-- The events agree with the state exactly if no settle has found too few reveals, and so aborted
the round. -/
theorem eventsAgree_iff (run : List (Invocation Pubkey Digest)) (R : Pubkey) :
    EventsAgree run R ↔ ∀ i now, SettlesAt run R i now → ∀ config r,
      (ghos.stateAt run i).config? configPda = some config →
      (ghos.stateAt run i).round? R = some r → config.mixMinParticipants ≤ r.revealed := by
  have hlog := logged run R
  constructor
  · intro h i now hs config r hconfig hr
    by_contra hfew
    have hend := hs.exec_round hconfig hr
    -- the round was aborted, but the log has its event
    have hevent := hlog.settled.2 ⟨_, hend, MixRound.terminal_closed r config now⟩
    obtain ⟨r', hr', hp⟩ := h.settled.1 hevent
    obtain rfl := Option.some.inj (hend.symm.trans hr')
    rw [MixRound.closed, if_neg hfew] at hp
    cases hp
  · intro h
    refine ⟨hlog.committed, hlog.revealed, hlog.indices, hlog.earlier, ?_⟩
    rw [hlog.settled]
    constructor
    · rintro ⟨r, hr, hterm⟩
      obtain ⟨i, now, config, r₀, hs, hconfig, hr₀, rfl⟩ := exists_settlesAt hr hterm
      refine ⟨_, hr, ?_⟩
      rw [MixRound.closed, if_pos (h i now hs config r₀ hconfig hr₀)]
    · rintro ⟨r, hr, hp⟩
      exact ⟨r, hr, .inl hp⟩

end Runs

/-- A full round in which the fourth participant does not reveal, settled after the deadline. -/
def Sample.aborted : List (Invocation Sym (List UInt8)) :=
  Sample.opening ++ Sample.commits 4 ++ Sample.reveals 3 ++
    [mixSettleBy Sample.host Sample.round 1601]

/-- An aborted round emits `MixSettled`. -/
theorem aborted_round_emits_settled : ¬ EventsAgree Sample.aborted Sample.round := by
  intro h
  have hevent : SettledEvent Sample.round (ghos.log ghos.init Sample.aborted) := by
    unfold SettledEvent
    decide +kernel
  obtain ⟨r, hr, hp⟩ : ∃ r ∈ (ghos.exec ghos.init Sample.aborted).round? Sample.round,
      r.phase = .aborted := by decide +kernel
  obtain ⟨r', hr', hp'⟩ := h.settled.1 hevent
  rw [Option.some.inj (hr.symm.trans hr'), hp'] at hp
  cases hp

end Ghos
