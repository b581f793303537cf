import Ghos.Mix.Invariant

/-!
# Commit, then reveal, then settle

`CommitThenReveal run R` is what a run may do to the round `R`: the order of the accepted
instructions, their deadlines, how often each participant and the host may act, and what never
changes.  It holds of every run, whatever the order of the invocations and of their clocks.

The order comes from the rank of the phase, which never goes down; that everybody acts at most once
comes from the accounts, which are never removed and, once revealed or closed, never written.
-/

namespace Ghos

variable {Pubkey Digest : Type} [DecidableEq Pubkey] [DecidableEq Digest] [AddressSpace Pubkey]
  [Sha256 Digest] {run : List (Invocation Pubkey Digest)} {R p : Pubkey} {i j : ℕ}
  {now now' : Int64} {d d' : Digest} {preimage preimage' : List UInt8}
  {revealSignal revealSignal' : Vector UInt8 32} {r r' : MixRound Pubkey}

/-! ### Order and deadlines -/

theorem rank_le (hij : i ≤ j) (hr : (ghos.stateAt run i).round? R = some r)
    (hr' : (ghos.stateAt run j).round? R = some r') : r.phase.rank ≤ r'.phase.rank := by
  obtain ⟨r'', hr'', -, hrank⟩ := round_stateAt hij hr
  obtain rfl := Option.some.inj (hr'.symm.trans hr'')
  exact hrank

theorem CommitsAt.lt_of_revealsAt {q : Pubkey} (h : CommitsAt run R p d i now)
    (h' : RevealsAt run R q preimage revealSignal j now') : i < j := by
  obtain ⟨r, hr, hph, -⟩ := h.spec
  obtain ⟨r', c, hr', hph', -⟩ := h'.spec
  by_contra hle
  have hrank := rank_le (Nat.le_of_not_lt hle) hr' hr
  rw [hph, hph'] at hrank
  exact absurd hrank (by decide)

/-! ### Each participant acts at most once -/

theorem CommitsAt.not_lt (h : CommitsAt run R p d i now) (h' : CommitsAt run R p d' j now') :
    ¬ i < j := by
  intro hlt
  obtain ⟨-, -, -, -, -, -, c, hc⟩ := h.spec
  obtain ⟨-, -, -, -, hnone, -⟩ := h'.spec
  obtain ⟨c', hc', -⟩ := commitment_stateAt (Nat.succ_le_of_lt hlt) hc
  rw [hnone] at hc'
  cases hc'

theorem CommitsAt.unique (h : CommitsAt run R p d i now) (h' : CommitsAt run R p d' j now') :
    i = j := by
  have hij := h.not_lt h'
  have hji := h'.not_lt h
  omega

theorem RevealsAt.not_lt (h : RevealsAt run R p preimage revealSignal i now)
    (h' : RevealsAt run R p preimage' revealSignal' j now') : ¬ i < j := by
  intro hlt
  obtain ⟨-, c, -, -, -, -, -, -, -, hafter⟩ := h.spec
  obtain ⟨-, c', -, -, -, hbefore, hno, -⟩ := h'.spec
  obtain ⟨c'', hc'', hext⟩ := commitment_stateAt (Nat.succ_le_of_lt hlt) hafter
  obtain rfl := Option.some.inj (hbefore.symm.trans hc'')
  rw [hext.eq_of_revealed rfl] at hno
  cases hno

theorem RevealsAt.unique (h : RevealsAt run R p preimage revealSignal i now)
    (h' : RevealsAt run R p preimage' revealSignal' j now') : i = j := by
  have hij := h.not_lt h'
  have hji := h'.not_lt h
  omega

/-- A reveal opens the digest that the same participant committed to before. -/
theorem RevealsAt.exists_commit (h : RevealsAt run R p preimage revealSignal j now) :
    ∃ i < j, ∃ now', CommitsAt run R p (hashv [preimage, revealSignal.toList]) i now' := by
  obtain ⟨-, c, -, -, -, hc, -, hd, -⟩ := h.spec
  obtain ⟨i, hi, now', hcommit⟩ := Ghos.exists_commit hc
  obtain ⟨hR, hp⟩ := (wellAddressed_stateAt run j).commitment_at hc
  rw [hR, hp, hd] at hcommit
  exact ⟨i, hi, now', hcommit⟩

/-! ### The round is closed at most once -/

/-- Before a settle the round is not closed, after it the round is. -/
theorem SettlesAt.phases (h : SettlesAt run R i now) :
    ∃ r r', (ghos.stateAt run i).round? R = some r ∧ ¬ r.phase.Terminal ∧
      (ghos.stateAt run (i + 1)).round? R = some r' ∧ r'.phase.Terminal ∧ r'.settledAt = now := by
  obtain ⟨config, r, -, hr, hph, hr'⟩ := h.spec
  refine ⟨r, _, hr, ?_, hr', MixRound.terminal_closed _ _ _, rfl⟩
  rcases hph with ⟨hp, -⟩ | ⟨hp, -⟩ <;> rw [hp] <;> simp [MixPhase.Terminal]

/-- After a settle, the round is closed with the time of that settle. -/
theorem SettlesAt.settledAt_eq (h : SettlesAt run R i now) (hlt : i < j)
    (hr : (ghos.stateAt run j).round? R = some r) : r.phase.Terminal ∧ r.settledAt = now := by
  obtain ⟨-, r', -, -, hr', hterm, hat⟩ := h.phases
  have hag := agreeOn_stateAt_of_terminal (Nat.succ_le_of_lt hlt) hr' hterm
  rw [hag.round, hr', Option.some.injEq] at hr
  subst hr
  exact ⟨hterm, hat⟩

theorem SettlesAt.not_lt (h : SettlesAt run R i now) (h' : SettlesAt run R j now') : ¬ i < j := by
  intro hlt
  obtain ⟨r, -, hr, hopen, -⟩ := h'.phases
  exact hopen (h.settledAt_eq hlt hr).1

theorem SettlesAt.unique (h : SettlesAt run R i now) (h' : SettlesAt run R j now') : i = j := by
  have hij := h.not_lt h'
  have hji := h'.not_lt h
  omega

/-! ### The whole protocol -/

/-- What a run may do to the round `R`. -/
structure CommitThenReveal (run : List (Invocation Pubkey Digest)) (R : Pubkey) : Prop where
  commit_lt_reveal : ∀ p d i now q preimage revealSignal j now', CommitsAt run R p d i now →
    RevealsAt run R q preimage revealSignal j now' → i < j
  commit_in_window : ∀ p d i now, CommitsAt run R p d i now →
    ∃ r, (ghos.stateAt run i).round? R = some r ∧ now < r.commitCloseAt
  reveal_in_window : ∀ p preimage revealSignal i now, RevealsAt run R p preimage revealSignal i now →
    ∃ r, (ghos.stateAt run i).round? R = some r ∧ now ≤ r.revealCloseAt
  timeout_after_window : ∀ i now r, SettlesAt run R i now →
    (ghos.stateAt run i).round? R = some r → r.phase = .reveal → r.revealCloseAt < now
  commit_once : ∀ p d i now d' j now', CommitsAt run R p d i now → CommitsAt run R p d' j now' →
    i = j
  reveal_once : ∀ p preimage revealSignal i now preimage' revealSignal' j now',
    RevealsAt run R p preimage revealSignal i now →
    RevealsAt run R p preimage' revealSignal' j now' → i = j
  reveal_own_commit : ∀ p preimage revealSignal j now, RevealsAt run R p preimage revealSignal j now →
    ∃ i < j, ∃ now', CommitsAt run R p (hashv [preimage, revealSignal.toList]) i now'
  phase_mono : ∀ i j r, i ≤ j → (ghos.stateAt run i).round? R = some r →
    ∃ r', (ghos.stateAt run j).round? R = some r' ∧ r.phase.rank ≤ r'.phase.rank
  terms_fixed : ∀ i j r, i ≤ j → (ghos.stateAt run i).round? R = some r →
    ∃ r', (ghos.stateAt run j).round? R = some r' ∧ r.SameTerms r'
  closed_frozen : ∀ i j r, i ≤ j → (ghos.stateAt run i).round? R = some r → r.phase.Terminal →
    (ghos.stateAt run j).round? R = some r ∧
    ∀ k c, c.round = R →
      ((ghos.stateAt run j).commitment? k = some c ↔ (ghos.stateAt run i).commitment? k = some c)
  settle_once : ∀ i now j now', SettlesAt run R i now → SettlesAt run R j now' → i = j
  settled_at_of_open : ∀ i r, (ghos.stateAt run i).round? R = some r → ¬ r.phase.Terminal →
    r.settledAt = 0 ∧ ∀ j < i, ∀ now, ¬ SettlesAt run R j now
  settled_at_of_closed : ∀ i r, (ghos.stateAt run i).round? R = some r → r.phase.Terminal →
    ∃ j < i, SettlesAt run R j r.settledAt

theorem commit_then_reveal (run : List (Invocation Pubkey Digest)) (R : Pubkey) :
    CommitThenReveal run R := by
  constructor
  case commit_lt_reveal => exact fun _ _ _ _ _ _ _ _ _ h h' => h.lt_of_revealsAt h'
  case commit_in_window =>
    intro p d i now h
    obtain ⟨r, hr, -, hw, -⟩ := h.spec
    exact ⟨r, hr, hw⟩
  case reveal_in_window =>
    intro p preimage revealSignal i now h
    obtain ⟨r, -, hr, -, hw, -⟩ := h.spec
    exact ⟨r, hr, hw⟩
  case timeout_after_window =>
    intro i now r h hr hp
    obtain ⟨config, r', -, hr', hph, -⟩ := h.spec
    obtain rfl := Option.some.inj (hr.symm.trans hr')
    rcases hph with ⟨hp', -⟩ | ⟨-, hw⟩
    · rw [hp] at hp'
      cases hp'
    · exact hw
  case commit_once => exact fun _ _ _ _ _ _ _ h h' => h.unique h'
  case reveal_once => exact fun _ _ _ _ _ _ _ _ _ h h' => h.unique h'
  case reveal_own_commit => exact fun _ _ _ _ _ h => h.exists_commit
  case phase_mono =>
    intro i j r hij hr
    obtain ⟨r', hr', -, hrank⟩ := round_stateAt hij hr
    exact ⟨r', hr', hrank⟩
  case terms_fixed =>
    intro i j r hij hr
    obtain ⟨r', hr', hterms, -⟩ := round_stateAt hij hr
    exact ⟨r', hr', hterms⟩
  case closed_frozen =>
    intro i j r hij hr hterm
    have hag := agreeOn_stateAt_of_terminal hij hr hterm
    exact ⟨hag.round.trans hr, hag.commitment⟩
  case settle_once => exact fun _ _ _ _ h h' => h.unique h'
  case settled_at_of_open =>
    intro i r hr hopen
    refine ⟨settledAt_eq_zero (Machine.reachable_stateAt run i) hr hopen, ?_⟩
    exact fun j hj now h => hopen (h.settledAt_eq hj hr).1
  case settled_at_of_closed =>
    intro i r hr hterm
    obtain ⟨j, hj, now, signers, accounts, config, r₀, hacc, hR, -, rfl⟩ := exists_settle hr hterm
    exact ⟨j, hj, signers, accounts, hacc, hR⟩

end Ghos
