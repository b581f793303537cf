import Ghos.Lib.StoreMaps
import Ghos.Mix.History
import Ghos.Config.Authority
import Ghos.Program.CallRequests

/-!
# Nothing happens in a key's name without its signature

Each account of the program names the key it belongs to: a commitment its participant, a burner
entry its owner, an auditor entry and the config their admin, a round its host.  `unsigned_kept`
says, for every run in which a key has signed nothing, that what belongs to it at the end is what
belonged to it before: nothing was added, changed or removed.  Two things are not a key's own to
decide.  Others join and open the rounds it hosts, so of a round only the closing is the host's; and
the admin of the day may hand the config to a key that has not asked for it.
-/

namespace Ghos

variable {Pubkey Digest World : Type}

/-- From `c` to `c'` nothing has happened in the name of `k`. -/
structure KeptFor [AddressSpace Pubkey] (k : Pubkey) (c c' : Chain Pubkey Digest) : Prop where
  commitments : ∀ a m, m.participant = k →
    (c'.ledger.commitment? a = some m ↔ c.ledger.commitment? a = some m)
  burners : ∀ a e, e.owner = k → (c'.burners a = some e ↔ c.burners a = some e)
  auditors : ∀ a e, e.admin = k → (c'.auditors a = some e ↔ c.auditors a = some e)
  hosted : ∀ a, (∃ r, c'.ledger.round? a = some r ∧ r.host = k) ↔
    ∃ r, c.ledger.round? a = some r ∧ r.host = k
  closed : ∀ a, (∃ r, c'.ledger.round? a = some r ∧ r.host = k ∧ r.phase.Terminal) ↔
    ∃ r, c.ledger.round? a = some r ∧ r.host = k ∧ r.phase.Terminal
  config : ∀ config, c.config = some config → config.admin = k → c'.config = some config

namespace KeptFor

variable [AddressSpace Pubkey] {k : Pubkey} {c c' c'' : Chain Pubkey Digest}

theorem refl (k : Pubkey) (c : Chain Pubkey Digest) : KeptFor k c c where
  commitments _ _ _ := Iff.rfl
  burners _ _ _ := Iff.rfl
  auditors _ _ _ := Iff.rfl
  hosted _ := Iff.rfl
  closed _ := Iff.rfl
  config _ h _ := h

theorem trans (h : KeptFor k c c') (h' : KeptFor k c' c'') : KeptFor k c c'' where
  commitments a m hm := (h'.commitments a m hm).trans (h.commitments a m hm)
  burners a e he := (h'.burners a e he).trans (h.burners a e he)
  auditors a e he := (h'.auditors a e he).trans (h.auditors a e he)
  hosted a := (h'.hosted a).trans (h.hosted a)
  closed a := (h'.closed a).trans (h.closed a)
  config config hc hk := h'.config config (h.config config hc hk) hk

end KeptFor

/-! ### One call -/

variable {c c' : Chain Pubkey Digest} {now : Int64} {signers : List Pubkey} {k : Pubkey}

/-- Between two ledgers no round of `k` has been opened or closed. -/
structure RoundsKept (k : Pubkey) (L L' : Ledger Pubkey Digest) : Prop where
  hosted : ∀ a, (∃ r, L'.round? a = some r ∧ r.host = k) ↔ ∃ r, L.round? a = some r ∧ r.host = k
  closed : ∀ a, (∃ r, L'.round? a = some r ∧ r.host = k ∧ r.phase.Terminal) ↔
    ∃ r, L.round? a = some r ∧ r.host = k ∧ r.phase.Terminal

namespace RoundsKept

variable {L L' : Ledger Pubkey Digest} {a : Pubkey} {r r' : MixRound Pubkey}

theorem of_eq (h : L'.round? = L.round?) : RoundsKept k L L' := by
  constructor <;> intro a <;> rw [h]

variable [DecidableEq Pubkey]

/-- A round that somebody else opens. -/
theorem of_opened (ha : L.round? a = none) (h : L'.round? = Store.set L.round? a r)
    (hr : r.host ≠ k) : RoundsKept k L L' := by
  have hnone : ∀ P : MixRound Pubkey → Prop, ¬ ∃ r, L.round? a = some r ∧ P r := by
    rintro P ⟨r, hr, -⟩
    rw [ha] at hr
    cases hr
  constructor <;> intro b <;> rw [h]
  · exact Store.exists_set_iff (P := fun r : MixRound Pubkey => r.host = k)
      (iff_of_false hr (hnone _)) b
  · exact Store.exists_set_iff (P := fun r : MixRound Pubkey => r.host = k ∧ r.phase.Terminal)
      (iff_of_false (fun hP => hr hP.1) (hnone _)) b

/-- A round that changes, and is not closed if it is hosted by `k`. -/
theorem of_changed (ha : L.round? a = some r) (h : L'.round? = Store.set L.round? a r')
    (hhost : r'.host = r.host) (hclosed : r.host = k → (r'.phase.Terminal ↔ r.phase.Terminal)) :
    RoundsKept k L L' := by
  constructor <;> intro b <;> rw [h]
  · refine Store.exists_set_iff (P := fun r : MixRound Pubkey => r.host = k) ?_ b
    rw [Store.exists_eq_some_iff ha, hhost]
  · refine Store.exists_set_iff
      (P := fun r : MixRound Pubkey => r.host = k ∧ r.phase.Terminal) ?_ b
    rw [Store.exists_eq_some_iff ha, hhost]
    exact and_congr_right hclosed

end RoundsKept

variable [DecidableEq Pubkey] [AddressSpace Pubkey] [Sha256 Digest]

theorem Effect.roundsKept {L L' : Ledger Pubkey Digest} {instruction : Instruction Pubkey Digest}
    (h : Effect L now signers instruction L') (hk : k ∉ signers) : RoundsKept k L L' := by
  cases h with
  | ghosInitialize ha v => exact .of_eq v.round
  | configUpdate ha v => exact .of_eq v.round
  | mixInit ha v =>
    exact .of_opened (Store.view_of_none ha.fresh) v.round fun heq => hk (heq ▸ ha.signer)
  | @mixCommit accounts commitmentBytes config round _ ha v =>
    refine .of_changed ha.roundAt v.round rfl fun _ => iff_of_false ?_ ?_
    · exact MixRound.not_terminal_joined round
    · rw [ha.phase]
      simp [MixPhase.Terminal]
  | @mixReveal accounts preimage revealSignal config round commit _ ha v =>
    refine .of_changed ha.roundAt v.round rfl fun _ => iff_of_false ?_ ?_
    · exact MixRound.not_terminal_opened round
    · rw [ha.phase]
      simp [MixPhase.Terminal]
  | @mixSettle accounts config round _ ha v =>
    have hne : round.host ≠ k := fun heq => hk (heq ▸ ha.host ▸ ha.signer)
    exact .of_changed ha.roundAt v.round rfl fun heq => absurd heq hne

theorem Effect.commitments_kept {L L' : Ledger Pubkey Digest}
    {instruction : Instruction Pubkey Digest} (h : Effect L now signers instruction L')
    (hk : k ∉ signers) {a : Pubkey} {m : MixCommitment Pubkey Digest} (hm : m.participant = k) :
    L'.commitment? a = some m ↔ L.commitment? a = some m := by
  cases h with
  | ghosInitialize ha v => rw [v.commitment]
  | configUpdate ha v => rw [v.commitment]
  | mixInit ha v => rw [v.commitment]
  | @mixCommit accounts commitmentBytes config round _ ha v =>
    have hne : accounts.participant ≠ k := fun heq => hk (heq ▸ ha.signer)
    rw [v.commitment]
    exact Store.set_eq_some_iff (P := fun m : MixCommitment Pubkey Digest => m.participant = k) hne
      (fun m' hm' => absurd hm' (ha.commitment_ne m')) a hm
  | @mixReveal accounts preimage revealSignal config round commit _ ha v =>
    have hne : (commit.opened now revealSignal).participant ≠ k := fun heq =>
      hk (heq ▸ ha.participant ▸ ha.signer)
    rw [v.commitment]
    refine Store.set_eq_some_iff (P := fun m : MixCommitment Pubkey Digest => m.participant = k)
      hne (fun m' hm' => ?_) a hm
    exact Option.some.inj (hm'.symm.trans ha.commitmentAt) ▸ hne
  | mixSettle ha v => rw [v.commitment]

variable [DecidableEq Digest] [External Pubkey World] {world : World}

/-- A call that `k` has not signed does nothing in its name. -/
theorem CallEffect.keptFor {entrypoint : Entrypoint Pubkey Digest} (hL : WellAddressed c.ledger)
    (h : CallEffect c world now signers entrypoint c') (hk : k ∉ signers) : KeptFor k c c' where
  commitments a m hm := by
    rcases h.ledger_cases with heq | ⟨instruction, -, heff⟩
    · rw [heq]
    · exact heff.commitments_kept hk hm
  burners a e he := by
    cases h with
    | @createBurner accounts nonce ttl config ha =>
      have hne : (accounts.entry now nonce ttl).owner ≠ k := fun heq => hk (heq ▸ ha.signer)
      have hnone := (Chain.isFree_iff.1 ha.fresh).2.2
      exact Store.set_eq_some_iff (P := fun e : BurnerAccount Pubkey => e.owner = k) hne
        (fun e' he' => by rw [hnone] at he'; cases he') a he
    | @destroyBurner accounts proof config entry world' ha =>
      have hne : entry.owner ≠ k := fun heq => hk (heq ▸ ha.owner ▸ ha.signer)
      refine Store.erase_eq_some_iff (P := fun e : BurnerAccount Pubkey => e.owner = k)
        (fun e' he' => ?_) a he
      exact Option.some.inj (he'.symm.trans ha.entryAt) ▸ hne
    | _ => exact Iff.rfl
  auditors a e he := by
    cases h with
    | @auditorRegister accounts key proof cooldown config world' ha =>
      have hne : (accounts.entry now key cooldown).admin ≠ k := fun heq => hk (heq ▸ ha.signer)
      have hnone := (Chain.isFree_iff.1 ha.fresh).2.1
      exact Store.set_eq_some_iff (P := fun e : AuditorEntry Pubkey => e.admin = k) hne
        (fun e' he' => by rw [hnone] at he'; cases he') a he
    | @auditorRotate accounts key proof config entry world' ha =>
      have hne : (entry.rotated now key).admin ≠ k := fun heq =>
        hk (heq ▸ ha.entryAdmin ▸ ha.signer)
      refine Store.set_eq_some_iff (P := fun e : AuditorEntry Pubkey => e.admin = k) hne
        (fun e' he' => ?_) a he
      exact Option.some.inj (he'.symm.trans ha.entryAt) ▸ hne
    | _ => exact Iff.rfl
  hosted a := by
    rcases h.ledger_cases with heq | ⟨instruction, -, heff⟩
    · rw [heq]
    · exact (heff.roundsKept hk).hosted a
  closed a := by
    rcases h.ledger_cases with heq | ⟨instruction, -, heff⟩
    · rw [heq]
    · exact (heff.roundsKept hk).closed a
  config config hc hadmin := by
    rcases h.config_step hL hc with hkept | ⟨accounts, field, config', -, -, hs, -⟩
    · exact hkept
    · exact absurd (hadmin ▸ hs) hk

/-! ### Every run -/

/-- Whatever others do, and in whatever order, what belongs to a key that signs nothing stays as it
is, and nothing comes to belong to it but the config. -/
theorem unsigned_kept (hc : program.Reachable c) {run : List (Call Pubkey Digest World)}
    (hk : ∀ t ∈ run, k ∉ t.signers) : KeptFor k c (program.exec c run) := by
  induction run generalizing c with
  | nil => exact .refl k c
  | cons t run ih =>
    have hrest := ih (hc.next t) fun u hu => hk u (List.mem_cons_of_mem t hu)
    refine KeptFor.trans ?_ hrest
    by_cases ht : program.Accepts c t
    · exact (callEffect_of_accepts ht).keptFor
        (wellAddressed_of_reachable (ledger_reachable hc)) (hk t List.mem_cons_self)
    · rw [Machine.next_of_not_accepts ht]
      exact .refl k c

/-- The first participant has committed; the others reveal without it. -/
theorem unsigned_kept_sample :
    KeptFor (Sample.participant 0)
      (program.exec program.init
        ((Sample.opening ++ Sample.commits 4).map fun t => t.toCall ()))
      (program.exec (program.exec program.init
        ((Sample.opening ++ Sample.commits 4).map fun t => t.toCall ()))
        ((Sample.reveals 4).tail.map fun t => t.toCall ())) :=
  unsigned_kept ⟨_, rfl⟩ (by decide)

end Ghos
