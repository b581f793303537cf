import Ghos.Program.Views

/-!
# Every account sits at the address of its own seeds

`WellAddressed` holds in every reachable ledger: the config, each round and each commitment are at
the canonical address of the seeds their own fields give, with the canonical bump, and the round of
a commitment exists.  It follows that the commitments of different rounds are different accounts,
and so that an instruction that does not name a round leaves the round and its commitments alone
(`Effect.agreeOn`).
-/

namespace Ghos

variable {Pubkey Digest : Type} [DecidableEq Pubkey] [AddressSpace Pubkey]
  {L L' : Ledger Pubkey Digest} {now : Int64} {signers : List Pubkey}

/-- Accounts are where their seeds put them, and commitments have a round. -/
structure WellAddressed (L : Ledger Pubkey Digest) : Prop where
  config : ∀ a c, L.config? a = some c → findProgramAddress configSeeds = (a, c.bump)
  round : ∀ a r, L.round? a = some r →
    ∃ i, findProgramAddress (mixRoundSeeds r.mint i) = (a, r.bump)
  commitment : ∀ a c, L.commitment? a = some c →
    findProgramAddress (mixCommitmentSeeds c.round c.participant) = (a, c.bump)
  parent : ∀ a c, L.commitment? a = some c → ∃ r, L.round? c.round = some r

namespace WellAddressed

omit [DecidableEq Pubkey]

theorem config_eq (hL : WellAddressed L) {a : Pubkey} {c : GhosConfig Pubkey}
    (h : L.config? a = some c) : a = configPda := by
  rw [configPda, hL.config a c h]

theorem isConfigAt (hL : WellAddressed L) {a : Pubkey} {c : GhosConfig Pubkey}
    (h : L.config? a = some c) : IsConfigAt L a c := by
  refine ⟨h, ?_⟩
  have hf := AddressSpace.create_find (configSeeds : List (Seed Pubkey))
  rwa [hL.config a c h] at hf

theorem round_eq (hL : WellAddressed L) {a : Pubkey} {r : MixRound Pubkey}
    (h : L.round? a = some r) : ∃ i, a = mixRoundPda r.mint i := by
  obtain ⟨i, hi⟩ := hL.round a r h
  exact ⟨i, by rw [mixRoundPda, hi]⟩

theorem commitment_eq (hL : WellAddressed L) {a : Pubkey} {c : MixCommitment Pubkey Digest}
    (h : L.commitment? a = some c) : a = mixCommitmentPda c.round c.participant := by
  rw [mixCommitmentPda, hL.commitment a c h]

/-- The commitment stored at the address of a participant is that participant's. -/
theorem commitment_at (hL : WellAddressed L) {R p : Pubkey} {c : MixCommitment Pubkey Digest}
    (h : L.commitment? (mixCommitmentPda R p) = some c) : c.round = R ∧ c.participant = p := by
  obtain ⟨hR, hp⟩ := mixCommitmentPda_inj.1 (hL.commitment_eq h)
  exact ⟨hR.symm, hp.symm⟩

theorem create_commitment (hL : WellAddressed L) {a : Pubkey} {c : MixCommitment Pubkey Digest}
    (h : L.commitment? a = some c) :
    createProgramAddress (mixCommitmentSeeds c.round c.participant) c.bump = some a := by
  have hf := AddressSpace.create_find (mixCommitmentSeeds c.round c.participant)
  rwa [hL.commitment a c h] at hf

end WellAddressed

omit [DecidableEq Pubkey] in
/-- A revealed commitment belongs to the round and the participant that were named. -/
theorem MixRevealAccounts.Admits.owner [Sha256 Digest] {accounts : MixRevealAccounts Pubkey}
    {preimage : List UInt8} {revealSignal : Vector UInt8 32} {config : GhosConfig Pubkey}
    {round : MixRound Pubkey} {commit : MixCommitment Pubkey Digest} (hL : WellAddressed L)
    (h : accounts.Admits L now signers preimage revealSignal config round commit) :
    commit.round = accounts.round ∧
      accounts.commitment = mixCommitmentPda accounts.round accounts.participant := by
  have hs := (AddressSpace.create_injective h.address (hL.create_commitment h.commitmentAt)).1
  have hR := concat_mixCommitmentSeeds_inj.1 hs
  exact ⟨hR.1.symm, by rw [hL.commitment_eq h.commitmentAt, hR.1, hR.2]⟩

omit [DecidableEq Pubkey] [AddressSpace Pubkey] in
/-- No knob changes the bump. -/
theorem ConfigField.apply_bump {config config' : GhosConfig Pubkey} {field : ConfigField Pubkey}
    (h : field.apply config = .ok config') : config'.bump = config.bump := by
  cases field <;> simp [ConfigField.apply] at h <;> grind

/-! ### The invariant -/

section Invariant

omit [DecidableEq Pubkey] in
theorem wellAddressed_init : WellAddressed (fun _ => none : Ledger Pubkey Digest) := by
  constructor <;> intro a c h <;> cases h

variable [Sha256 Digest]

/-- Every accepted instruction keeps accounts at their addresses. -/
theorem Effect.wellAddressed {instruction : Instruction Pubkey Digest} (hL : WellAddressed L)
    (h : Effect L now signers instruction L') : WellAddressed L' := by
  refine ⟨fun a c hc => ?_, fun a r hr => ?_, fun a c hc => ?_, fun a c hc => h.exists_round ?_⟩
  · rcases h.config_cases hc with hc | hw
    · exact hL.config a c hc
    · cases hw with
      | ghosInitialize hw => exact Prod.ext hw.address.symm rfl
      | configUpdate hw =>
        rw [hL.config _ _ hw.configAt.stored]
        exact Prod.ext rfl (ConfigField.apply_bump hw.field).symm
  · rcases h.round_cases hr with hr | hw
    · exact hL.round a r hr
    · cases hw with
      | mixInit hw => exact ⟨_, Prod.ext hw.address.symm rfl⟩
      | mixCommit hw => exact (hL.round _ _ hw.roundAt :)
      | mixReveal hw => exact (hL.round _ _ hw.roundAt :)
      | mixSettle hw => exact (hL.round _ _ hw.roundAt :)
  · rcases h.commitment_cases hc with hc | hw
    · exact hL.commitment a c hc
    · cases hw with
      | mixCommit hw => exact Prod.ext hw.address.symm rfl
      | mixReveal hw => exact (hL.commitment _ _ hw.commitmentAt :)
  · rcases h.commitment_cases hc with hc | hw
    · exact hL.parent a c hc
    · cases hw with
      | mixCommit hw => exact ⟨_, hw.roundAt⟩
      | mixReveal hw => exact (hL.parent _ _ hw.commitmentAt :)

variable [DecidableEq Digest]

theorem wellAddressed_of_reachable (h : ghos.Reachable L) : WellAddressed L :=
  h.invariant wellAddressed_init fun _ _ _ _ hL hstep => (step_effect hstep).wellAddressed hL

end Invariant

/-! ### What an instruction leaves alone -/

/-- Two ledgers with the same round at `R` and the same commitments of that round. -/
structure AgreeOn (R : Pubkey) (L L' : Ledger Pubkey Digest) : Prop where
  round : L.round? R = L'.round? R
  commitment : ∀ a c, c.round = R → (L.commitment? a = some c ↔ L'.commitment? a = some c)

namespace AgreeOn

omit [DecidableEq Pubkey] [AddressSpace Pubkey]

theorem refl (R : Pubkey) (L : Ledger Pubkey Digest) : AgreeOn R L L := ⟨rfl, fun _ _ _ => Iff.rfl⟩

theorem symm {R : Pubkey} (h : AgreeOn R L L') : AgreeOn R L' L :=
  ⟨h.round.symm, fun a c hc => (h.commitment a c hc).symm⟩

theorem trans {R : Pubkey} {L'' : Ledger Pubkey Digest} (h : AgreeOn R L L')
    (h' : AgreeOn R L' L'') : AgreeOn R L L'' :=
  ⟨h.round.trans h'.round, fun a c hc => (h.commitment a c hc).trans (h'.commitment a c hc)⟩

end AgreeOn

/-- The round an instruction names, if it is one of the mix instructions. -/
def Instruction.namedRound : Instruction Pubkey Digest → Option Pubkey
  | .ghosInitialize _ => none
  | .configUpdate _ _ => none
  | .mixInit accounts _ _ _ _ => some accounts.round
  | .mixCommit accounts _ => some accounts.round
  | .mixReveal accounts _ _ => some accounts.round
  | .mixSettle accounts => some accounts.round

/-- An instruction leaves alone every round that it does not name. -/
theorem Effect.agreeOn [Sha256 Digest] {instruction : Instruction Pubkey Digest}
    (hL : WellAddressed L) (h : Effect L now signers instruction L') {R : Pubkey}
    (hR : instruction.namedRound ≠ some R) : AgreeOn R L' L := by
  cases h with
  | ghosInitialize h v => exact ⟨by rw [v.round], fun a c _ => by rw [v.commitment]⟩
  | configUpdate h v => exact ⟨by rw [v.round], fun a c _ => by rw [v.commitment]⟩
  | mixInit h v =>
    have hne : R ≠ _ := fun he => hR (congrArg some he.symm)
    exact ⟨by rw [v.round, Store.set_of_ne _ _ hne], fun a c _ => by rw [v.commitment]⟩
  | mixCommit h v =>
    have hne : R ≠ _ := fun he => hR (congrArg some he.symm)
    refine ⟨by rw [v.round, Store.set_of_ne _ _ hne], fun a c hc => ?_⟩
    rw [v.commitment, Store.set_eq_some]
    constructor
    · rintro (⟨-, rfl⟩ | ⟨-, h'⟩)
      · exact absurd hc.symm hne
      · exact h'
    · refine fun h' => .inr ⟨?_, h'⟩
      rintro rfl
      exact h.commitment_ne c h'
  | mixReveal h v =>
    have hne : R ≠ _ := fun he => hR (congrArg some he.symm)
    have hown := (h.owner hL).1
    refine ⟨by rw [v.round, Store.set_of_ne _ _ hne], fun a c hc => ?_⟩
    rw [v.commitment, Store.set_eq_some]
    constructor
    · rintro (⟨-, rfl⟩ | ⟨-, h'⟩)
      · exact absurd (hc.symm.trans hown) hne
      · exact h'
    · refine fun h' => .inr ⟨?_, h'⟩
      rintro rfl
      rw [h.commitmentAt, Option.some.injEq] at h'
      exact hne (by rw [← hc, ← h', hown])
  | mixSettle h v =>
    have hne : R ≠ _ := fun he => hR (congrArg some he.symm)
    exact ⟨by rw [v.round, Store.set_of_ne _ _ hne], fun a c _ => by rw [v.commitment]⟩

end Ghos
