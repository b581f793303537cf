import Ghos.Mix.Protocol

/-!
# How many participants a settled round hides

`mix_init` compares the capacity with the constant `mixMinParticipants`; `mix_settle` compares the
reveals with the knob of the same name in the config, which the admin may lower to two.  A settled
round therefore meets the knob in force when it was settled (`settled_quorum`), and the constant
only as long as the knob was never set below it (`settled_below_minimum`).
-/

namespace Ghos

variable {Pubkey Digest : Type} [DecidableEq Pubkey] [DecidableEq Digest] [AddressSpace Pubkey]
  [Sha256 Digest] {run : List (Invocation Pubkey Digest)}

omit [DecidableEq Pubkey] [AddressSpace Pubkey] in
/-- Only the knob itself changes the knob. -/
theorem ConfigField.mixMinParticipants_of_apply {config config' : GhosConfig Pubkey}
    {field : ConfigField Pubkey} (h : field.apply config = .ok config') :
    config'.mixMinParticipants = config.mixMinParticipants ∨
      field = .mixMinParticipants config'.mixMinParticipants := by
  cases field <;> simp [ConfigField.apply] at h <;> grind

/-- No accepted update before `n` has set the minimum below the constant. -/
def KeepsMinimum (run : List (Invocation Pubkey Digest)) (n : ℕ) : Prop :=
  ∀ i < n, ∀ now signers accounts v,
    ghos.AcceptedAt run i ⟨now, signers, .configUpdate accounts (.mixMinParticipants v)⟩ →
    mixMinParticipants ≤ v

/-- A config below the constant was put there by an update. -/
theorem KeepsMinimum.le_config {n : ℕ} (hkeep : KeepsMinimum run n) {k : Pubkey}
    {config : GhosConfig Pubkey} (hc : (ghos.stateAt run n).config? k = some config) :
    mixMinParticipants ≤ config.mixMinParticipants := by
  by_contra hlt
  obtain ⟨i, t, hi, hacc, hbefore, config', hafter, hlt'⟩ := Machine.exists_turning_point
    (P := fun L : Ledger Pubkey Digest => ∃ config, L.config? k = some config ∧
      ¬ mixMinParticipants ≤ config.mixMinParticipants)
    (by rintro ⟨config, h, -⟩; cases h) ⟨config, hc, hlt⟩
  obtain ⟨now, signers, instruction⟩ := t
  rcases (effect_of_acceptedAt hacc).config_cases hafter with hafter | hw
  · exact hbefore ⟨config', hafter, hlt'⟩
  · cases hw with
    | ghosInitialize hw => exact hlt' (UInt8.le_refl _)
    | configUpdate hw =>
      rcases ConfigField.mixMinParticipants_of_apply hw.field with hsame | hfield
      · exact hbefore ⟨_, hw.configAt.stored, by rw [← hsame]; exact hlt'⟩
      · rw [hfield] at hacc
        exact hlt' (hkeep i hi now signers _ _ hacc)

/-- A settled round has as many reveals as the config asked for when it was settled, so at least
two, and at least four if the minimum was never lowered before. -/
theorem settled_quorum (run : List (Invocation Pubkey Digest)) {n : ℕ} {R : Pubkey}
    {r : MixRound Pubkey} (hr : (ghos.stateAt run n).round? R = some r)
    (hphase : r.phase = .settled) :
    ∃ i < n, ∃ now config, SettlesAt run R i now ∧
      (ghos.stateAt run i).config? configPda = some config ∧
      config.mixMinParticipants ≤ r.revealed ∧ 2 ≤ r.revealed ∧
      (KeepsMinimum run i → mixMinParticipants ≤ r.revealed) := by
  obtain ⟨i, hi, now, signers, accounts, config, r₀, hacc, hR, ha, rfl⟩ :=
    exists_settle hr (.inl hphase)
  have hreach := Machine.reachable_stateAt (M := ghos) run i
  have hconfig := ha.configAt.stored
  rw [(wellAddressed_of_reachable hreach).config_eq hconfig] at hconfig
  have hquorum : config.mixMinParticipants ≤ r₀.revealed := by
    by_contra hlt
    rw [MixRound.closed, if_neg hlt] at hphase
    cases hphase
  have hsound := (sound_of_reachable hreach hconfig).mixMinParticipants
  exact ⟨i, hi, now, config, ⟨signers, accounts, hacc, hR⟩, hconfig, hquorum,
    UInt8.le_trans hsound hquorum, fun hkeep => UInt8.le_trans (hkeep.le_config hconfig) hquorum⟩

namespace Sample

/-- The sample round, settled by its host. -/
def settled : List (Invocation Sym (List UInt8)) := sampleRun ++ [mixSettleBy host round 3]

/-- The admin lowers the minimum to two, and a round settles after its deadline. -/
def lowered : List (Invocation Sym (List UInt8)) :=
  opening ++ [configUpdateBy admin (.mixMinParticipants 2) 0] ++ commits 4 ++ reveals 2 ++
    [mixSettleBy host round 2000]

end Sample

theorem settled_quorum_sample :
    ∃ r, (ghos.stateAt Sample.settled 11).round? Sample.round = some r ∧
      ∃ i < 11, ∃ now config, SettlesAt Sample.settled Sample.round i now ∧
        (ghos.stateAt Sample.settled i).config? configPda = some config ∧
        config.mixMinParticipants ≤ r.revealed := by
  obtain ⟨r, hr, hphase⟩ : ∃ r ∈ (ghos.stateAt Sample.settled 11).round? Sample.round,
      r.phase = .settled := by decide +kernel
  obtain ⟨i, hi, now, config, hsettle, hconfig, hquorum, -⟩ :=
    settled_quorum Sample.settled hr hphase
  exact ⟨r, hr, i, hi, now, config, hsettle, hconfig, hquorum⟩

/-- A settled round with two reveals. -/
theorem settled_below_minimum :
    ∃ r ∈ (ghos.exec ghos.init Sample.lowered).round? Sample.round,
      r.phase = .settled ∧ ¬ mixMinParticipants ≤ r.revealed := by
  decide +kernel

end Ghos
