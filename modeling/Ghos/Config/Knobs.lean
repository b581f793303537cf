import Ghos.Mix.Invariant

/-!
# The relations between the knobs

`config_update` sets one knob at a time and checks it against the others.  Each bound that relates
two knobs has to be checked by both setters; the setter of `mix_min_participants` checks only that
the new value is at least two.  So the config stays well formed exactly as long as no accepted
update raises `mix_min_participants` above the stored `mix_max_participants`.
-/

namespace Ghos

variable {Pubkey Digest : Type}

/-- The bounds on single knobs, and the order of the two bounds on the participants. -/
structure GhosConfig.WellFormed (config : GhosConfig Pubkey) : Prop extends config.Sound where
  mixParticipants : config.mixMinParticipants ≤ config.mixMaxParticipants

theorem Initialize.newConfig_wellFormed (accounts : Initialize Pubkey) (bump : UInt8)
    (now : Int64) : (accounts.newConfig bump now).WellFormed where
  toSound := accounts.newConfig_sound bump now
  mixParticipants := (by decide : Ghos.mixMinParticipants ≤ Ghos.mixMaxParticipants)

/-- A knob keeps the config well formed, if it does not raise the minimum above the maximum. -/
theorem ConfigField.apply_wellFormed {config config' : GhosConfig Pubkey}
    {field : ConfigField Pubkey} (hw : config.WellFormed)
    (hmin : ∀ v, field = .mixMinParticipants v → v ≤ config.mixMaxParticipants)
    (h : field.apply config = .ok config') : config'.WellFormed := by
  refine ⟨ConfigField.apply_sound hw.toSound h, ?_⟩
  have hle := hw.mixParticipants
  cases field <;> simp [ConfigField.apply] at h
  case paused v => subst h; exact hle
  case dustFreeUnit v => obtain ⟨-, rfl⟩ := h; exact hle
  case burnerTtlMax v => obtain ⟨-, rfl⟩ := h; exact hle
  case burnerTtlMin v => obtain ⟨-, rfl⟩ := h; exact hle
  case burnerRegistryCap v => obtain ⟨-, rfl⟩ := h; exact hle
  case mixMinParticipants v => obtain ⟨-, rfl⟩ := h; exact hmin v rfl
  case mixMaxParticipants v => obtain ⟨hv, rfl⟩ := h; exact hv
  case mixRevealWindow v => obtain ⟨-, rfl⟩ := h; exact hle
  case auditorCosignLamports v => subst h; exact hle
  case admin v => subst h; exact hle

variable [DecidableEq Pubkey] [DecidableEq Digest] [AddressSpace Pubkey] [Sha256 Digest]

/-- Every config of the run is well formed. -/
def KeepsWellFormed (run : List (Invocation Pubkey Digest)) : Prop :=
  ∀ n k config, (ghos.stateAt run n).config? k = some config → config.WellFormed

/-- No accepted update sets the minimum above the maximum that is stored then. -/
def MinimumWithinMaximum (run : List (Invocation Pubkey Digest)) : Prop :=
  ∀ i now signers accounts v config,
    ghos.AcceptedAt run i ⟨now, signers, .configUpdate accounts (.mixMinParticipants v)⟩ →
    (ghos.stateAt run i).config? accounts.config = some config → v ≤ config.mixMaxParticipants

theorem KeepsWellFormed.minimumWithinMaximum {run : List (Invocation Pubkey Digest)}
    (h : KeepsWellFormed run) : MinimumWithinMaximum run := by
  intro i now signers accounts v config hacc hconfig
  cases effect_of_acceptedAt hacc with
  | configUpdate ha views =>
    obtain rfl := Option.some.inj (hconfig.symm.trans ha.configAt.stored)
    have hafter := congrFun views.config accounts.config
    rw [Store.set_self] at hafter
    have hle := (h (i + 1) accounts.config _ hafter).mixParticipants
    have hfield := ha.field
    simp only [ConfigField.apply, Result.bind_eq_ok, require_eq_ok, Result.pure_eq_ok] at hfield
    obtain ⟨-, -, rfl⟩ := hfield
    exact hle

theorem MinimumWithinMaximum.keepsWellFormed {run : List (Invocation Pubkey Digest)}
    (h : MinimumWithinMaximum run) : KeepsWellFormed run := by
  intro n k config hc
  by_contra hbad
  obtain ⟨i, t, hi, hacc, hbefore, k', config', hafter, hbad'⟩ := Machine.exists_turning_point
    (P := fun L : Ledger Pubkey Digest => ∃ k config, L.config? k = some config ∧
      ¬ config.WellFormed) (by rintro ⟨k, config, h, -⟩; cases h) ⟨k, config, hc, hbad⟩
  obtain ⟨now, signers, instruction⟩ := t
  rcases (effect_of_acceptedAt hacc).config_cases hafter with hafter | hw
  · exact hbefore ⟨k', config', hafter, hbad'⟩
  · cases hw with
    | ghosInitialize hw => exact hbad' (Initialize.newConfig_wellFormed _ _ _)
    | @configUpdate accounts field config₀ config₁ hw =>
      have hstored := hw.configAt.stored
      -- before the step the config was well formed
      have hwf : config₀.WellFormed := by
        by_contra hn
        exact hbefore ⟨_, config₀, hstored, hn⟩
      have hmin : ∀ v, field = .mixMinParticipants v → v ≤ config₀.mixMaxParticipants := by
        rintro v rfl
        exact h i now signers accounts v config₀ hacc hstored
      have hwf' := ConfigField.apply_wellFormed hwf hmin hw.field
      exact hbad' ⟨hwf'.toSound.updatedAt now, hwf'.mixParticipants⟩

/-- Every config of a run is well formed if and only if no accepted update sets the minimum above
the maximum that is stored then. -/
theorem keepsWellFormed_iff (run : List (Invocation Pubkey Digest)) :
    KeepsWellFormed run ↔ MinimumWithinMaximum run :=
  ⟨KeepsWellFormed.minimumWithinMaximum, MinimumWithinMaximum.keepsWellFormed⟩

/-- The admin sets the minimum to seventeen; the maximum is sixteen. -/
theorem minimum_above_maximum :
    ¬ KeepsWellFormed [initializeBy Sample.admin 0,
      (configUpdateBy Sample.admin (.mixMinParticipants 17) 0 : Invocation Sym (List UInt8))] := by
  intro h
  obtain ⟨config, hconfig, hlt⟩ : ∃ config ∈ (ghos.stateAt [initializeBy Sample.admin 0,
      (configUpdateBy Sample.admin (.mixMinParticipants 17) 0 : Invocation Sym (List UInt8))]
      2).config? configPda, ¬ config.mixMinParticipants ≤ config.mixMaxParticipants := by
    decide +kernel
  exact hlt (h 2 configPda config hconfig).mixParticipants

end Ghos
