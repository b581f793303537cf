import Ghos.Config.Authority
import Ghos.Program.CallRequests

/-!
# Which limits are enforced

`config_update` stores limits, but the checks of `shield`, `withdraw`, `create_burner` and
`mix_init` compare with the constants of the program.  So the stored limits are respected exactly as
long as they are no stricter than the constants (`liveConfigEnforced_iff`).
-/

namespace Ghos

variable {Pubkey Digest World : Type} [DecidableEq Pubkey] [DecidableEq Digest]
  [AddressSpace Pubkey] [Sha256 Digest] [External Pubkey World] {c c' : Chain Pubkey Digest}
  {world : World} {now : Int64} {signers : List Pubkey} {config : GhosConfig Pubkey}

section Limits

omit [DecidableEq Pubkey] [DecidableEq Digest] [AddressSpace Pubkey] [Sha256 Digest]
  [External Pubkey World]

/-- The amount is a positive multiple of the unit of the config. -/
def GhosConfig.AllowsAmount (config : GhosConfig Pubkey) (amount : UInt64) : Prop :=
  config.dustFreeUnit ≤ amount ∧ amount % config.dustFreeUnit = 0

def GhosConfig.AllowsTtl (config : GhosConfig Pubkey) (ttl : Int64) : Prop :=
  config.burnerTtlMin ≤ ttl ∧ ttl ≤ config.burnerTtlMax

def GhosConfig.AllowsCapacity (config : GhosConfig Pubkey) (capacity : UInt8) : Prop :=
  config.mixMinParticipants ≤ capacity ∧ capacity ≤ config.mixMaxParticipants

/-- The arguments of the call are within the limits of the config. -/
def GhosConfig.Allows (config : GhosConfig Pubkey) : Entrypoint Pubkey Digest → Prop
  | .shield _ amount => config.AllowsAmount amount
  | .withdraw _ amount _ => config.AllowsAmount amount
  | .createBurner _ _ ttl => config.AllowsTtl ttl
  | .core (.mixInit _ _ _ capacity _) => config.AllowsCapacity capacity
  | _ => True

/-- What the constants of the program allow, the config allows. -/
structure GhosConfig.NoStricter (config : GhosConfig Pubkey) : Prop where
  dustFreeUnit : Ghos.dustFreeUnit % config.dustFreeUnit = 0
  burnerTtlMin : config.burnerTtlMin ≤ burnerTtlMinSeconds
  burnerTtlMax : burnerTtlMaxSeconds ≤ config.burnerTtlMax
  mixMinParticipants : config.mixMinParticipants ≤ Ghos.mixMinParticipants
  mixMaxParticipants : Ghos.mixMaxParticipants ≤ config.mixMaxParticipants

theorem GhosConfig.NoStricter.allowsAmount (h : config.NoStricter) {amount : UInt64}
    (ha : Ghos.dustFreeUnit ≤ amount ∧ amount % Ghos.dustFreeUnit = 0) :
    config.AllowsAmount amount := by
  have hunit := UInt64.mod_eq_zero_iff.1 h.dustFreeUnit
  refine ⟨?_, UInt64.mod_eq_zero_iff.2 (hunit.trans (UInt64.mod_eq_zero_iff.1 ha.2))⟩
  exact UInt64.le_trans (UInt64.le_iff_toNat_le.2 (Nat.le_of_dvd (by decide) hunit)) ha.1

theorem GhosConfig.NoStricter.allowsTtl (h : config.NoStricter) {ttl : Int64}
    (ht : burnerTtlMinSeconds ≤ ttl ∧ ttl ≤ burnerTtlMaxSeconds) : config.AllowsTtl ttl :=
  ⟨Int64.le_trans h.burnerTtlMin ht.1, Int64.le_trans ht.2 h.burnerTtlMax⟩

theorem GhosConfig.NoStricter.allowsCapacity (h : config.NoStricter) {capacity : UInt8}
    (hc : Ghos.mixMinParticipants ≤ capacity ∧ capacity ≤ Ghos.mixMaxParticipants) :
    config.AllowsCapacity capacity :=
  ⟨UInt8.le_trans h.mixMinParticipants hc.1, UInt8.le_trans hc.2 h.mixMaxParticipants⟩

end Limits

/-- Whatever call the program accepts, its arguments are within the limits of the config in
force. -/
def Enforced (c : Chain Pubkey Digest) : Prop :=
  ∀ t config, c.config = some config → program.Accepts c t → config.Allows t.entrypoint

/-- An accepted call is within the limits of a config that is no stricter than the constants. -/
theorem CallEffect.allows {entrypoint : Entrypoint Pubkey Digest} (hL : WellAddressed c.ledger)
    (h : CallEffect c world now signers entrypoint c')
    (hconfig : ∀ config, c.config = some config → config.paused = false → config.NoStricter)
    (hc : c.config = some config) : config.Allows entrypoint := by
  have eq_config : ∀ {a : Pubkey} {config' : GhosConfig Pubkey},
      IsConfigAt c.ledger a config' → config' = config := fun hat =>
    Option.some.inj ((hat.eq_config hL).symm.trans hc)
  cases h with
  | shield h =>
    obtain rfl := eq_config h.configAt
    exact (hconfig _ hc h.unpaused).allowsAmount h.dustFree
  | withdraw h =>
    obtain rfl := eq_config h.configAt
    exact (hconfig _ hc h.unpaused).allowsAmount h.dustFree
  | createBurner h =>
    obtain rfl := eq_config h.configAt
    exact (hconfig _ hc h.unpaused).allowsTtl h.ttl
  | core h =>
    cases step_effect h with
    | mixInit h =>
      obtain rfl := eq_config h.configAt
      exact (hconfig _ hc h.unpaused).allowsCapacity h.capacity
    | _ => trivial
  | _ => trivial

/-- In every state of the run the limits of the config in force are enforced. -/
def LiveConfigEnforced (run : List (Call Pubkey Digest World)) : Prop :=
  ∀ n, Enforced (program.stateAt run n)

/-! ### Calls at the constants -/

section Reachable

variable (h : program.Reachable c)
  (hc : c.config = some config) (hu : config.paused = false)
include h hc hu

/-- A new round may have any number of participants between the two constants. -/
theorem exists_accepts_mixInitBy {capacity : UInt8}
    (hcap : mixMinParticipants ≤ capacity ∧ capacity ≤ mixMaxParticipants) (world : World) :
    ∃ mint, program.Accepts c ((mixInitBy mint mint 0 1 capacity 1 0).toCall world) := by
  obtain ⟨mint, hfree⟩ := exists_isFree h (f := fun mint => mixRoundPda mint 0)
    fun _ _ heq => (mixRoundPda_inj.1 heq).1
  refine ⟨mint, accepts_toCall_iff.2 ?_⟩
  rw [accepts_mixInitBy_iff (wellAddressed_of_reachable (ledger_reachable h))]
  exact ⟨config, hc, hu, (Chain.isFree_iff.1 hfree).1, hcap, by decide, by decide⟩

/-- A new burner may live for any time between the two constants. -/
theorem exists_accepts_createBurnerBy {ttl : Int64}
    (httl : burnerTtlMinSeconds ≤ ttl ∧ ttl ≤ burnerTtlMaxSeconds) (world : World) :
    ∃ owner, program.Accepts c (createBurnerBy owner owner 0 ttl 0 world) := by
  obtain ⟨owner, hfree⟩ := exists_isFree h (f := fun owner => burnerPda owner 0)
    fun _ _ heq => (burnerPda_inj.1 heq).1
  refine ⟨owner, ?_⟩
  rw [accepts_createBurnerBy_iff (wellAddressed_of_reachable (ledger_reachable h))]
  exact ⟨config, hc, hu, hfree, httl⟩

/-- Token-2022 may let a deposit of the unit through. -/
theorem noStricter_of_enforced {owner confidentialAta mint : Pubkey}
    (hdep : Depositable world owner confidentialAta mint dustFreeUnit) (henf : Enforced c) :
    config.NoStricter := by
  have hcapacity : ∀ capacity, mixMinParticipants ≤ capacity ∧ capacity ≤ mixMaxParticipants →
      config.AllowsCapacity capacity := fun capacity hcap => by
    obtain ⟨mint, hacc⟩ := exists_accepts_mixInitBy h hc hu hcap world
    exact henf _ config hc hacc
  have httl : ∀ ttl, burnerTtlMinSeconds ≤ ttl ∧ ttl ≤ burnerTtlMaxSeconds →
      config.AllowsTtl ttl := fun ttl httl => by
    obtain ⟨owner, hacc⟩ := exists_accepts_createBurnerBy h hc hu httl world
    exact henf _ config hc hacc
  have hshield : program.Accepts c (shieldBy owner confidentialAta mint dustFreeUnit 0 world) := by
    rw [accepts_shieldBy_iff (wellAddressed_of_reachable (ledger_reachable h))]
    exact ⟨config, hc, hu, by decide, hdep⟩
  have hunit : config.AllowsAmount dustFreeUnit := henf _ config hc hshield
  exact ⟨hunit.2, (httl _ (by decide)).1, (httl _ (by decide)).2, (hcapacity _ (by decide)).1,
    (hcapacity _ (by decide)).2⟩

end Reachable

/-- Where Token-2022 may let a deposit of the unit through, the config is enforced in a run if and
only if no config of the run is stricter than the constants while the program is not paused. -/
theorem liveConfigEnforced_iff
    (hdep : ∃ (world : World) (owner confidentialAta mint : Pubkey),
      Depositable world owner confidentialAta mint dustFreeUnit)
    (run : List (Call Pubkey Digest World)) :
    LiveConfigEnforced run ↔ ∀ n config, configAt run n = some config → config.paused = false →
      config.NoStricter := by
  obtain ⟨world, owner, confidentialAta, mint, hdep⟩ := hdep
  constructor
  · intro henf n config hc hu
    exact noStricter_of_enforced (Machine.reachable_stateAt run n) hc hu hdep (henf n)
  · intro hconfig n t config hc hacc
    exact (callEffect_of_accepts hacc).allows (wellAddressed_ledgerAt run n) (hconfig n) hc

namespace Sample

/-- Token-2022 takes the deposit of a wallet. -/
theorem depositable : Depositable () host (confidentialAta 2) mint dustFreeUnit where
  account := ⟨rfl, _, rfl, rfl, rfl, _, rfl, List.mem_singleton_self _⟩
  deposit := ⟨_, ⟨rfl, rfl, _, rfl, List.mem_singleton_self _⟩, (), rfl⟩

/-- The admin lowers the maximum of participants to eight. -/
def loweredMaximum : List (Call Sym (List UInt8) Unit) :=
  [(initializeBy admin 0).toCall (), (configUpdateBy admin (.mixMaxParticipants 8) 1).toCall ()]

end Sample

theorem liveConfigEnforced_iff_sample :
    LiveConfigEnforced Sample.loweredMaximum ↔
      ∀ n config, configAt Sample.loweredMaximum n = some config → config.paused = false →
        config.NoStricter :=
  liveConfigEnforced_iff ⟨(), _, _, _, Sample.depositable⟩ Sample.loweredMaximum

/-- A round of sixteen is opened all the same. -/
theorem lowered_maximum_not_enforced : ¬ LiveConfigEnforced Sample.loweredMaximum := by
  intro h
  obtain ⟨config, hc, hmax⟩ :
      ∃ config ∈ configAt Sample.loweredMaximum 2, config.mixMaxParticipants = 8 := by
    decide +kernel
  have hcap : config.AllowsCapacity 16 :=
    h 2 ((mixInitBy Sample.host Sample.mint 0 100 16 1000 2).toCall ()) config hc
      (by decide +kernel)
  rw [GhosConfig.AllowsCapacity, hmax] at hcap
  exact absurd hcap.2 (by decide)

end Ghos
