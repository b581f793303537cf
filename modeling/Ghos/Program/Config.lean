import Ghos.Program.Validation

/-!
# `initialize` and `config_update`
-/

namespace Ghos

variable {Pubkey Digest : Type} [DecidableEq Pubkey] [AddressSpace Pubkey]

/-! ### `initialize` -/

/-- Accounts of `initialize`. -/
structure Initialize (Pubkey : Type) where
  config : Pubkey
  admin : Pubkey
  systemProgram : Pubkey
  deriving DecidableEq

omit [DecidableEq Pubkey] [AddressSpace Pubkey] in
/-- The config that `initialize` writes. -/
def Initialize.newConfig (accounts : Initialize Pubkey) (bump : UInt8) (now : Int64) :
    GhosConfig Pubkey where
  admin := accounts.admin
  version := protocolVersion
  paused := false
  dustFreeUnit := dustFreeUnit
  burnerTtlMax := burnerTtlMaxSeconds
  burnerTtlMin := burnerTtlMinSeconds
  burnerRegistryCap := burnerRegistryCapPerOwner
  mixMinParticipants := mixMinParticipants
  mixMaxParticipants := mixMaxParticipants
  mixRevealWindow := mixRevealWindowSeconds
  auditorCosignLamports := auditorCosignLamports
  lastUpdated := now
  bump := bump
  reserved := .replicate 64 0

omit [DecidableEq Pubkey] [AddressSpace Pubkey] in
/-- The handler of `initialize`. -/
def Initialize.handler (accounts : Initialize Pubkey) (bump : UInt8) (now : Int64) :
    GhosConfig Pubkey × Event Pubkey Digest :=
  let config := accounts.newConfig bump now
  (config, .configInitialized config.admin config.version now)

/-- Create the singleton `GhosConfig` PDA. -/
def ghosInitialize (L : Ledger Pubkey Digest) (now : Int64) (signers : List Pubkey)
    (accounts : Initialize Pubkey) : Result (Ledger Pubkey Digest × Event Pubkey Digest) := do
  checkSigner signers accounts.admin
  checkSystemProgram accounts.systemProgram
  let bump ← initAccount L accounts.config configSeeds
  let (config, event) := accounts.handler bump now
  return (L.set accounts.config (.ghosConfig config), event)

/-! ### `config_update` -/

/-- The knobs and their new values. -/
inductive ConfigField (Pubkey : Type)
  | paused (v : Bool)
  | dustFreeUnit (v : UInt64)
  | burnerTtlMax (v : Int64)
  | burnerTtlMin (v : Int64)
  | burnerRegistryCap (v : UInt16)
  | mixMinParticipants (v : UInt8)
  | mixMaxParticipants (v : UInt8)
  | mixRevealWindow (v : Int64)
  | auditorCosignLamports (v : UInt64)
  | admin (v : Pubkey)
  deriving DecidableEq

namespace ConfigField

omit [DecidableEq Pubkey] [AddressSpace Pubkey]

def tag : ConfigField Pubkey → UInt8
  | .paused _ => 0
  | .dustFreeUnit _ => 1
  | .burnerTtlMax _ => 2
  | .burnerTtlMin _ => 3
  | .burnerRegistryCap _ => 4
  | .mixMinParticipants _ => 5
  | .mixMaxParticipants _ => 6
  | .mixRevealWindow _ => 7
  | .auditorCosignLamports _ => 8
  | .admin _ => 9

/-- The `match field` of the handler: each knob is checked against the stored config. -/
def apply (config : GhosConfig Pubkey) : ConfigField Pubkey → Result (GhosConfig Pubkey)
  | .paused v => return { config with paused := v }
  | .dustFreeUnit v => do
    require (0 < v) (.ghos .amountBelowDustFloor)
    return { config with dustFreeUnit := v }
  | .burnerTtlMax v => do
    require (config.burnerTtlMin < v) (.ghos .burnerTtlOutOfRange)
    return { config with burnerTtlMax := v }
  | .burnerTtlMin v => do
    require (v < config.burnerTtlMax) (.ghos .burnerTtlOutOfRange)
    return { config with burnerTtlMin := v }
  | .burnerRegistryCap v => do
    require (0 < v) (.ghos .burnerCapReached)
    return { config with burnerRegistryCap := v }
  | .mixMinParticipants v => do
    require (2 ≤ v) (.ghos .mixBelowMinimum)
    return { config with mixMinParticipants := v }
  | .mixMaxParticipants v => do
    require (config.mixMinParticipants ≤ v) (.ghos .mixBelowMinimum)
    return { config with mixMaxParticipants := v }
  | .mixRevealWindow v => do
    require (0 < v) (.ghos .mixRevealTimeout)
    return { config with mixRevealWindow := v }
  | .auditorCosignLamports v => return { config with auditorCosignLamports := v }
  | .admin v => return { config with admin := v }

end ConfigField

/-- Accounts of `config_update`. -/
structure ConfigUpdate (Pubkey : Type) where
  config : Pubkey
  admin : Pubkey
  deriving DecidableEq

omit [AddressSpace Pubkey] in
/-- The handler of `config_update`. -/
def ConfigUpdate.handler (accounts : ConfigUpdate Pubkey) (config : GhosConfig Pubkey)
    (now : Int64) (field : ConfigField Pubkey) :
    Result (GhosConfig Pubkey × Event Pubkey Digest) := do
  assertAdmin config accounts.admin
  let config ← field.apply config
  return ({ config with lastUpdated := now }, .configUpdated accounts.admin field.tag now)

/-- Admin-only knob updates. -/
def configUpdate (L : Ledger Pubkey Digest) (now : Int64) (signers : List Pubkey)
    (accounts : ConfigUpdate Pubkey) (field : ConfigField Pubkey) :
    Result (Ledger Pubkey Digest × Event Pubkey Digest) := do
  let config ← loadAccount Account.asConfig L accounts.config
  checkSigner signers accounts.admin
  checkSeeds accounts.config configSeeds config.bump
  let (config, event) ← accounts.handler config now field
  return (L.set accounts.config (.ghosConfig config), event)

/-! ### Sound configs -/

/-- The bounds that `config_update` checks, one knob at a time. -/
structure GhosConfig.Sound (config : GhosConfig Pubkey) : Prop where
  dustFreeUnit : 0 < config.dustFreeUnit
  burnerTtl : config.burnerTtlMin < config.burnerTtlMax
  burnerRegistryCap : 0 < config.burnerRegistryCap
  mixMinParticipants : 2 ≤ config.mixMinParticipants
  mixRevealWindow : 0 < config.mixRevealWindow

omit [DecidableEq Pubkey] [AddressSpace Pubkey] in
/-- The defaults pass their own checks. -/
theorem Initialize.newConfig_sound (accounts : Initialize Pubkey) (bump : UInt8) (now : Int64) :
    (accounts.newConfig bump now).Sound where
  dustFreeUnit := (by decide : 0 < Ghos.dustFreeUnit)
  burnerTtl := (by decide : burnerTtlMinSeconds < burnerTtlMaxSeconds)
  burnerRegistryCap := (by decide : 0 < burnerRegistryCapPerOwner)
  mixMinParticipants := (by decide : 2 ≤ Ghos.mixMinParticipants)
  mixRevealWindow := (by decide : 0 < mixRevealWindowSeconds)

omit [DecidableEq Pubkey] [AddressSpace Pubkey] in
theorem GhosConfig.Sound.updatedAt {config : GhosConfig Pubkey} (h : config.Sound) (now : Int64) :
    { config with lastUpdated := now }.Sound :=
  ⟨h.dustFreeUnit, h.burnerTtl, h.burnerRegistryCap, h.mixMinParticipants, h.mixRevealWindow⟩

omit [DecidableEq Pubkey] [AddressSpace Pubkey] in
theorem ConfigField.apply_sound {config config' : GhosConfig Pubkey} {field : ConfigField Pubkey}
    (hs : config.Sound) (h : field.apply config = .ok config') : config'.Sound := by
  obtain ⟨h1, h2, h3, h4, h5⟩ := hs
  cases field <;> simp [ConfigField.apply] at h
  case paused v => subst h; exact ⟨h1, h2, h3, h4, h5⟩
  case dustFreeUnit v => obtain ⟨hv, rfl⟩ := h; exact ⟨hv, h2, h3, h4, h5⟩
  case burnerTtlMax v => obtain ⟨hv, rfl⟩ := h; exact ⟨h1, hv, h3, h4, h5⟩
  case burnerTtlMin v => obtain ⟨hv, rfl⟩ := h; exact ⟨h1, hv, h3, h4, h5⟩
  case burnerRegistryCap v => obtain ⟨hv, rfl⟩ := h; exact ⟨h1, h2, hv, h4, h5⟩
  case mixMinParticipants v => obtain ⟨hv, rfl⟩ := h; exact ⟨h1, h2, h3, hv, h5⟩
  case mixMaxParticipants v => obtain ⟨-, rfl⟩ := h; exact ⟨h1, h2, h3, h4, h5⟩
  case mixRevealWindow v => obtain ⟨hv, rfl⟩ := h; exact ⟨h1, h2, h3, h4, hv⟩
  case auditorCosignLamports v => subst h; exact ⟨h1, h2, h3, h4, h5⟩
  case admin v => subst h; exact ⟨h1, h2, h3, h4, h5⟩

end Ghos
