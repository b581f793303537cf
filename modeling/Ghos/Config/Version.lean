import Ghos.Program.CallRequests

/-!
# The protocol version

The config records the version of the binary that created it, and `assert_protocol_version` compares
it with the constant of the running binary.  No handler calls the guard.  So a config of another
version is turned away exactly when its address is wrong (`versionGated_iff`).
-/

namespace Ghos

variable {Pubkey Digest World : Type} [DecidableEq Pubkey] [DecidableEq Digest]
  [AddressSpace Pubkey] [Sha256 Digest] [External Pubkey World] {c c' : Chain Pubkey Digest}
  {world : World} {now : Int64} {signers : List Pubkey} {config : GhosConfig Pubkey}

section Definitions

omit [DecidableEq Pubkey] [DecidableEq Digest] [AddressSpace Pubkey] [Sha256 Digest]
  [External Pubkey World]

/-- Guard: the version stored on-chain must match the compile time constant. -/
def assertProtocolVersion (config : GhosConfig Pubkey) (expected : UInt16) : Result Unit :=
  require (config.version = expected) (.ghos .protocolVersionMismatch)

theorem assertProtocolVersion_eq_ok {expected : UInt16} {u : Unit} :
    assertProtocolVersion config expected = .ok u ↔ config.version = expected := by
  simp [assertProtocolVersion]

/-- The config account that an instruction reads; `initialize` reads none. -/
def Entrypoint.configAccount : Entrypoint Pubkey Digest → Option Pubkey
  | .core (.ghosInitialize _) => none
  | .core (.configUpdate accounts _) => some accounts.config
  | .core (.mixInit accounts _ _ _ _) => some accounts.config
  | .core (.mixCommit accounts _) => some accounts.config
  | .core (.mixReveal accounts _ _) => some accounts.config
  | .core (.mixSettle accounts) => some accounts.config
  | .shield accounts _ => some accounts.config
  | .applyPending accounts _ _ => some accounts.config
  | .confidentialTransfer accounts _ _ => some accounts.config
  | .withdraw accounts _ _ => some accounts.config
  | .createBurner accounts _ _ => some accounts.config
  | .destroyBurner accounts _ => some accounts.config
  | .auditorRegister accounts _ _ _ => some accounts.config
  | .auditorRotate accounts _ _ => some accounts.config

end Definitions

/-- An accepted instruction has found its config at the address of the seeds. -/
theorem CallEffect.isConfigAt {entrypoint : Entrypoint Pubkey Digest} {a : Pubkey}
    (h : CallEffect c world now signers entrypoint c') (ha : entrypoint.configAccount = some a) :
    ∃ config, IsConfigAt c.ledger a config := by
  cases h with
  | core h =>
    cases step_effect h with
    | ghosInitialize h => cases ha
    | configUpdate h => exact Option.some.inj ha ▸ ⟨_, h.configAt⟩
    | mixInit h => exact Option.some.inj ha ▸ ⟨_, h.configAt⟩
    | mixCommit h => exact Option.some.inj ha ▸ ⟨_, h.configAt⟩
    | mixReveal h => exact Option.some.inj ha ▸ ⟨_, h.configAt⟩
    | mixSettle h => exact Option.some.inj ha ▸ ⟨_, h.configAt⟩
  | shield h => exact Option.some.inj ha ▸ ⟨_, h.configAt⟩
  | applyPending h => exact Option.some.inj ha ▸ ⟨_, h.configAt⟩
  | confidentialTransfer h => exact Option.some.inj ha ▸ ⟨_, h.configAt⟩
  | withdraw h => exact Option.some.inj ha ▸ ⟨_, h.configAt⟩
  | createBurner h => exact Option.some.inj ha ▸ ⟨_, h.configAt⟩
  | destroyBurner h => exact Option.some.inj ha ▸ ⟨_, h.configAt⟩
  | auditorRegister h => exact Option.some.inj ha ▸ ⟨_, h.configAt⟩
  | auditorRotate h => exact Option.some.inj ha ▸ ⟨_, h.configAt⟩

/-- The admin of a config in its place may always pause the program. -/
theorem accepts_pause {a : Pubkey} (h : IsConfigAt c.ledger a config) (world : World) :
    program.Accepts c ⟨0, [config.admin], world,
      .core (.configUpdate ⟨a, config.admin⟩ (.paused true))⟩ :=
  accepts_core_iff.2 ⟨(_, _), configUpdate_eq_ok.2
    ⟨config, _, ⟨h, List.mem_singleton_self _, rfl, rfl⟩, rfl, rfl⟩⟩

variable (World) in
/-- Where the account holds a config of another version, every instruction that names it fails and
changes nothing. -/
def VersionGated (c : Chain Pubkey Digest) (a : Pubkey) : Prop :=
  ∀ config, c.ledger.config? a = some config →
    assertProtocolVersion config protocolVersion ≠ .ok () →
    ∀ t : Call Pubkey Digest World, t.entrypoint.configAccount = some a →
      ¬ program.Accepts c t ∧ program.next c t = c ∧ t.worldAfter c = t.world

/-- The version gates the instructions exactly at those accounts that do not hold a config of
another version at the address of the config seeds with its own bump. -/
theorem versionGated_iff [Inhabited World] (c : Chain Pubkey Digest) (a : Pubkey) :
    VersionGated World c a ↔
      ∀ config, IsConfigAt c.ledger a config → config.version = protocolVersion := by
  constructor
  · intro hgate config hat
    by_contra hversion
    have hgated := hgate config hat.stored fun hok => hversion (assertProtocolVersion_eq_ok.1 hok)
    exact (hgated ⟨0, [config.admin], default, .core (.configUpdate ⟨a, config.admin⟩
      (.paused true))⟩ rfl).1 (accepts_pause hat default)
  · intro hplaced config hstored hversion t ha
    have hrejected : ¬ program.Accepts c t := fun hacc => by
      obtain ⟨config', hat⟩ := (callEffect_of_accepts hacc).isConfigAt ha
      obtain rfl := Option.some.inj (hat.stored.symm.trans hstored)
      exact hversion (assertProtocolVersion_eq_ok.2 (hplaced config' hat))
    exact ⟨hrejected, Machine.next_of_not_accepts hrejected,
      t.worldAfter_of_not_accepts hrejected⟩

namespace Sample

/-- The config of a later version. -/
def laterVersion : GhosConfig Sym :=
  { Initialize.newConfig ⟨configPda, admin, systemProgramId⟩ 255 0 with version := 0x0402 }

/-- A chain that holds it. -/
def laterChain : Chain Sym (List UInt8) :=
  ⟨Store.set (fun _ => none) configPda (.ghosConfig laterVersion), fun _ => none, fun _ => none⟩

end Sample

/-- This binary pauses a program whose config belongs to a later one. -/
theorem later_version_is_paused : ¬ VersionGated Unit Sample.laterChain configPda := by
  intro h
  have hrejected := h Sample.laterVersion (by decide +kernel) (by decide +kernel)
    ((configUpdateBy Sample.admin (.paused true) 1).toCall ()) rfl
  exact hrejected.1 (by decide +kernel)

end Ghos
