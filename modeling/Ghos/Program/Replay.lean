import Ghos.Lib.StoreMaps
import Ghos.Mix.Events
import Ghos.Config.Authority

/-!
# What the events tell

A watcher sees the events of the program and not its accounts.  `Tracked` is what such an observer
can keep, `Tracked.apply` what one event adds to it, and `Chain.tracked` the same part of the
accounts.  After every run the two agree (`replay_log`): the events are a complete record of

* the terms of every round, its counters and how far it has come, except whether it was settled or
  aborted;
* every commitment, its index and whether it has been revealed;
* the auditor of every mint, except its cooldown;
* how many live entries there are of each owner and burner, though not their nonces;
* the version of the config and when it was last changed, though not to what.
-/

namespace Ghos

/-! ### The observer -/

/-- How far a round has come, as events show it. -/
inductive TrackedStage
  | commit
  | reveal
  | settling
  | closed
  deriving DecidableEq

/-- A round as events show it. -/
structure TrackedRound (Pubkey : Type) where
  mint : Pubkey
  denomination : UInt64
  capacity : UInt8
  openedAt : Int64
  committed : UInt8
  revealed : UInt8
  stage : TrackedStage
  closedAt : Int64
  deriving DecidableEq

/-- A commitment as events show it. -/
structure TrackedCommitment (Digest : Type) where
  commitment : Digest
  index : UInt8
  revealed : Bool
  deriving DecidableEq

/-- An auditor as events show it. -/
structure TrackedAuditor (Pubkey : Type) where
  auditorPubkey : Vector UInt8 32
  admin : Pubkey
  registeredAt : Int64
  lastRotatedAt : Int64
  deriving DecidableEq

/-- What an observer keeps. -/
@[ext]
structure Tracked (Pubkey Digest : Type) where
  config : Option (UInt16 × Int64)
  rounds : Store Pubkey (TrackedRound Pubkey)
  commitments : Store (Pubkey × Pubkey) (TrackedCommitment Digest)
  auditors : Store Pubkey (TrackedAuditor Pubkey)
  burners : Pubkey × Pubkey → ℕ

namespace TrackedRound

variable {Pubkey : Type}

/-- One more commitment. -/
def join (r : TrackedRound Pubkey) : TrackedRound Pubkey :=
  { r with
    committed := r.committed.saturatingAdd 1
    stage := if r.committed.saturatingAdd 1 = r.capacity then .reveal else .commit }

/-- One more reveal. -/
def reveal (r : TrackedRound Pubkey) : TrackedRound Pubkey :=
  { r with
    revealed := r.revealed.saturatingAdd 1
    stage := if r.revealed.saturatingAdd 1 = r.committed then .settling else .reveal }

/-- The end of the round. -/
def close (r : TrackedRound Pubkey) (now : Int64) : TrackedRound Pubkey :=
  { r with stage := .closed, closedAt := now }

end TrackedRound

namespace Tracked

variable {Pubkey Digest : Type} [DecidableEq Pubkey]

omit [DecidableEq Pubkey] in
/-- Before any event. -/
def empty : Tracked Pubkey Digest :=
  ⟨none, fun _ => none, fun _ => none, fun _ => none, fun _ => 0⟩

/-- What an event of the config or of a round adds. -/
def applyEvent (k : Tracked Pubkey Digest) : Event Pubkey Digest → Tracked Pubkey Digest
  | .configInitialized _ version timestamp => { k with config := some (version, timestamp) }
  | .configUpdated _ _ timestamp => { k with config := k.config.map fun c => (c.1, timestamp) }
  | .mixRoundOpened round mint denomination capacity openedAt =>
    { k with
      rounds := k.rounds.set round ⟨mint, denomination, capacity, openedAt, 0, 0, .commit, 0⟩ }
  | .mixCommitted round participant commitment index =>
    { k with
      rounds := k.rounds.modify round TrackedRound.join
      commitments := k.commitments.set (round, participant) ⟨commitment, index, false⟩ }
  | .mixRevealed round participant _ =>
    { k with
      rounds := k.rounds.modify round TrackedRound.reveal
      commitments := k.commitments.modify (round, participant)
        fun c => { c with revealed := true } }
  | .mixSettled round _ settledAt =>
    { k with rounds := k.rounds.modify round fun r => r.close settledAt }

/-- What an event of a token instruction or of a registry adds. -/
def applyRegistryEvent (k : Tracked Pubkey Digest) :
    RegistryEvent Pubkey → Tracked Pubkey Digest
  | .burnerCreated owner burner _ _ =>
    { k with burners := Function.update k.burners (owner, burner) (k.burners (owner, burner) + 1) }
  | .burnerDestroyed owner burner _ =>
    { k with burners := Function.update k.burners (owner, burner) (k.burners (owner, burner) - 1) }
  | .auditorRegistered mint auditorPubkey admin timestamp =>
    { k with auditors := k.auditors.set mint ⟨auditorPubkey, admin, timestamp, timestamp⟩ }
  | .auditorRotated mint _ newPubkey timestamp =>
    { k with
      auditors := k.auditors.modify mint
        fun a => { a with auditorPubkey := newPubkey, lastRotatedAt := timestamp } }
  | _ => k

/-- What an event adds. -/
def apply (k : Tracked Pubkey Digest) :
    Event Pubkey Digest ⊕ RegistryEvent Pubkey → Tracked Pubkey Digest
  | .inl event => k.applyEvent event
  | .inr event => k.applyRegistryEvent event

/-- What an observer keeps after the events of a log. -/
def replay (log : List (Event Pubkey Digest ⊕ RegistryEvent Pubkey)) : Tracked Pubkey Digest :=
  log.foldl apply empty

end Tracked

/-! ### The accounts as the observer sees them -/

section Projection

variable {Pubkey Digest : Type}

def TrackedStage.of : MixPhase → TrackedStage
  | .open => .commit
  | .commit => .commit
  | .reveal => .reveal
  | .settling => .settling
  | .settled => .closed
  | .aborted => .closed

def TrackedRound.of (r : MixRound Pubkey) : TrackedRound Pubkey where
  mint := r.mint
  denomination := r.denomination
  capacity := r.capacity
  openedAt := r.openedAt
  committed := r.committed
  revealed := r.revealed
  stage := .of r.phase
  closedAt := r.settledAt

def TrackedCommitment.of (c : MixCommitment Pubkey Digest) : TrackedCommitment Digest where
  commitment := c.commitment
  index := c.index
  revealed := c.revealed

def TrackedAuditor.of (e : AuditorEntry Pubkey) : TrackedAuditor Pubkey where
  auditorPubkey := e.auditorPubkey
  admin := e.admin
  registeredAt := e.registeredAt
  lastRotatedAt := e.lastRotatedAt

/-- Whose burner an entry is. -/
def BurnerAccount.party (e : BurnerAccount Pubkey) : Pubkey × Pubkey := (e.owner, e.burnerPubkey)

variable [AddressSpace Pubkey]

/-- The part of the accounts that events show. -/
noncomputable def Chain.tracked (c : Chain Pubkey Digest) : Tracked Pubkey Digest where
  config := c.config.map fun config => (config.version, config.lastUpdated)
  rounds := Store.image TrackedRound.of c.ledger.round?
  commitments := Store.image TrackedCommitment.of
    (Store.reindex (fun k => mixCommitmentPda k.1 k.2) c.ledger.commitment?)
  auditors := Store.image TrackedAuditor.of (Store.reindex auditorPda c.auditors)
  burners := Store.census BurnerAccount.party c.burners

omit [AddressSpace Pubkey] in
theorem TrackedRound.of_joined (r : MixRound Pubkey) : of r.joined = (of r).join := by
  unfold MixRound.joined join of
  split_ifs <;> rfl

omit [AddressSpace Pubkey] in
theorem TrackedRound.of_opened (r : MixRound Pubkey) : of r.opened = (of r).reveal := by
  unfold MixRound.opened reveal of
  split_ifs <;> rfl

omit [AddressSpace Pubkey] in
theorem TrackedRound.of_closed (r : MixRound Pubkey) (config : GhosConfig Pubkey) (now : Int64) :
    of (r.closed config now) = (of r).close now := by
  unfold MixRound.closed close of
  split_ifs <;> rfl

end Projection

/-! ### One event -/

section Step

variable {Pubkey Digest : Type} [AddressSpace Pubkey]

theorem injective_mixCommitmentPda :
    Function.Injective fun k : Pubkey × Pubkey => mixCommitmentPda k.1 k.2 := by
  rintro ⟨R, p⟩ ⟨R', p'⟩ h
  obtain ⟨hR, hp⟩ := mixCommitmentPda_inj.1 h
  exact Prod.ext hR hp

theorem injective_auditorPda : Function.Injective (auditorPda : Pubkey → Pubkey) := fun _ _ h =>
  concat_auditorSeeds_inj.1 (findProgramAddress_injective h)

variable [DecidableEq Pubkey] [DecidableEq Digest] [Sha256 Digest]

/-- The event of an instruction tells an observer of the ledger what it has changed. -/
theorem tracked_core {c : Chain Pubkey Digest} (hL : WellAddressed c.ledger)
    {t : Invocation Pubkey Digest} {L' : Ledger Pubkey Digest} {e : Event Pubkey Digest}
    (h : ghos.step c.ledger t = .ok (L', e)) :
    { c with ledger := L' }.tracked = c.tracked.applyEvent e := by
  obtain ⟨now, signers, instruction⟩ := t
  have heff := step_effect h
  have hemit := step_emits h
  dsimp only at heff hemit
  cases heff with
  | @ghosInitialize accounts _ ha v =>
    subst hemit
    refine Tracked.ext ?_ ?_ ?_ rfl rfl
    · show (L'.config? configPda).map _ = some (protocolVersion, now)
      rw [v.config, ha.address, Store.set_self]
      rfl
    · exact congrArg (Store.image TrackedRound.of) v.round
    · exact congrArg (fun S => Store.image TrackedCommitment.of (Store.reindex _ S)) v.commitment
  | @configUpdate accounts field config config' _ ha v =>
    subst hemit
    have haddr : accounts.config = configPda := hL.config_eq ha.configAt.stored
    have hconfig : c.ledger.config? configPda = some config := haddr ▸ ha.configAt.stored
    refine Tracked.ext ?_ ?_ ?_ rfl rfl
    · show (L'.config? configPda).map _ = Option.map _ (Option.map _ (c.ledger.config? configPda))
      rw [v.config, haddr, Store.set_self, hconfig]
      show some (config'.version, now) = some (config.version, now)
      rw [ConfigField.apply_version ha.field]
    · exact congrArg (Store.image TrackedRound.of) v.round
    · exact congrArg (fun S => Store.image TrackedCommitment.of (Store.reindex _ S)) v.commitment
  | @mixInit accounts roundId denomination capacity window config _ ha v =>
    subst hemit
    refine Tracked.ext ?_ ?_ ?_ rfl rfl
    · show (L'.config? configPda).map _ = (c.ledger.config? configPda).map _
      rw [v.config]
    · show Store.image TrackedRound.of L'.round? = Store.set (Store.image _ _) accounts.round _
      rw [v.round, Store.image_set]
      rfl
    · exact congrArg (fun S => Store.image TrackedCommitment.of (Store.reindex _ S)) v.commitment
  | @mixCommit accounts commitmentBytes config round _ ha v =>
    obtain ⟨r, hr, rfl⟩ := hemit
    obtain rfl := Option.some.inj (hr.symm.trans ha.roundAt)
    refine Tracked.ext ?_ ?_ ?_ rfl rfl
    · show (L'.config? configPda).map _ = (c.ledger.config? configPda).map _
      rw [v.config]
    · show Store.image TrackedRound.of L'.round? =
        Store.modify (Store.image TrackedRound.of c.ledger.round?) accounts.round _
      rw [v.round, Store.image_set, Store.modify_eq_set (Store.image_eq_some hr),
        TrackedRound.of_joined]
    · show Store.image TrackedCommitment.of (Store.reindex _ L'.commitment?) =
        Store.set (Store.image _ (Store.reindex _ c.ledger.commitment?))
          (accounts.round, accounts.participant) _
      rw [v.commitment, ha.address,
        Store.reindex_set injective_mixCommitmentPda _ (accounts.round, accounts.participant),
        Store.image_set]
      rfl
  | @mixReveal accounts preimage revealSignal config round commit _ ha v =>
    obtain ⟨m, hm, rfl⟩ := hemit
    obtain rfl := Option.some.inj (hm.symm.trans ha.commitmentAt)
    obtain ⟨-, haddr⟩ := ha.owner hL
    have hstored : Store.reindex (fun k : Pubkey × Pubkey => mixCommitmentPda k.1 k.2)
        c.ledger.commitment? (accounts.round, accounts.participant) = some m :=
      Store.reindex_eq_some (haddr ▸ hm)
    refine Tracked.ext ?_ ?_ ?_ rfl rfl
    · show (L'.config? configPda).map _ = (c.ledger.config? configPda).map _
      rw [v.config]
    · show Store.image TrackedRound.of L'.round? =
        Store.modify (Store.image TrackedRound.of c.ledger.round?) accounts.round _
      rw [v.round, Store.image_set, Store.modify_eq_set (Store.image_eq_some ha.roundAt),
        TrackedRound.of_opened]
    · show Store.image TrackedCommitment.of (Store.reindex _ L'.commitment?) =
        Store.modify (Store.image _ (Store.reindex _ c.ledger.commitment?))
          (accounts.round, m.participant) _
      rw [v.commitment, haddr, ha.participant,
        Store.reindex_set injective_mixCommitmentPda _ (accounts.round, accounts.participant),
        Store.image_set, Store.modify_eq_set (Store.image_eq_some hstored)]
      rfl
  | @mixSettle accounts config round _ ha v =>
    obtain ⟨r, hr, rfl⟩ := hemit
    obtain rfl := Option.some.inj (hr.symm.trans ha.roundAt)
    refine Tracked.ext ?_ ?_ ?_ rfl rfl
    · show (L'.config? configPda).map _ = (c.ledger.config? configPda).map _
      rw [v.config]
    · show Store.image TrackedRound.of L'.round? =
        Store.modify (Store.image TrackedRound.of c.ledger.round?) accounts.round _
      rw [v.round, Store.image_set, Store.modify_eq_set (Store.image_eq_some hr),
        TrackedRound.of_closed]
    · exact congrArg (fun S => Store.image TrackedCommitment.of (Store.reindex _ S)) v.commitment

theorem finite_fiber [External Pubkey World]
    {c : Chain Pubkey Digest}
    (hreach : program.Reachable c)
    (k : Pubkey × Pubkey) : (c.burners.fiber BurnerAccount.party k).Finite := by
  refine (finite_occupied hreach).subset ?_
  rintro a ⟨e, he, -⟩
  exact Chain.mem_occupied.2 (.inr (.inr (by rw [he]; exact Option.some_ne_none e)))

/-- The event of a call tells an observer what the call has changed. -/
theorem tracked_step [External Pubkey World] {c c' : Chain Pubkey Digest}
    (hreach : program.Reachable c)
    {t : Call Pubkey Digest World} {o : Output Pubkey Digest World}
    (h : program.step c t = .ok (c', o)) : c'.tracked = c.tracked.apply o.1 := by
  obtain ⟨now, signers, world, entrypoint⟩ := t
  have hreg := registered_of_reachable hreach
  cases entrypoint <;>
    simp only [program, Call.dispatch, Outcome.bind_eq_ok, Outcome.lift_eq_ok, Prod.exists,
      Outcome.pure_eq_ok, Prod.mk.injEq] at h
  case core instruction =>
    obtain ⟨L', event, h, rfl, rfl⟩ := h
    exact tracked_core (wellAddressed_of_reachable (ledger_reachable hreach)) h
  case shield accounts amount =>
    obtain ⟨event, world', h, rfl, rfl⟩ := h
    obtain ⟨config, mint, -, rfl⟩ := shield_eq_ok.1 h
    rfl
  case applyPending accounts counter balance =>
    obtain ⟨event, world', h, rfl, rfl⟩ := h
    obtain ⟨config, -, rfl⟩ := applyPending_eq_ok.1 h
    rfl
  case confidentialTransfer accounts owner balance =>
    obtain ⟨event, world', h, rfl, rfl⟩ := h
    obtain ⟨config, entry, -, rfl⟩ := confidentialTransfer_eq_ok.1 h
    rfl
  case withdraw accounts amount balance =>
    obtain ⟨event, world', h, rfl, rfl⟩ := h
    obtain ⟨config, mint, entry, -, rfl⟩ := withdraw_eq_ok.1 h
    rfl
  case createBurner accounts nonce ttl =>
    obtain ⟨c', event, h, rfl, rfl⟩ := h
    obtain ⟨config, ha, rfl, rfl⟩ := createBurner_eq_ok.1 h
    have hfree : c.burners accounts.burnerEntry = none := (Chain.isFree_iff.1 ha.fresh).2.2
    refine Tracked.ext rfl rfl rfl rfl ?_
    exact Store.census_set hfree (finite_fiber hreach _)
  case destroyBurner accounts proof =>
    obtain ⟨c', event, world', h, rfl, rfl⟩ := h
    obtain ⟨config, entry, ha, rfl, rfl⟩ := destroyBurner_eq_ok.1 h
    exact Tracked.ext rfl rfl rfl rfl (Store.census_erase ha.entryAt)
  case auditorRegister accounts key proof cooldown =>
    obtain ⟨c', event, world', h, rfl, rfl⟩ := h
    obtain ⟨config, ha, rfl, rfl⟩ := auditorRegister_eq_ok.1 h
    refine Tracked.ext rfl rfl rfl ?_ rfl
    show Store.image _ (Store.reindex auditorPda (c.auditors.set accounts.auditorEntry _)) =
      Store.set (Store.image _ _) accounts.mint _
    rw [ha.address, Store.reindex_set injective_auditorPda, Store.image_set]
    rfl
  case auditorRotate accounts key proof =>
    obtain ⟨c', event, world', h, rfl, rfl⟩ := h
    obtain ⟨config, entry, ha, rfl, rfl⟩ := auditorRotate_eq_ok.1 h
    have haddr : accounts.auditorEntry = auditorPda entry.mint :=
      (congrArg Prod.fst (hreg.auditor _ _ ha.entryAt)).symm
    have hstored : Store.reindex auditorPda c.auditors entry.mint = some entry :=
      Store.reindex_eq_some (haddr ▸ ha.entryAt)
    refine Tracked.ext rfl rfl rfl ?_ rfl
    show Store.image _ (Store.reindex auditorPda (c.auditors.set accounts.auditorEntry _)) =
      Store.modify (Store.image _ (Store.reindex auditorPda c.auditors)) entry.mint _
    rw [haddr, Store.reindex_set injective_auditorPda, Store.image_set,
      Store.modify_eq_set (Store.image_eq_some hstored)]
    rfl

/-! ### Every run -/

/-- After every run, an observer of the events has the part of the accounts that events show. -/
theorem replay_log [External Pubkey World] (run : List (Call Pubkey Digest World)) :
    Tracked.replay ((program.log program.init run).map Prod.fst) =
      (program.exec program.init run : Chain Pubkey Digest).tracked := by
  refine Machine.log_invariant (M := program)
    (P := fun c log => Tracked.replay (log.map Prod.fst) = Chain.tracked c) ?_ ?_ run
  · exact Tracked.ext rfl rfl rfl rfl (Store.census_empty _).symm
  · intro c log t c' o hreach hlog hstep
    rw [List.map_append, Tracked.replay, List.foldl_append, ← Tracked.replay, hlog]
    exact (tracked_step hreach hstep).symm

end Step

end Ghos
