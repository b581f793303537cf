import Ghos.Program.CallEffects
import Ghos.Mix.Addressing

/-!
# The chain after a call

* `CallEffect`: an accepted call, with the conditions it met and the chain after it;
* `ledgerSimulation`: the ledger of a run of the program is the ledger of a run of `ghos`, so what
  holds of every ledger that `ghos` reaches holds on every chain the program reaches;
* `Registered`: every entry of a registry is at the canonical address of its own seeds, so the three
  stores of a chain never hold the same address (`disjoint_of_reachable`).  In particular an
  instruction of `ghos` that looks for a free address in the ledger has looked everywhere.
-/

namespace Ghos

variable {Pubkey Digest World : Type} [DecidableEq Pubkey] [DecidableEq Digest]
  [AddressSpace Pubkey] [Sha256 Digest] [External Pubkey World] {c c' : Chain Pubkey Digest}
  {world : World} {now : Int64} {signers : List Pubkey}

/-- What an accepted call does. -/
inductive CallEffect (c : Chain Pubkey Digest) (world : World) (now : Int64)
    (signers : List Pubkey) : Entrypoint Pubkey Digest → Chain Pubkey Digest → Prop
  | core {instruction L' event}
      (h : ghos.step c.ledger ⟨now, signers, instruction⟩ = .ok (L', event)) :
      CallEffect c world now signers (.core instruction) { c with ledger := L' }
  | shield {accounts amount config mint world'}
      (h : accounts.Admits c world world' signers amount config mint) :
      CallEffect c world now signers (.shield accounts amount) c
  | applyPending {accounts counter balance config world'}
      (h : accounts.Admits c world world' signers counter balance config) :
      CallEffect c world now signers (.applyPending accounts counter balance) c
  | confidentialTransfer {accounts owner balance config entry world'}
      (h : accounts.Admits c world world' signers owner balance config entry) :
      CallEffect c world now signers (.confidentialTransfer accounts owner balance) c
  | withdraw {accounts amount balance config mint entry world'}
      (h : accounts.Admits c world world' signers amount balance config mint entry) :
      CallEffect c world now signers (.withdraw accounts amount balance) c
  | createBurner {accounts nonce ttl config}
      (h : accounts.Admits c signers nonce ttl config) :
      CallEffect c world now signers (.createBurner accounts nonce ttl)
        { c with burners := c.burners.set accounts.burnerEntry (accounts.entry now nonce ttl) }
  | destroyBurner {accounts proof config entry world'}
      (h : accounts.Admits c world world' signers proof config entry) :
      CallEffect c world now signers (.destroyBurner accounts proof)
        { c with burners := c.burners.erase accounts.burnerEntry }
  | auditorRegister {accounts key proof cooldown config world'}
      (h : accounts.Admits c world world' signers proof config) :
      CallEffect c world now signers (.auditorRegister accounts key proof cooldown)
        { c with
          auditors := c.auditors.set accounts.auditorEntry (accounts.entry now key cooldown) }
  | auditorRotate {accounts key proof config entry world'}
      (h : accounts.Admits c world world' now signers proof config entry) :
      CallEffect c world now signers (.auditorRotate accounts key proof)
        { c with auditors := c.auditors.set accounts.auditorEntry (entry.rotated now key) }

theorem call_effect {t : Call Pubkey Digest World} {o : Output Pubkey Digest World}
    (h : program.step c t = .ok (c', o)) :
    CallEffect c t.world t.now t.signers t.entrypoint c' := by
  obtain ⟨now, signers, world, entrypoint⟩ := t
  cases entrypoint <;>
    simp only [program, Call.dispatch, Outcome.bind_eq_ok, Outcome.lift_eq_ok, Prod.exists,
      Outcome.pure_eq_ok, Prod.mk.injEq] at h
  case core instruction =>
    obtain ⟨L', event, h, rfl, -⟩ := h
    exact .core h
  case shield accounts amount =>
    obtain ⟨event, world', h, rfl, -⟩ := h
    obtain ⟨config, mint, ha, -⟩ := shield_eq_ok.1 h
    exact .shield ha
  case applyPending accounts counter balance =>
    obtain ⟨event, world', h, rfl, -⟩ := h
    obtain ⟨config, ha, -⟩ := applyPending_eq_ok.1 h
    exact .applyPending ha
  case confidentialTransfer accounts owner balance =>
    obtain ⟨event, world', h, rfl, -⟩ := h
    obtain ⟨config, entry, ha, -⟩ := confidentialTransfer_eq_ok.1 h
    exact .confidentialTransfer ha
  case withdraw accounts amount balance =>
    obtain ⟨event, world', h, rfl, -⟩ := h
    obtain ⟨config, mint, entry, ha, -⟩ := withdraw_eq_ok.1 h
    exact .withdraw ha
  case createBurner accounts nonce ttl =>
    obtain ⟨c', event, h, rfl, -⟩ := h
    obtain ⟨config, ha, rfl, -⟩ := createBurner_eq_ok.1 h
    exact .createBurner ha
  case destroyBurner accounts proof =>
    obtain ⟨c', event, world', h, rfl, -⟩ := h
    obtain ⟨config, entry, ha, rfl, -⟩ := destroyBurner_eq_ok.1 h
    exact .destroyBurner ha
  case auditorRegister accounts key proof cooldown =>
    obtain ⟨c', event, world', h, rfl, -⟩ := h
    obtain ⟨config, ha, rfl, -⟩ := auditorRegister_eq_ok.1 h
    exact .auditorRegister ha
  case auditorRotate accounts key proof =>
    obtain ⟨c', event, world', h, rfl, -⟩ := h
    obtain ⟨config, entry, ha, rfl, -⟩ := auditorRotate_eq_ok.1 h
    exact .auditorRotate ha

theorem callEffect_of_accepts {t : Call Pubkey Digest World} (h : program.Accepts c t) :
    CallEffect c t.world t.now t.signers t.entrypoint (program.next c t) := by
  obtain ⟨o, ho⟩ := h.exists_next
  exact call_effect ho

theorem callEffect_of_acceptedAt {run : List (Call Pubkey Digest World)} {i : ℕ}
    {t : Call Pubkey Digest World} (h : program.AcceptedAt run i t) :
    CallEffect (program.stateAt run i) t.world t.now t.signers t.entrypoint
      (program.stateAt run (i + 1)) := by
  obtain ⟨o, ho⟩ := h.exists_step
  exact call_effect ho

/-- The state in which a call leaves the other programs; a rejected call is rolled back. -/
def Call.worldAfter (c : Chain Pubkey Digest) (t : Call Pubkey Digest World) : World :=
  match program.step c t with
  | .ok (_, _, world) => world
  | .error _ => t.world

theorem Call.worldAfter_of_not_accepts {t : Call Pubkey Digest World}
    (h : ¬ program.Accepts c t) : t.worldAfter c = t.world := by
  unfold worldAfter
  split
  · next hok => exact absurd ⟨_, hok⟩ h
  · rfl

/-- The instructions on the ledger call no other program. -/
theorem Call.worldAfter_of_core {t : Call Pubkey Digest World}
    {instruction : Instruction Pubkey Digest} (ht : t.entrypoint = .core instruction) :
    t.worldAfter c = t.world := by
  unfold worldAfter
  split
  · next c' o world hok =>
    simp only [program, Call.dispatch, ht, Outcome.bind_eq_ok, Outcome.lift_eq_ok] at hok
    obtain ⟨⟨ledger, event⟩, -, hok⟩ := hok
    cases hok
    rfl
  · rfl

theorem accepts_core_iff {instruction : Instruction Pubkey Digest} :
    program.Accepts c ⟨now, signers, world, .core instruction⟩ ↔
      ghos.Accepts c.ledger ⟨now, signers, instruction⟩ := by
  simp only [Machine.Accepts, program, ghos, Call.dispatch, Prod.exists, Outcome.bind_eq_ok,
    Outcome.lift_eq_ok, Outcome.pure_eq_ok, Prod.mk.injEq]
  constructor
  · rintro ⟨_, _, _, L', event, h, -⟩
    exact ⟨L', event, h⟩
  · rintro ⟨L', event, h⟩
    exact ⟨_, _, _, L', event, h, rfl, rfl, rfl⟩

theorem accepts_shield_iff {accounts : Shield Pubkey} {amount : UInt64} :
    program.Accepts c (⟨now, signers, world, .shield accounts amount⟩ : Call Pubkey Digest World) ↔
      ∃ world' config mint, accounts.Admits c world world' signers amount config mint := by
  simp only [Machine.Accepts, program, Call.dispatch, Prod.exists, Outcome.bind_eq_ok,
    shield_eq_ok, Outcome.pure_eq_ok, Prod.mk.injEq]
  constructor
  · rintro ⟨_, _, _, _, world', ⟨config, mint, h, -⟩, -⟩
    exact ⟨world', config, mint, h⟩
  · rintro ⟨world', config, mint, h⟩
    exact ⟨_, _, _, _, world', ⟨config, mint, h, rfl⟩, rfl, rfl, rfl⟩

theorem accepts_confidentialTransfer_iff {accounts : ConfidentialTransfer Pubkey}
    {destinationOwner : Pubkey} {balance : Vector UInt8 36} :
    program.Accepts c (⟨now, signers, world,
        .confidentialTransfer accounts destinationOwner balance⟩ : Call Pubkey Digest World) ↔
      ∃ world' config auditorEntry,
        accounts.Admits c world world' signers destinationOwner balance config auditorEntry := by
  simp only [Machine.Accepts, program, Call.dispatch, Prod.exists, Outcome.bind_eq_ok,
    confidentialTransfer_eq_ok, Outcome.pure_eq_ok, Prod.mk.injEq]
  constructor
  · rintro ⟨_, _, _, _, world', ⟨config, auditorEntry, h, -⟩, -⟩
    exact ⟨world', config, auditorEntry, h⟩
  · rintro ⟨world', config, auditorEntry, h⟩
    exact ⟨_, _, _, _, world', ⟨config, auditorEntry, h, rfl⟩, rfl, rfl, rfl⟩

theorem accepts_withdraw_iff {accounts : Withdraw Pubkey} {amount : UInt64}
    {balance : Vector UInt8 36} :
    program.Accepts c
        (⟨now, signers, world, .withdraw accounts amount balance⟩ : Call Pubkey Digest World) ↔
      ∃ world' config mint auditorEntry,
        accounts.Admits c world world' signers amount balance config mint auditorEntry := by
  simp only [Machine.Accepts, program, Call.dispatch, Prod.exists, Outcome.bind_eq_ok,
    withdraw_eq_ok, Outcome.pure_eq_ok, Prod.mk.injEq]
  constructor
  · rintro ⟨_, _, _, _, world', ⟨config, mint, auditorEntry, h, -⟩, -⟩
    exact ⟨world', config, mint, auditorEntry, h⟩
  · rintro ⟨world', config, mint, auditorEntry, h⟩
    exact ⟨_, _, _, _, world', ⟨config, mint, auditorEntry, h, rfl⟩, rfl, rfl, rfl⟩

theorem accepts_createBurner_iff {accounts : CreateBurner Pubkey} {nonce : UInt64} {ttl : Int64} :
    program.Accepts c
        (⟨now, signers, world, .createBurner accounts nonce ttl⟩ : Call Pubkey Digest World) ↔
      ∃ config, accounts.Admits c signers nonce ttl config := by
  simp only [Machine.Accepts, program, Call.dispatch, Prod.exists, Outcome.bind_eq_ok,
    Outcome.lift_eq_ok, createBurner_eq_ok, Outcome.pure_eq_ok, Prod.mk.injEq]
  constructor
  · rintro ⟨_, _, _, _, _, ⟨config, h, -⟩, -⟩
    exact ⟨config, h⟩
  · rintro ⟨config, h⟩
    exact ⟨_, _, _, _, _, ⟨config, h, rfl, rfl⟩, rfl, rfl, rfl⟩

theorem accepts_destroyBurner_iff {accounts : DestroyBurner Pubkey}
    {zeroProofBytes : List UInt8} :
    program.Accepts c
        (⟨now, signers, world, .destroyBurner accounts zeroProofBytes⟩ :
          Call Pubkey Digest World) ↔
      ∃ world' config entry,
        accounts.Admits c world world' signers zeroProofBytes config entry := by
  simp only [Machine.Accepts, program, Call.dispatch, Prod.exists, Outcome.bind_eq_ok,
    Outcome.lift_eq_ok, destroyBurner_eq_ok, Outcome.pure_eq_ok, Prod.mk.injEq]
  constructor
  · rintro ⟨_, _, _, _, _, world', ⟨config, entry, h, -⟩, -⟩
    exact ⟨world', config, entry, h⟩
  · rintro ⟨world', config, entry, h⟩
    exact ⟨_, _, _, _, _, world', ⟨config, entry, h, rfl, rfl⟩, rfl, rfl, rfl⟩

theorem accepts_auditorRotate_iff {accounts : AuditorRotate Pubkey} {key : Vector UInt8 32}
    {proof : List UInt8} :
    program.Accepts c
        (⟨now, signers, world, .auditorRotate accounts key proof⟩ : Call Pubkey Digest World) ↔
      ∃ world' config entry, accounts.Admits c world world' now signers proof config entry := by
  simp only [Machine.Accepts, program, Call.dispatch, Prod.exists, Outcome.bind_eq_ok,
    Outcome.lift_eq_ok, auditorRotate_eq_ok, Outcome.pure_eq_ok, Prod.mk.injEq]
  constructor
  · rintro ⟨_, _, _, _, _, world', ⟨config, entry, h, -⟩, -⟩
    exact ⟨world', config, entry, h⟩
  · rintro ⟨world', config, entry, h⟩
    exact ⟨_, _, _, _, _, world', ⟨config, entry, h, rfl, rfl⟩, rfl, rfl, rfl⟩

/-! ### The ledger -/

/-- A core call acts on the ledger as `ghos` does, and the others leave it alone. -/
theorem ledgerSimulation :
    Machine.Simulation (program : Machine (Chain Pubkey Digest) (Call Pubkey Digest World) _ _)
      ghos Chain.ledger where
  init := rfl
  step c t c' o hstep := by
    have heff := call_effect hstep
    generalize t.entrypoint = entrypoint at heff
    cases heff with
    | core h => exact .inr ⟨_, _, h⟩
    | _ => exact .inl rfl

theorem ledger_reachable
    (h : program.Reachable c) :
    ghos.Reachable c.ledger :=
  ledgerSimulation.reachable h

omit [DecidableEq Pubkey] [DecidableEq Digest] [Sha256 Digest] [External Pubkey World] in
/-- The config in force. -/
def Chain.config (c : Chain Pubkey Digest) : Option (GhosConfig Pubkey) :=
  c.ledger.config? configPda

omit [DecidableEq Pubkey] [DecidableEq Digest] [Sha256 Digest] [External Pubkey World] in
/-- A config that an instruction loads is the one in force. -/
theorem IsConfigAt.eq_config (hL : WellAddressed c.ledger) {a : Pubkey}
    {config : GhosConfig Pubkey} (h : IsConfigAt c.ledger a config) : c.config = some config := by
  rw [Chain.config, ← hL.config_eq h.stored, h.stored]

/-! ### The registries -/

/-- How an auditor entry comes to be written. -/
inductive AuditorWrite (c : Chain Pubkey Digest) (world : World) (now : Int64)
    (signers : List Pubkey) : Pubkey → Entrypoint Pubkey Digest → AuditorEntry Pubkey → Prop
  | auditorRegister {accounts key proof cooldown config world'}
      (h : accounts.Admits c world world' signers proof config) :
      AuditorWrite c world now signers accounts.auditorEntry
        (.auditorRegister accounts key proof cooldown) (accounts.entry now key cooldown)
  | auditorRotate {accounts key proof config entry world'}
      (h : accounts.Admits c world world' now signers proof config entry) :
      AuditorWrite c world now signers accounts.auditorEntry (.auditorRotate accounts key proof)
        (entry.rotated now key)

section Cases

variable {entrypoint : Entrypoint Pubkey Digest} {a : Pubkey}

theorem CallEffect.auditor_cases (h : CallEffect c world now signers entrypoint c')
    {entry : AuditorEntry Pubkey} (he : c'.auditors a = some entry) :
    c.auditors a = some entry ∨ AuditorWrite c world now signers a entrypoint entry := by
  cases h with
  | auditorRegister h =>
    rcases Store.set_eq_some.1 he with ⟨rfl, rfl⟩ | ⟨-, he⟩
    · exact .inr (.auditorRegister h)
    · exact .inl he
  | auditorRotate h =>
    rcases Store.set_eq_some.1 he with ⟨rfl, rfl⟩ | ⟨-, he⟩
    · exact .inr (.auditorRotate h)
    · exact .inl he
  | _ => exact .inl he

/-- Auditor entries are never removed. -/
theorem CallEffect.exists_auditor (h : CallEffect c world now signers entrypoint c')
    (he : ∃ entry, c.auditors a = some entry) : ∃ entry, c'.auditors a = some entry := by
  cases h with
  | auditorRegister h => exact Store.exists_set _ _ he
  | auditorRotate h => exact Store.exists_set _ _ he
  | _ => exact he

/-- A burner entry was there before, or `create_burner` has just written it. -/
theorem CallEffect.burner_cases (h : CallEffect c world now signers entrypoint c')
    {entry : BurnerAccount Pubkey} (he : c'.burners a = some entry) :
    c.burners a = some entry ∨ ∃ accounts nonce ttl config,
      entrypoint = .createBurner accounts nonce ttl ∧
      accounts.Admits c signers nonce ttl config ∧ accounts.burnerEntry = a ∧
      entry = accounts.entry now nonce ttl := by
  cases h with
  | createBurner h =>
    rcases Store.set_eq_some.1 he with ⟨rfl, rfl⟩ | ⟨-, he⟩
    · exact .inr ⟨_, _, _, _, rfl, h, rfl, rfl⟩
    · exact .inl he
  | destroyBurner h => exact .inl (Store.erase_eq_some.1 he).2
  | _ => exact .inl he

/-- Only `destroy_burner` removes a burner entry. -/
theorem CallEffect.burner_removed (h : CallEffect c world now signers entrypoint c')
    (he : c.burners a ≠ none) (he' : c'.burners a = none) :
    ∃ accounts proof, entrypoint = .destroyBurner accounts proof ∧ accounts.burnerEntry = a := by
  cases h with
  | createBurner h =>
    obtain ⟨e, he⟩ := Store.exists_set _ _ (Option.ne_none_iff_exists'.1 he)
    exact absurd (he.symm.trans he') (by simp)
  | @destroyBurner accounts proof config entry world' h =>
    refine ⟨accounts, proof, rfl, ?_⟩
    by_contra hne
    exact he ((Store.erase_of_ne _ (Ne.symm hne)).symm.trans he')
  | _ => exact absurd he' he

theorem CallEffect.of_core {instruction : Instruction Pubkey Digest}
    (h : CallEffect c world now signers (.core instruction) c') :
    Effect c.ledger now signers instruction c'.ledger := by
  cases h with
  | core h => exact step_effect h

theorem CallEffect.of_createBurner {accounts : CreateBurner Pubkey} {nonce : UInt64} {ttl : Int64}
    (h : CallEffect c world now signers (.createBurner accounts nonce ttl) c') :
    ∃ config, accounts.Admits c signers nonce ttl config ∧
      c'.burners = c.burners.set accounts.burnerEntry (accounts.entry now nonce ttl) := by
  cases h with
  | createBurner h => exact ⟨_, h, rfl⟩

theorem CallEffect.of_auditorRegister {accounts : AuditorRegister Pubkey} {key : Vector UInt8 32}
    {proof : List UInt8} {cooldown : Int64}
    (h : CallEffect c world now signers (.auditorRegister accounts key proof cooldown) c') :
    ∃ config world', accounts.Admits c world world' signers proof config ∧
      c'.auditors = c.auditors.set accounts.auditorEntry (accounts.entry now key cooldown) := by
  cases h with
  | auditorRegister h => exact ⟨_, _, h, rfl⟩

theorem CallEffect.of_auditorRotate {accounts : AuditorRotate Pubkey} {key : Vector UInt8 32}
    {proof : List UInt8}
    (h : CallEffect c world now signers (.auditorRotate accounts key proof) c') :
    ∃ config world' entry, accounts.Admits c world world' now signers proof config entry ∧
      c'.auditors = c.auditors.set accounts.auditorEntry (entry.rotated now key) := by
  cases h with
  | auditorRotate h => exact ⟨_, _, _, h, rfl⟩

/-- The ledger changes by an instruction of `ghos` or not at all. -/
theorem CallEffect.ledger_cases (h : CallEffect c world now signers entrypoint c') :
    c'.ledger = c.ledger ∨ ∃ instruction, entrypoint = .core instruction ∧
      Effect c.ledger now signers instruction c'.ledger := by
  cases h with
  | core h => exact .inr ⟨_, rfl, step_effect h⟩
  | _ => exact .inl rfl

/-- Configs are never removed. -/
theorem CallEffect.exists_config (h : CallEffect c world now signers entrypoint c')
    (he : ∃ e, c.ledger.config? a = some e) : ∃ e, c'.ledger.config? a = some e := by
  rcases h.ledger_cases with heq | ⟨instruction, -, heff⟩
  · rwa [heq]
  · cases heff with
    | ghosInitialize h v => rw [v.config]; exact Store.exists_set _ _ he
    | configUpdate h v => rw [v.config]; exact Store.exists_set _ _ he
    | mixInit h v => rwa [v.config]
    | mixCommit h v => rwa [v.config]
    | mixReveal h v => rwa [v.config]
    | mixSettle h v => rwa [v.config]

end Cases

/-! ### Addresses -/

/-- Every entry of a registry is at the address of its own seeds. -/
structure Registered (c : Chain Pubkey Digest) : Prop where
  auditor : ∀ a e, c.auditors a = some e → findProgramAddress (auditorSeeds e.mint) = (a, e.bump)
  burner : ∀ a e, c.burners a = some e →
    findProgramAddress (burnerSeeds e.owner e.nonce) = (a, e.bump)

theorem CallEffect.registered {entrypoint : Entrypoint Pubkey Digest} (hc : Registered c)
    (h : CallEffect c world now signers entrypoint c') : Registered c' := by
  refine ⟨fun a e he => ?_, fun a e he => ?_⟩
  · rcases h.auditor_cases he with he | hw
    · exact hc.auditor a e he
    · cases hw with
      | auditorRegister hw => exact Prod.ext hw.address.symm rfl
      | auditorRotate hw => exact (hc.auditor _ _ hw.entryAt :)
  · rcases h.burner_cases he with he | ⟨accounts, nonce, ttl, config, -, ha, rfl, rfl⟩
    · exact hc.burner a e he
    · exact Prod.ext ha.address.symm rfl

theorem registered_of_reachable
    (h : program.Reachable c) :
    Registered c := by
  refine h.invariant ⟨fun a e he => ?_, fun a e he => ?_⟩ fun _ _ _ _ hc hstep =>
    (call_effect hstep).registered hc
  · cases he
  · cases he

omit [DecidableEq Pubkey] [DecidableEq Digest] [Sha256 Digest] [External Pubkey World] in
/-- A burner entry can be addressed by its own owner and nonce. -/
theorem Registered.burner_create (hc : Registered c) {a : Pubkey} {e : BurnerAccount Pubkey}
    (he : c.burners a = some e) :
    createProgramAddress (burnerSeeds e.owner e.nonce) e.bump = some a := by
  have hcreate := AddressSpace.create_find (burnerSeeds e.owner e.nonce)
  rwa [hc.burner a e he] at hcreate

omit [DecidableEq Pubkey] [DecidableEq Digest] [Sha256 Digest] [External Pubkey World] in
theorem Registered.burnerPda_eq (hc : Registered c) {a : Pubkey} {e : BurnerAccount Pubkey}
    (he : c.burners a = some e) : burnerPda e.owner e.nonce = a :=
  congrArg Prod.fst (hc.burner a e he)

omit [DecidableEq Pubkey] [DecidableEq Digest] [Sha256 Digest] [External Pubkey World] in
/-- The entry at the address of a nonce is of that nonce. -/
theorem Registered.burnerPda_entry (hc : Registered c) {owner : Pubkey} {nonce : UInt64}
    {e : BurnerAccount Pubkey} (he : c.burners (burnerPda owner nonce) = some e) :
    e.owner = owner ∧ e.nonce = nonce :=
  burnerPda_inj.1 (hc.burnerPda_eq he)

omit [DecidableEq Pubkey] [DecidableEq Digest] [Sha256 Digest] [External Pubkey World] in
/-- The entry at the address of a mint is the mint's, with the canonical bump. -/
theorem Registered.auditorPda_entry (hc : Registered c) {mint : Pubkey} {e : AuditorEntry Pubkey}
    (he : c.auditors (auditorPda mint) = some e) :
    e.mint = mint ∧
      createProgramAddress (auditorSeeds mint) e.bump = some (auditorPda mint) := by
  have hfind := hc.auditor _ e he
  have hmint : e.mint = mint :=
    concat_auditorSeeds_inj.1 (findProgramAddress_injective (by rw [hfind, auditorPda]))
  have hcreate := AddressSpace.create_find (auditorSeeds e.mint)
  rw [hfind, hmint] at hcreate
  exact ⟨hmint, hcreate⟩

/-! ### No address is used twice -/

section Kinds

omit [DecidableEq Pubkey] [DecidableEq Digest] [Sha256 Digest] [External Pubkey World]

/-- The first letter behind `ghos.` in the seeds of an address: it tells the stores apart. -/
def seedLetter (seeds : List (Seed Pubkey)) : Option (UInt8 ⊕ Pubkey) := (Seed.concat seeds)[5]?

theorem seedLetter_eq {seeds seeds' : List (Seed Pubkey)}
    (h : (findProgramAddress seeds).1 = (findProgramAddress seeds').1) :
    seedLetter seeds = seedLetter seeds' := by
  rw [seedLetter, seedLetter, findProgramAddress_injective h]

omit [AddressSpace Pubkey] in
theorem seedLetter_auditorSeeds (mint : Pubkey) :
    seedLetter (auditorSeeds mint) = some (.inl 97) := by
  simp [seedLetter, auditorSeeds, Seed.concat, auditorSeed, asciiBytes]

omit [AddressSpace Pubkey] in
theorem seedLetter_burnerSeeds (owner : Pubkey) (nonce : UInt64) :
    seedLetter (burnerSeeds owner nonce) = some (.inl 98) := by
  simp [seedLetter, burnerSeeds, Seed.concat, burnerSeed, asciiBytes]

/-- An address that `ghos` derives: `c` for the config, `m` for rounds and commitments. -/
def IsCoreAddress (a : Pubkey) : Prop :=
  ∃ seeds, (findProgramAddress seeds).1 = a ∧
    (seedLetter seeds = some (.inl 99) ∨ seedLetter seeds = some (.inl 109))

theorem isCoreAddress_configPda : IsCoreAddress (configPda : Pubkey) :=
  ⟨configSeeds, rfl, .inl (by simp [seedLetter, configSeeds, Seed.concat, configSeed, asciiBytes])⟩

theorem isCoreAddress_mixRoundPda (mint : Pubkey) (roundId : UInt64) :
    IsCoreAddress (mixRoundPda mint roundId) :=
  ⟨mixRoundSeeds mint roundId, rfl,
    .inr (by simp [seedLetter, mixRoundSeeds, Seed.concat, mixRoundSeed, asciiBytes])⟩

theorem isCoreAddress_mixCommitmentPda (round participant : Pubkey) :
    IsCoreAddress (mixCommitmentPda round participant) :=
  ⟨mixCommitmentSeeds round participant, rfl,
    .inr (by simp [seedLetter, mixCommitmentSeeds, Seed.concat, mixCommitmentSeed, asciiBytes])⟩

theorem WellAddressed.isCoreAddress {L : Ledger Pubkey Digest} (hL : WellAddressed L) {a : Pubkey}
    (h : L a ≠ none) : IsCoreAddress a := by
  by_contra hcore
  refine h (Ledger.eq_none_iff.2 ⟨?_, ?_, ?_⟩) <;> rw [Option.eq_none_iff_forall_ne_some]
  · exact fun config hconfig => hcore (hL.config_eq hconfig ▸ isCoreAddress_configPda)
  · intro round hround
    obtain ⟨i, rfl⟩ := hL.round_eq hround
    exact hcore (isCoreAddress_mixRoundPda _ _)
  · exact fun commit hcommit =>
      hcore (hL.commitment_eq hcommit ▸ isCoreAddress_mixCommitmentPda _ _)

/-- No registry holds an address that `ghos` derives. -/
theorem Registered.eq_none_of_isCoreAddress (hc : Registered c) {a : Pubkey}
    (ha : IsCoreAddress a) : c.auditors a = none ∧ c.burners a = none := by
  obtain ⟨seeds, rfl, hletter⟩ := ha
  constructor <;> rw [Option.eq_none_iff_forall_ne_some]
  · intro e he
    have heq : seedLetter (auditorSeeds e.mint) = seedLetter seeds :=
      seedLetter_eq (by rw [hc.auditor _ e he])
    rw [seedLetter_auditorSeeds] at heq
    rcases hletter with h | h <;> simp [h] at heq
  · intro e he
    have heq : seedLetter (burnerSeeds e.owner e.nonce) = seedLetter seeds :=
      seedLetter_eq (by rw [hc.burner _ e he])
    rw [seedLetter_burnerSeeds] at heq
    rcases hletter with h | h <;> simp [h] at heq

theorem Registered.burner_eq_none (hc : Registered c) {a : Pubkey} {e : AuditorEntry Pubkey}
    (he : c.auditors a = some e) : c.burners a = none := by
  rw [Option.eq_none_iff_forall_ne_some]
  intro e' he'
  have heq : seedLetter (auditorSeeds e.mint) = seedLetter (burnerSeeds e'.owner e'.nonce) :=
    seedLetter_eq (by rw [hc.auditor a e he, hc.burner a e' he'])
  rw [seedLetter_auditorSeeds, seedLetter_burnerSeeds] at heq
  simp at heq

end Kinds

/-- Each address belongs to one store at most. -/
theorem disjoint_of_reachable
    (h : program.Reachable c) (a : Pubkey) :
    (c.ledger a = none ∨ c.auditors a = none ∧ c.burners a = none) ∧
      (c.auditors a = none ∨ c.burners a = none) := by
  have hreg := registered_of_reachable h
  constructor
  · by_cases hL : c.ledger a = none
    · exact .inl hL
    · exact .inr (hreg.eq_none_of_isCoreAddress
        ((wellAddressed_of_reachable (ledger_reachable h)).isCoreAddress hL))
  · cases he : c.auditors a with
    | none => exact .inl rfl
    | some e => exact .inr (hreg.burner_eq_none he)

/-! ### There is always a free address -/

section Free

omit [DecidableEq Digest] [Sha256 Digest] [External Pubkey World]

/-- The addresses that hold an account of the program. -/
def Chain.occupied (c : Chain Pubkey Digest) : Set Pubkey := {a | ¬ c.isFree a}

omit [AddressSpace Pubkey] [DecidableEq Pubkey] in
theorem Chain.mem_occupied {a : Pubkey} :
    a ∈ c.occupied ↔ c.ledger a ≠ none ∨ c.auditors a ≠ none ∨ c.burners a ≠ none := by
  show ¬ c.isFree a = true ↔ _
  rw [isFree_iff]
  tauto

omit [DecidableEq Pubkey] in
/-- Seed lists of different lengths give different addresses. -/
theorem infinite_pubkey : Infinite Pubkey := by
  refine Infinite.of_injective
    (fun n : ℕ => (findProgramAddress [Seed.bytes (.replicate n 0)] : Pubkey × UInt8).1) ?_
  intro n m h
  have hlen := congrArg List.length (findProgramAddress_injective h)
  simpa [Seed.concat] using hlen

end Free

/-- An accepted instruction writes a few addresses. -/
theorem step_eq_of_notMem {L L' : Ledger Pubkey Digest} {t : Invocation Pubkey Digest}
    {event : Event Pubkey Digest} (h : ghos.step L t = .ok (L', event)) :
    ∃ written : List Pubkey, ∀ a ∉ written, L' a = L a := by
  obtain ⟨now, signers, instruction⟩ := t
  cases instruction with
  | ghosInitialize accounts =>
    obtain ⟨-, rfl, -⟩ := ghosInitialize_eq_ok.1 h
    exact ⟨[accounts.config], fun a ha => Store.set_of_ne L _ (by simpa using ha)⟩
  | configUpdate accounts field =>
    obtain ⟨-, -, -, rfl, -⟩ := configUpdate_eq_ok.1 h
    exact ⟨[accounts.config], fun a ha => Store.set_of_ne L _ (by simpa using ha)⟩
  | mixInit accounts roundId denomination capacity window =>
    obtain ⟨-, -, rfl, -⟩ := mixInit_eq_ok.1 h
    exact ⟨[accounts.round], fun a ha => Store.set_of_ne L _ (by simpa using ha)⟩
  | mixCommit accounts commitmentBytes =>
    obtain ⟨-, -, -, rfl, -⟩ := mixCommit_eq_ok.1 h
    refine ⟨[accounts.round, accounts.commitment], fun a ha => ?_⟩
    obtain ⟨hr, hm⟩ : a ≠ accounts.round ∧ a ≠ accounts.commitment := by simpa using ha
    rw [Store.set_of_ne _ _ hr, Store.set_of_ne _ _ hm]
  | mixReveal accounts preimage revealSignal =>
    obtain ⟨-, -, -, -, rfl, -⟩ := mixReveal_eq_ok.1 h
    refine ⟨[accounts.round, accounts.commitment], fun a ha => ?_⟩
    obtain ⟨hr, hm⟩ : a ≠ accounts.round ∧ a ≠ accounts.commitment := by simpa using ha
    rw [Store.set_of_ne _ _ hr, Store.set_of_ne _ _ hm]
  | mixSettle accounts =>
    obtain ⟨-, -, -, rfl, -⟩ := mixSettle_eq_ok.1 h
    exact ⟨[accounts.round], fun a ha => Store.set_of_ne L _ (by simpa using ha)⟩

/-- So does an accepted call. -/
theorem CallEffect.eq_of_notMem {entrypoint : Entrypoint Pubkey Digest}
    (h : CallEffect c world now signers entrypoint c') :
    ∃ written : List Pubkey, ∀ a ∉ written,
      c'.ledger a = c.ledger a ∧ c'.auditors a = c.auditors a ∧ c'.burners a = c.burners a := by
  cases h with
  | core h =>
    obtain ⟨written, hw⟩ := step_eq_of_notMem h
    exact ⟨written, fun a ha => ⟨hw a ha, rfl, rfl⟩⟩
  | @createBurner accounts nonce ttl config h =>
    exact ⟨[accounts.burnerEntry], fun a ha => ⟨rfl, rfl, Store.set_of_ne _ _ (by simpa using ha)⟩⟩
  | @destroyBurner accounts proof config entry world' h =>
    exact ⟨[accounts.burnerEntry], fun a ha => ⟨rfl, rfl, Store.erase_of_ne _ (by simpa using ha)⟩⟩
  | @auditorRegister accounts key proof cooldown config world' h =>
    exact ⟨[accounts.auditorEntry], fun a ha => ⟨rfl, Store.set_of_ne _ _ (by simpa using ha), rfl⟩⟩
  | @auditorRotate accounts key proof config entry world' h =>
    exact ⟨[accounts.auditorEntry], fun a ha => ⟨rfl, Store.set_of_ne _ _ (by simpa using ha), rfl⟩⟩
  | _ => exact ⟨[], fun a _ => ⟨rfl, rfl, rfl⟩⟩

theorem finite_occupied
    (h : program.Reachable c) :
    c.occupied.Finite := by
  refine h.invariant (P := fun c => c.occupied.Finite) ?_ ?_
  · refine Set.Finite.subset Set.finite_empty fun a ha => ?_
    simp [Chain.mem_occupied, program] at ha
  · intro c t c' o hfin hstep
    obtain ⟨written, hw⟩ := (call_effect hstep).eq_of_notMem
    refine (hfin.union written.finite_toSet).subset fun a ha => ?_
    by_cases hmem : a ∈ written
    · exact .inr hmem
    · obtain ⟨hl, haud, hbur⟩ := hw a hmem
      rw [Chain.mem_occupied, hl, haud, hbur] at ha
      exact .inl (Chain.mem_occupied.2 ha)

/-- Among infinitely many addresses one is free. -/
theorem exists_isFree
    (h : program.Reachable c)
    {f : Pubkey → Pubkey} (hf : Function.Injective f) : ∃ k, c.isFree (f k) := by
  have : Infinite Pubkey := infinite_pubkey
  obtain ⟨k, hk⟩ := ((finite_occupied h).preimage hf.injOn).infinite_compl.nonempty
  exact ⟨k, not_not.1 hk⟩

end Ghos
