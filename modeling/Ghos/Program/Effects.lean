import Ghos.Program.Instruction

/-!
# What each instruction does

For each instruction a structure `Admits` with the conditions under which it is accepted and a
lemma that says that it is accepted exactly then, and what it writes.  Nothing later unfolds an
instruction.

The handler of `mix_commit` moves the round to `Reveal` when it is full *or* when the commit window
has closed; the second disjunct is dead, because the same handler has already required
`now < commit_close_at`.  The handler of `mix_settle` has two branches; both close the round, in
`Settled` exactly when enough participants have revealed.
-/

namespace Ghos

variable {Pubkey Digest : Type} [DecidableEq Pubkey] [AddressSpace Pubkey]
  {L L' : Ledger Pubkey Digest} {e : Event Pubkey Digest} {now : Int64} {signers : List Pubkey}

/-! ### Addresses -/

section Addresses

omit [DecidableEq Pubkey]

/-- The address of the config. -/
def configPda : Pubkey := (findProgramAddress configSeeds).1

/-- The address of the round of a mint with a given id. -/
def mixRoundPda (mint : Pubkey) (roundId : UInt64) : Pubkey :=
  (findProgramAddress (mixRoundSeeds mint roundId)).1

/-- The address of the commitment of a participant in a round. -/
def mixCommitmentPda (round participant : Pubkey) : Pubkey :=
  (findProgramAddress (mixCommitmentSeeds round participant)).1

omit [AddressSpace Pubkey] in
theorem concat_mixRoundSeeds_inj {m m' : Pubkey} {i i' : UInt64} :
    Seed.concat (mixRoundSeeds m i) = Seed.concat (mixRoundSeeds m' i') ↔ m = m' ∧ i = i' := by
  refine ⟨fun h => ?_, fun ⟨hm, hi⟩ => by rw [hm, hi]⟩
  obtain ⟨hm, hi⟩ := List.cons.inj (List.append_cancel_left h)
  have hi := List.map_injective_iff.2 Sum.inl_injective (List.append_cancel_right hi)
  exact ⟨Sum.inr.inj hm, UInt64.toLeBytes_injective hi⟩

omit [AddressSpace Pubkey] in
theorem concat_mixCommitmentSeeds_inj {R R' p p' : Pubkey} :
    Seed.concat (mixCommitmentSeeds R p) = Seed.concat (mixCommitmentSeeds R' p') ↔
      R = R' ∧ p = p' := by
  refine ⟨fun h => ?_, fun ⟨hR, hp⟩ => by rw [hR, hp]⟩
  have h := List.append_cancel_left h
  simpa [Seed.concat] using h

theorem mixRoundPda_inj {m m' : Pubkey} {i i' : UInt64} :
    mixRoundPda m i = mixRoundPda m' i' ↔ m = m' ∧ i = i' := by
  refine ⟨fun h => ?_, fun ⟨hm, hi⟩ => by rw [hm, hi]⟩
  exact concat_mixRoundSeeds_inj.1 (findProgramAddress_injective h)

theorem mixCommitmentPda_inj {R R' p p' : Pubkey} :
    mixCommitmentPda R p = mixCommitmentPda R' p' ↔ R = R' ∧ p = p' := by
  refine ⟨fun h => ?_, fun ⟨hR, hp⟩ => by rw [hR, hp]⟩
  exact concat_mixCommitmentSeeds_inj.1 (findProgramAddress_injective h)

theorem mixRoundPda_ne_mixCommitmentPda {m R p : Pubkey} {i : UInt64} :
    mixRoundPda m i ≠ mixCommitmentPda R p := by
  intro h
  have hs := findProgramAddress_injective h
  -- the tags differ in their tenth byte
  have hs := congrArg (fun l => l[9]?) hs
  simp [mixRoundSeeds, mixCommitmentSeeds, Seed.concat, mixRoundSeed, mixCommitmentSeed,
    asciiBytes] at hs

theorem configPda_ne_mixRoundPda {m : Pubkey} {i : UInt64} :
    (configPda : Pubkey) ≠ mixRoundPda m i := by
  intro h
  have hs := findProgramAddress_injective h
  have hs := congrArg (fun l => l[5]?) hs
  simp [configSeeds, mixRoundSeeds, Seed.concat, mixRoundSeed, configSeed, asciiBytes] at hs

theorem configPda_ne_mixCommitmentPda {R p : Pubkey} :
    (configPda : Pubkey) ≠ mixCommitmentPda R p := by
  intro h
  have hs := findProgramAddress_injective h
  have hs := congrArg (fun l => l[5]?) hs
  simp [configSeeds, mixCommitmentSeeds, Seed.concat, configSeed, mixCommitmentSeed,
    asciiBytes] at hs

end Addresses

/-- The config account passes its `seeds` and `bump` constraint. -/
structure IsConfigAt (L : Ledger Pubkey Digest) (a : Pubkey) (config : GhosConfig Pubkey) :
    Prop where
  stored : L.config? a = some config
  seeds : createProgramAddress configSeeds config.bump = some a

/-! ### `initialize` and `config_update` -/

/-- When `initialize` is accepted. -/
structure Initialize.Admits (accounts : Initialize Pubkey) (L : Ledger Pubkey Digest)
    (signers : List Pubkey) : Prop where
  signer : accounts.admin ∈ signers
  system : accounts.systemProgram = systemProgramId
  address : accounts.config = configPda
  fresh : L accounts.config = none

theorem ghosInitialize_eq_ok {accounts : Initialize Pubkey} :
    ghosInitialize L now signers accounts = .ok (L', e) ↔
      accounts.Admits L signers ∧
      L' = L.set accounts.config (.ghosConfig
        (accounts.newConfig (findProgramAddress (configSeeds : List (Seed Pubkey))).2 now)) ∧
      e = .configInitialized accounts.admin protocolVersion now := by
  simp only [ghosInitialize, Initialize.handler, checkSigner, checkSystemProgram,
    Result.bind_eq_ok, require_eq_ok, initAccount_eq_ok, Result.pure_eq_ok, Prod.mk.injEq]
  constructor
  · rintro ⟨-, hs, -, hp, b, ⟨ha, hf, rfl⟩, rfl, rfl⟩
    exact ⟨⟨hs, hp, ha, hf⟩, rfl, rfl⟩
  · rintro ⟨⟨hs, hp, ha, hf⟩, rfl, rfl⟩
    exact ⟨(), hs, (), hp, _, ⟨ha, hf, rfl⟩, rfl, rfl⟩

/-- When `config_update` is accepted, from the stored config to `config'`. -/
structure ConfigUpdate.Admits (accounts : ConfigUpdate Pubkey) (L : Ledger Pubkey Digest)
    (signers : List Pubkey) (field : ConfigField Pubkey) (config config' : GhosConfig Pubkey) :
    Prop where
  configAt : IsConfigAt L accounts.config config
  signer : accounts.admin ∈ signers
  admin : config.admin = accounts.admin
  field : field.apply config = .ok config'

theorem configUpdate_eq_ok {accounts : ConfigUpdate Pubkey} {field : ConfigField Pubkey} :
    configUpdate L now signers accounts field = .ok (L', e) ↔
      ∃ config config', accounts.Admits L signers field config config' ∧
        L' = L.set accounts.config (.ghosConfig { config' with lastUpdated := now }) ∧
        e = .configUpdated accounts.admin field.tag now := by
  simp only [configUpdate, ConfigUpdate.handler, assertAdmin, checkKeysEq, checkSigner, checkSeeds,
    Result.bind_eq_ok, require_eq_ok, loadAccount_eq_ok, Result.pure_eq_ok, Prod.mk.injEq]
  constructor
  · rintro ⟨config, hl, -, hs, -, hb, out, ⟨-, ha, config', hf, rfl⟩, rfl, rfl⟩
    exact ⟨config, config', ⟨⟨hl, hb⟩, hs, ha, hf⟩, rfl, rfl⟩
  · rintro ⟨config, config', ⟨⟨hl, hb⟩, hs, ha, hf⟩, rfl, rfl⟩
    exact ⟨config, hl, (), hs, (), hb, _, ⟨(), ha, config', hf, rfl⟩, rfl, rfl⟩

/-! ### `mix_init` -/

/-- When `mix_init` is accepted. -/
structure MixInit.Admits (accounts : MixInit Pubkey) (L : Ledger Pubkey Digest)
    (signers : List Pubkey) (roundId denomination : UInt64) (capacity : UInt8)
    (commitWindowSeconds : Int64) (config : GhosConfig Pubkey) : Prop where
  configAt : IsConfigAt L accounts.config config
  signer : accounts.host ∈ signers
  system : accounts.systemProgram = systemProgramId
  address : accounts.round = mixRoundPda accounts.mint roundId
  fresh : L accounts.round = none
  unpaused : config.paused = false
  capacity : mixMinParticipants ≤ capacity ∧ capacity ≤ mixMaxParticipants
  denomination : 0 < denomination
  window : 0 < commitWindowSeconds

omit [DecidableEq Pubkey] in
theorem MixInit.Admits.round_ne {accounts : MixInit Pubkey} {roundId denomination : UInt64}
    {capacity : UInt8} {window : Int64} {config : GhosConfig Pubkey}
    (h : accounts.Admits L signers roundId denomination capacity window config)
    (r : MixRound Pubkey) : L.round? accounts.round ≠ some r := by
  simp [Ledger.round?, Store.view_of_none h.fresh]

/-- The round that `mix_init` creates. -/
def MixInit.newRound (accounts : MixInit Pubkey) (config : GhosConfig Pubkey) (now : Int64)
    (roundId denomination : UInt64) (capacity : UInt8) (commitWindowSeconds : Int64) :
    MixRound Pubkey where
  mint := accounts.mint
  denomination := denomination
  host := accounts.host
  capacity := capacity
  committed := 0
  revealed := 0
  phase := .commit
  openedAt := now
  commitCloseAt := now.saturatingAdd commitWindowSeconds
  revealCloseAt := (now.saturatingAdd commitWindowSeconds).saturatingAdd config.mixRevealWindow
  settledAt := 0
  bump := (findProgramAddress (mixRoundSeeds accounts.mint roundId)).2
  reserved := .replicate 32 0

theorem mixInit_eq_ok {accounts : MixInit Pubkey} {roundId denomination : UInt64}
    {capacity : UInt8} {window : Int64} :
    mixInit L now signers accounts roundId denomination capacity window = .ok (L', e) ↔
      ∃ config, accounts.Admits L signers roundId denomination capacity window config ∧
        L' = L.set accounts.round
          (.mixRound (accounts.newRound config now roundId denomination capacity window)) ∧
        e = .mixRoundOpened accounts.round accounts.mint denomination capacity now := by
  simp only [mixInit, MixInit.handler, assertNotPaused, validateMixCapacity, checkSigner,
    checkSystemProgram, checkSeeds, Result.bind_eq_ok, require_eq_ok, loadAccount_eq_ok,
    initAccount_eq_ok, Result.pure_eq_ok, Prod.mk.injEq, Bool.not_eq_true']
  constructor
  · rintro ⟨config, hl, -, hs, -, hp, bump, ⟨ha, hf, rfl⟩, -, hb, out,
      ⟨-, hu, -, hc, -, hd, -, hw, rfl⟩, rfl, rfl⟩
    exact ⟨config, ⟨⟨hl, hb⟩, hs, hp, ha, hf, hu, hc, hd, hw⟩, rfl, rfl⟩
  · rintro ⟨config, ⟨⟨hl, hb⟩, hs, hp, ha, hf, hu, hc, hd, hw⟩, rfl, rfl⟩
    exact ⟨config, hl, (), hs, (), hp, _, ⟨ha, hf, rfl⟩, (), hb, _,
      ⟨(), hu, (), hc, (), hd, (), hw, rfl⟩, rfl, rfl⟩

/-! ### `mix_commit` -/

/-- When `mix_commit` is accepted. -/
structure MixCommitAccounts.Admits (accounts : MixCommitAccounts Pubkey)
    (L : Ledger Pubkey Digest) (now : Int64) (signers : List Pubkey) (config : GhosConfig Pubkey)
    (round : MixRound Pubkey) : Prop where
  configAt : IsConfigAt L accounts.config config
  signer : accounts.participant ∈ signers
  roundAt : L.round? accounts.round = some round
  system : accounts.systemProgram = systemProgramId
  address : accounts.commitment = mixCommitmentPda accounts.round accounts.participant
  fresh : L accounts.commitment = none
  unpaused : config.paused = false
  phase : round.phase = .commit
  inWindow : now < round.commitCloseAt
  slot : round.committed < round.capacity

omit [DecidableEq Pubkey] in
theorem MixCommitAccounts.Admits.commitment_ne {accounts : MixCommitAccounts Pubkey}
    {config : GhosConfig Pubkey} {round : MixRound Pubkey}
    (h : accounts.Admits L now signers config round) (c : MixCommitment Pubkey Digest) :
    L.commitment? accounts.commitment ≠ some c := by
  simp [Ledger.commitment?, Store.view_of_none h.fresh]

/-- The commitment that `mix_commit` creates. -/
def MixCommitAccounts.entry (accounts : MixCommitAccounts Pubkey) (round : MixRound Pubkey)
    (now : Int64) (commitmentBytes : Digest) : MixCommitment Pubkey Digest where
  round := accounts.round
  participant := accounts.participant
  commitment := commitmentBytes
  revealed := false
  revealSignal := .replicate 32 0
  index := round.committed
  committedAt := now
  revealedAt := 0
  bump := (findProgramAddress (mixCommitmentSeeds accounts.round accounts.participant)).2
  reserved := .replicate 16 0

/-- The round after one more commit. -/
def MixRound.joined (round : MixRound Pubkey) : MixRound Pubkey :=
  { round with
    committed := round.committed.saturatingAdd 1
    phase := if round.committed.saturatingAdd 1 = round.capacity then .reveal else .commit }

theorem mixCommit_eq_ok {accounts : MixCommitAccounts Pubkey} {commitmentBytes : Digest} :
    mixCommit L now signers accounts commitmentBytes = .ok (L', e) ↔
      ∃ config round, accounts.Admits L now signers config round ∧
        L' = (L.set accounts.commitment
            (.mixCommitment (accounts.entry round now commitmentBytes))).set accounts.round
            (.mixRound round.joined) ∧
        e = .mixCommitted accounts.round accounts.participant commitmentBytes round.committed := by
  -- the window is still open, so only a full round changes phase
  have hphase : ∀ round : MixRound Pubkey, round.phase = .commit → now < round.commitCloseAt →
      (if round.committed.saturatingAdd 1 = round.capacity ∨ round.commitCloseAt ≤ now then
        MixPhase.reveal else round.phase) =
      if round.committed.saturatingAdd 1 = round.capacity then .reveal else .commit := by
    intro round hp hn
    rw [hp]
    simp only [Int64.not_le.2 hn, or_false]
  simp only [mixCommit, MixCommitAccounts.handler, assertNotPaused, checkSigner,
    checkSystemProgram, checkSeeds, Result.bind_eq_ok, require_eq_ok, loadAccount_eq_ok,
    initAccount_eq_ok, Result.pure_eq_ok, Prod.mk.injEq, Bool.not_eq_true']
  constructor
  · rintro ⟨config, hl, -, hs, round, hr, -, hp, bump, ⟨ha, hf, rfl⟩, -, hb, out,
      ⟨-, hu, -, hph, -, hw, -, hc, rfl⟩, rfl, rfl⟩
    refine ⟨config, round, ⟨⟨hl, hb⟩, hs, hr, hp, ha, hf, hu, hph, hw, hc⟩, ?_, rfl⟩
    simp only [hphase round hph hw]
    rfl
  · rintro ⟨config, round, ⟨⟨hl, hb⟩, hs, hr, hp, ha, hf, hu, hph, hw, hc⟩, rfl, rfl⟩
    refine ⟨config, hl, (), hs, round, hr, (), hp, _, ⟨ha, hf, rfl⟩, (), hb, _,
      ⟨(), hu, (), hph, (), hw, (), hc, rfl⟩, ?_, rfl⟩
    simp only [hphase round hph hw]
    rfl

/-! ### `mix_reveal` -/

/-- When `mix_reveal` is accepted. -/
structure MixRevealAccounts.Admits [Sha256 Digest] (accounts : MixRevealAccounts Pubkey)
    (L : Ledger Pubkey Digest) (now : Int64) (signers : List Pubkey) (preimage : List UInt8)
    (revealSignal : Vector UInt8 32) (config : GhosConfig Pubkey) (round : MixRound Pubkey)
    (commit : MixCommitment Pubkey Digest) : Prop where
  configAt : IsConfigAt L accounts.config config
  signer : accounts.participant ∈ signers
  roundAt : L.round? accounts.round = some round
  commitmentAt : L.commitment? accounts.commitment = some commit
  address : createProgramAddress (mixCommitmentSeeds accounts.round accounts.participant)
    commit.bump = some accounts.commitment
  unpaused : config.paused = false
  phase : round.phase = .reveal
  inWindow : now ≤ round.revealCloseAt
  unrevealed : commit.revealed = false
  participant : commit.participant = accounts.participant
  digest : hashv [preimage, revealSignal.toList] = commit.commitment

/-- The commitment after its reveal. -/
def MixCommitment.opened (commit : MixCommitment Pubkey Digest) (now : Int64)
    (revealSignal : Vector UInt8 32) : MixCommitment Pubkey Digest :=
  { commit with revealed := true, revealSignal, revealedAt := now }

/-- The round after one more reveal. -/
def MixRound.opened (round : MixRound Pubkey) : MixRound Pubkey :=
  { round with
    revealed := round.revealed.saturatingAdd 1
    phase := if round.revealed.saturatingAdd 1 = round.committed then .settling else .reveal }

theorem mixReveal_eq_ok [DecidableEq Digest] [Sha256 Digest] {accounts : MixRevealAccounts Pubkey}
    {preimage : List UInt8} {revealSignal : Vector UInt8 32} :
    mixReveal L now signers accounts preimage revealSignal = .ok (L', e) ↔
      ∃ config round commit,
        accounts.Admits L now signers preimage revealSignal config round commit ∧
        L' = (L.set accounts.commitment (.mixCommitment (commit.opened now revealSignal))).set
          accounts.round (.mixRound round.opened) ∧
        e = .mixRevealed accounts.round commit.participant commit.index := by
  simp only [mixReveal, MixRevealAccounts.handler, assertNotPaused, checkSigner, checkKeysEq,
    checkSeeds, Result.bind_eq_ok, require_eq_ok, loadAccount_eq_ok, Result.pure_eq_ok,
    Prod.mk.injEq, Bool.not_eq_true']
  constructor
  · rintro ⟨config, hl, -, hs, round, hr, commit, hc, -, hb, -, ha, out,
      ⟨-, hu, -, hph, -, hw, -, hn, -, hpa, -, hd, rfl⟩, rfl, rfl⟩
    refine ⟨config, round, commit, ⟨⟨hl, hb⟩, hs, hr, hc, ha, hu, hph, hw, hn, hpa, hd⟩, ?_, rfl⟩
    simp only [hph]
    rfl
  · rintro ⟨config, round, commit, ⟨⟨hl, hb⟩, hs, hr, hc, ha, hu, hph, hw, hn, hpa, hd⟩, rfl, rfl⟩
    refine ⟨config, hl, (), hs, round, hr, commit, hc, (), hb, (), ha, _,
      ⟨(), hu, (), hph, (), hw, (), hn, (), hpa, (), hd, rfl⟩, ?_, rfl⟩
    simp only [hph]
    rfl

/-! ### `mix_settle` -/

/-- When `mix_settle` is accepted. -/
structure MixSettleAccounts.Admits (accounts : MixSettleAccounts Pubkey)
    (L : Ledger Pubkey Digest) (now : Int64) (signers : List Pubkey) (config : GhosConfig Pubkey)
    (round : MixRound Pubkey) : Prop where
  configAt : IsConfigAt L accounts.config config
  signer : accounts.host ∈ signers
  roundAt : L.round? accounts.round = some round
  host : round.host = accounts.host
  unpaused : config.paused = false
  phase : round.phase = .settling ∧ config.mixMinParticipants ≤ round.revealed ∨
    round.phase = .reveal ∧ round.revealCloseAt < now

/-- The round after `mix_settle`. -/
def MixRound.closed (round : MixRound Pubkey) (config : GhosConfig Pubkey) (now : Int64) :
    MixRound Pubkey :=
  { round with
    phase := if config.mixMinParticipants ≤ round.revealed then .settled else .aborted
    settledAt := now }

omit [DecidableEq Pubkey] [AddressSpace Pubkey] in
theorem MixSettleAccounts.handler_eq_ok {accounts : MixSettleAccounts Pubkey}
    {config : GhosConfig Pubkey} {round round' : MixRound Pubkey} :
    accounts.handler config round now = .ok (round', e) ↔
      config.paused = false ∧
      (round.phase = .settling ∧ config.mixMinParticipants ≤ round.revealed ∨
        round.phase = .reveal ∧ round.revealCloseAt < now) ∧
      round' = round.closed config now ∧ e = .mixSettled accounts.round round.revealed now := by
  simp only [MixSettleAccounts.handler, assertNotPaused, Result.bind_eq_ok, require_eq_ok,
    Bool.not_eq_true', MixRound.closed]
  cases hp : round.phase <;> simp
  · by_cases hq : config.mixMinParticipants ≤ round.revealed <;> simp [hq] <;> grind
  · grind

theorem mixSettle_eq_ok {accounts : MixSettleAccounts Pubkey} :
    mixSettle L now signers accounts = .ok (L', e) ↔
      ∃ config round, accounts.Admits L now signers config round ∧
        L' = L.set accounts.round (.mixRound (round.closed config now)) ∧
        e = .mixSettled accounts.round round.revealed now := by
  simp only [mixSettle, checkSigner, checkKeysEq, checkSeeds, Result.bind_eq_ok, require_eq_ok,
    loadAccount_eq_ok, Result.pure_eq_ok, Prod.mk.injEq]
  constructor
  · rintro ⟨config, hl, -, hs, round, hr, -, hb, -, hh, ⟨round', e'⟩, hok, rfl, rfl⟩
    obtain ⟨hu, hph, rfl, rfl⟩ := MixSettleAccounts.handler_eq_ok.1 hok
    exact ⟨config, round, ⟨⟨hl, hb⟩, hs, hr, hh, hu, hph⟩, rfl, rfl⟩
  · rintro ⟨config, round, ⟨⟨hl, hb⟩, hs, hr, hh, hu, hph⟩, rfl, rfl⟩
    exact ⟨config, hl, (), hs, round, hr, (), hb, (), hh, ⟨_, _⟩,
      MixSettleAccounts.handler_eq_ok.2 ⟨hu, hph, rfl, rfl⟩, rfl, rfl⟩

end Ghos
