import Ghos.Program.Validation

/-!
# `mix_init`, `mix_commit`, `mix_reveal`, `mix_settle`

For each instruction: the struct of its accounts, the handler over the loaded accounts, and the
instruction itself, which validates the accounts in Anchor's order (load and signer checks, then
`init`, then `seeds` and `has_one`), runs the handler and writes the mutable accounts back.
-/

namespace Ghos

variable {Pubkey Digest : Type} [DecidableEq Pubkey]

/-- The seeds of a round. -/
def mixRoundSeeds (mint : Pubkey) (roundId : UInt64) : List (Seed Pubkey) :=
  [.bytes mixRoundSeed, .key mint, .bytes roundId.toLeBytes]

/-- The seeds of the commitment of a participant in a round. -/
def mixCommitmentSeeds (round participant : Pubkey) : List (Seed Pubkey) :=
  [.bytes mixCommitmentSeed, .key round, .key participant]

/-! ### `mix_init` -/

/-- Accounts of `mix_init`. -/
structure MixInit (Pubkey : Type) where
  config : Pubkey
  host : Pubkey
  mint : Pubkey
  round : Pubkey
  systemProgram : Pubkey
  deriving DecidableEq

/-- The handler of `mix_init`. -/
def MixInit.handler (accounts : MixInit Pubkey) (config : GhosConfig Pubkey) (bump : UInt8)
    (now : Int64) (denomination : UInt64) (capacity : UInt8) (commitWindowSeconds : Int64) :
    Result (MixRound Pubkey × Event Pubkey Digest) := do
  assertNotPaused config
  validateMixCapacity capacity
  require (0 < denomination) (.ghos .mixDenominationMismatch)
  require (0 < commitWindowSeconds) (.ghos .mixRevealTimeout)
  let commitCloseAt := now.saturatingAdd commitWindowSeconds
  let round : MixRound Pubkey :=
    { mint := accounts.mint
      denomination
      host := accounts.host
      capacity
      committed := 0
      revealed := 0
      phase := .commit
      openedAt := now
      commitCloseAt
      revealCloseAt := commitCloseAt.saturatingAdd config.mixRevealWindow
      settledAt := 0
      bump
      reserved := .replicate 32 0 }
  return (round, .mixRoundOpened accounts.round round.mint denomination capacity now)

/-- Open a CoinJoin round. -/
def mixInit [AddressSpace Pubkey] (L : Ledger Pubkey Digest) (now : Int64) (signers : List Pubkey)
    (accounts : MixInit Pubkey) (roundId denomination : UInt64) (capacity : UInt8)
    (commitWindowSeconds : Int64) : Result (Ledger Pubkey Digest × Event Pubkey Digest) := do
  let config ← loadAccount Account.asConfig L accounts.config
  checkSigner signers accounts.host
  checkSystemProgram accounts.systemProgram
  let bump ← initAccount L accounts.round (mixRoundSeeds accounts.mint roundId)
  checkSeeds accounts.config configSeeds config.bump
  let (round, event) ← accounts.handler config bump now denomination capacity commitWindowSeconds
  return (L.set accounts.round (.mixRound round), event)

/-! ### `mix_commit` -/

/-- Accounts of `mix_commit`. -/
structure MixCommitAccounts (Pubkey : Type) where
  config : Pubkey
  participant : Pubkey
  round : Pubkey
  commitment : Pubkey
  systemProgram : Pubkey
  deriving DecidableEq

/-- The handler of `mix_commit`. -/
def MixCommitAccounts.handler (accounts : MixCommitAccounts Pubkey) (config : GhosConfig Pubkey)
    (round : MixRound Pubkey) (bump : UInt8) (now : Int64) (commitmentBytes : Digest) :
    Result (MixRound Pubkey × MixCommitment Pubkey Digest × Event Pubkey Digest) := do
  assertNotPaused config
  require (round.phase = .commit) (.ghos .mixNotInCommit)
  require (now < round.commitCloseAt) (.ghos .mixNotInCommit)
  require (round.committed < round.capacity) (.ghos .mixRoundFull)
  let entry : MixCommitment Pubkey Digest :=
    { round := accounts.round
      participant := accounts.participant
      commitment := commitmentBytes
      revealed := false
      revealSignal := .replicate 32 0
      index := round.committed
      committedAt := now
      revealedAt := 0
      bump
      reserved := .replicate 16 0 }
  let committed := round.committed.saturatingAdd 1
  let phase : MixPhase :=
    if committed = round.capacity ∨ round.commitCloseAt ≤ now then .reveal else round.phase
  return ({ round with committed, phase }, entry,
    .mixCommitted accounts.round entry.participant commitmentBytes entry.index)

/-- Submit a commitment to an open mix round. -/
def mixCommit [AddressSpace Pubkey] (L : Ledger Pubkey Digest) (now : Int64)
    (signers : List Pubkey) (accounts : MixCommitAccounts Pubkey) (commitmentBytes : Digest) :
    Result (Ledger Pubkey Digest × Event Pubkey Digest) := do
  let config ← loadAccount Account.asConfig L accounts.config
  checkSigner signers accounts.participant
  let round ← loadAccount Account.asRound L accounts.round
  checkSystemProgram accounts.systemProgram
  let bump ← initAccount L accounts.commitment
    (mixCommitmentSeeds accounts.round accounts.participant)
  checkSeeds accounts.config configSeeds config.bump
  let (round, entry, event) ← accounts.handler config round bump now commitmentBytes
  return ((L.set accounts.commitment (.mixCommitment entry)).set accounts.round (.mixRound round),
    event)

/-! ### `mix_reveal` -/

/-- Accounts of `mix_reveal`. -/
structure MixRevealAccounts (Pubkey : Type) where
  config : Pubkey
  participant : Pubkey
  round : Pubkey
  commitment : Pubkey
  deriving DecidableEq

/-- The handler of `mix_reveal`. -/
def MixRevealAccounts.handler [DecidableEq Digest] [Sha256 Digest]
    (accounts : MixRevealAccounts Pubkey) (config : GhosConfig Pubkey) (round : MixRound Pubkey)
    (commit : MixCommitment Pubkey Digest) (now : Int64) (preimage : List UInt8)
    (revealSignal : Vector UInt8 32) :
    Result (MixRound Pubkey × MixCommitment Pubkey Digest × Event Pubkey Digest) := do
  assertNotPaused config
  require (round.phase = .reveal) (.ghos .mixNotInReveal)
  require (now ≤ round.revealCloseAt) (.ghos .mixRevealTimeout)
  require (!commit.revealed) (.ghos .mixAlreadyCommitted)
  checkKeysEq commit.participant accounts.participant (.anchor .requireKeysEqViolated)
  let digest : Digest := hashv [preimage, revealSignal.toList]
  require (digest = commit.commitment) (.ghos .mixRevealMismatch)
  let commit := { commit with revealed := true, revealSignal, revealedAt := now }
  let revealed := round.revealed.saturatingAdd 1
  let phase : MixPhase := if revealed = round.committed then .settling else round.phase
  return ({ round with revealed, phase }, commit,
    .mixRevealed accounts.round commit.participant commit.index)

/-- Reveal a prior commitment in a mix round. -/
def mixReveal [AddressSpace Pubkey] [DecidableEq Digest] [Sha256 Digest]
    (L : Ledger Pubkey Digest) (now : Int64) (signers : List Pubkey)
    (accounts : MixRevealAccounts Pubkey) (preimage : List UInt8) (revealSignal : Vector UInt8 32) :
    Result (Ledger Pubkey Digest × Event Pubkey Digest) := do
  let config ← loadAccount Account.asConfig L accounts.config
  checkSigner signers accounts.participant
  let round ← loadAccount Account.asRound L accounts.round
  let commitment ← loadAccount Account.asCommitment L accounts.commitment
  checkSeeds accounts.config configSeeds config.bump
  checkSeeds accounts.commitment (mixCommitmentSeeds accounts.round accounts.participant)
    commitment.bump
  let (round, commitment, event) ←
    accounts.handler config round commitment now preimage revealSignal
  return ((L.set accounts.commitment (.mixCommitment commitment)).set accounts.round
    (.mixRound round), event)

/-! ### `mix_settle` -/

/-- Accounts of `mix_settle`. -/
structure MixSettleAccounts (Pubkey : Type) where
  config : Pubkey
  host : Pubkey
  round : Pubkey
  deriving DecidableEq

omit [DecidableEq Pubkey] in
/-- The handler of `mix_settle`. -/
def MixSettleAccounts.handler (accounts : MixSettleAccounts Pubkey) (config : GhosConfig Pubkey)
    (round : MixRound Pubkey) (now : Int64) : Result (MixRound Pubkey × Event Pubkey Digest) := do
  assertNotPaused config
  let round : MixRound Pubkey ← match round.phase with
    | .settling => do
      require (config.mixMinParticipants ≤ round.revealed) (.ghos .mixBelowMinimum)
      pure { round with phase := .settled, settledAt := now }
    | .reveal => do
      -- past the reveal window: settle with a quorum of reveals, abort without one
      require (round.revealCloseAt < now) (.ghos .mixNotInReveal)
      if config.mixMinParticipants ≤ round.revealed then
        pure { round with phase := .settled, settledAt := now }
      else
        pure { round with phase := .aborted, settledAt := now }
    | _ => .error (.ghos .mixNotInReveal)
  return (round, .mixSettled accounts.round round.revealed now)

/-- Transition a mix round into the settled or aborted phase. -/
def mixSettle [AddressSpace Pubkey] (L : Ledger Pubkey Digest) (now : Int64)
    (signers : List Pubkey) (accounts : MixSettleAccounts Pubkey) :
    Result (Ledger Pubkey Digest × Event Pubkey Digest) := do
  let config ← loadAccount Account.asConfig L accounts.config
  checkSigner signers accounts.host
  let round ← loadAccount Account.asRound L accounts.round
  checkSeeds accounts.config configSeeds config.bump
  checkKeysEq round.host accounts.host (.anchor .constraintHasOne)
  let (round, event) ← accounts.handler config round now
  return (L.set accounts.round (.mixRound round), event)

end Ghos
