import Ghos.Program.Runtime

/-!
# Constants, account layouts, errors and events

Translated from `constants.rs`, `state.rs`, `errors.rs` and `events.rs`.  The accounts here are
those of the config and of the mix rounds; `Account` is what a program-owned address can hold, the
constructor standing for the discriminator.
-/

namespace Ghos

/-! ### Constants -/

/-- The bytes of an ASCII literal. -/
def asciiBytes (s : String) : List UInt8 := s.toList.map fun c => c.toNat.toUInt8

def configSeed : List UInt8 := asciiBytes "ghos.config"

def mixRoundSeed : List UInt8 := asciiBytes "ghos.mix.round"

def mixCommitmentSeed : List UInt8 := asciiBytes "ghos.mix.commit"

def mixMaxParticipants : UInt8 := 16

def mixMinParticipants : UInt8 := 4

def burnerTtlMaxSeconds : Int64 := 60 * 60 * 24 * 30

def burnerTtlMinSeconds : Int64 := 60

def dustFreeUnit : UInt64 := 1000

def burnerRegistryCapPerOwner : UInt16 := 64

def protocolVersion : UInt16 := 0x0401

def auditorCosignLamports : UInt64 := 5000

def mixRevealWindowSeconds : Int64 := 60 * 10

/-! ### Accounts -/

/-- Protocol-wide configuration, singleton PDA. -/
structure GhosConfig (Pubkey : Type) where
  admin : Pubkey
  version : UInt16
  paused : Bool
  dustFreeUnit : UInt64
  burnerTtlMax : Int64
  burnerTtlMin : Int64
  burnerRegistryCap : UInt16
  mixMinParticipants : UInt8
  mixMaxParticipants : UInt8
  mixRevealWindow : Int64
  auditorCosignLamports : UInt64
  lastUpdated : Int64
  bump : UInt8
  reserved : Vector UInt8 64
  deriving DecidableEq

/-- The phase of a round; a round is created in `commit`. -/
inductive MixPhase
  | «open»
  | commit
  | reveal
  | settling
  | settled
  | aborted
  deriving DecidableEq

/-- CoinJoin round metadata. -/
structure MixRound (Pubkey : Type) where
  mint : Pubkey
  denomination : UInt64
  host : Pubkey
  capacity : UInt8
  committed : UInt8
  revealed : UInt8
  phase : MixPhase
  openedAt : Int64
  commitCloseAt : Int64
  revealCloseAt : Int64
  settledAt : Int64
  bump : UInt8
  reserved : Vector UInt8 32
  deriving DecidableEq

/-- Per-participant commitment in a mix round. -/
structure MixCommitment (Pubkey Digest : Type) where
  round : Pubkey
  participant : Pubkey
  commitment : Digest
  revealed : Bool
  revealSignal : Vector UInt8 32
  index : UInt8
  committedAt : Int64
  revealedAt : Int64
  bump : UInt8
  reserved : Vector UInt8 16
  deriving DecidableEq

/-- What an address owned by the program holds. -/
inductive Account (Pubkey Digest : Type)
  | ghosConfig (config : GhosConfig Pubkey)
  | mixRound (round : MixRound Pubkey)
  | mixCommitment (commitment : MixCommitment Pubkey Digest)
  deriving DecidableEq

namespace Account

variable {Pubkey Digest : Type}

def asConfig : Account Pubkey Digest → Option (GhosConfig Pubkey)
  | .ghosConfig config => some config
  | _ => none

def asRound : Account Pubkey Digest → Option (MixRound Pubkey)
  | .mixRound round => some round
  | _ => none

def asCommitment : Account Pubkey Digest → Option (MixCommitment Pubkey Digest)
  | .mixCommitment commitment => some commitment
  | _ => none

end Account

/-! ### Errors -/

/-- `GhosError`, in the order that fixes the numeric codes. -/
inductive GhosError
  | amountBelowDustFloor
  | amountNotAligned
  | mintMissingConfidentialExt
  | mintWrongProgramOwner
  | accountNotConfidential
  | accountOwnerMismatch
  | invalidCiphertext
  | rangeProofVerificationFailed
  | equalityProofVerificationFailed
  | pubkeyValidityProofFailed
  | zeroBalanceProofFailed
  | auditorEntryMissing
  | auditorMismatch
  | auditorRotationTooSoon
  | burnerTtlOutOfRange
  | burnerExpired
  | burnerAlreadyRegistered
  | burnerCapReached
  | mixBelowMinimum
  | mixRoundFull
  | mixNotInCommit
  | mixNotInReveal
  | mixRevealMismatch
  | mixRevealTimeout
  | mixDenominationMismatch
  | mixAlreadyCommitted
  | mixNotCommitted
  | notAdmin
  | paused
  | unexpectedProofContext
  | confidentialTransferDisabled
  | nothingToApply
  | withdrawExceedsAvailable
  | protocolVersionMismatch
  deriving DecidableEq

/-- The errors Anchor raises while it validates accounts, and the one behind a bare
`require_keys_eq!`. -/
inductive AnchorError
  | accountNotSigner
  | accountNotInitialized
  | accountDiscriminatorMismatch
  | invalidProgramId
  | constraintSeeds
  | constraintHasOne
  | requireKeysEqViolated
  deriving DecidableEq

/-- Why an instruction failed. -/
inductive ProgramError
  | ghos (e : GhosError)
  | anchor (e : AnchorError)
  | accountAlreadyInUse
  deriving DecidableEq

/-! ### Events -/

/-- What a successful instruction emits. -/
inductive Event (Pubkey Digest : Type)
  | configInitialized (admin : Pubkey) (version : UInt16) (timestamp : Int64)
  | configUpdated (admin : Pubkey) (field : UInt8) (timestamp : Int64)
  | mixRoundOpened (round mint : Pubkey) (denomination : UInt64) (capacity : UInt8)
      (openedAt : Int64)
  | mixCommitted (round participant : Pubkey) (commitment : Digest) (index : UInt8)
  | mixRevealed (round participant : Pubkey) (index : UInt8)
  | mixSettled (round : Pubkey) (participants : UInt8) (settledAt : Int64)
  deriving DecidableEq

end Ghos
