import Ghos.Lib.Machine
import Ghos.Program.Config
import Ghos.Program.Mix

/-!
# The program as a machine

`Instruction` collects the entry points of `lib.rs` that act on the config and on the mix rounds,
with the accounts and the arguments a caller chooses.  An `Invocation` adds the clock and the keys
that signed.  `ghos` starts with no account at all; an instruction that fails changes nothing.
-/

namespace Ghos

/-- An entry point with its accounts and arguments. -/
inductive Instruction (Pubkey Digest : Type)
  | ghosInitialize (accounts : Initialize Pubkey)
  | configUpdate (accounts : ConfigUpdate Pubkey) (field : ConfigField Pubkey)
  | mixInit (accounts : MixInit Pubkey) (roundId denomination : UInt64) (capacity : UInt8)
      (commitWindowSeconds : Int64)
  | mixCommit (accounts : MixCommitAccounts Pubkey) (commitmentBytes : Digest)
  | mixReveal (accounts : MixRevealAccounts Pubkey) (preimage : List UInt8)
      (revealSignal : Vector UInt8 32)
  | mixSettle (accounts : MixSettleAccounts Pubkey)
  deriving DecidableEq

/-- An instruction as the runtime presents it: the clock, the signers, the entry point. -/
structure Invocation (Pubkey Digest : Type) where
  now : Int64
  signers : List Pubkey
  instruction : Instruction Pubkey Digest
  deriving DecidableEq

variable {Pubkey Digest : Type} [DecidableEq Pubkey] [DecidableEq Digest] [AddressSpace Pubkey]
  [Sha256 Digest]

/-- The entry points of the program. -/
def dispatch (L : Ledger Pubkey Digest) (t : Invocation Pubkey Digest) :
    Result (Ledger Pubkey Digest × Event Pubkey Digest) :=
  match t.instruction with
  | .ghosInitialize accounts => ghosInitialize L t.now t.signers accounts
  | .configUpdate accounts field => configUpdate L t.now t.signers accounts field
  | .mixInit accounts roundId denomination capacity commitWindowSeconds =>
    mixInit L t.now t.signers accounts roundId denomination capacity commitWindowSeconds
  | .mixCommit accounts commitmentBytes => mixCommit L t.now t.signers accounts commitmentBytes
  | .mixReveal accounts preimage revealSignal =>
    mixReveal L t.now t.signers accounts preimage revealSignal
  | .mixSettle accounts => mixSettle L t.now t.signers accounts

/-- The program: a machine over ledgers. -/
def ghos : Machine (Ledger Pubkey Digest) (Invocation Pubkey Digest) ProgramError
    (Event Pubkey Digest) where
  init := fun _ => none
  step := dispatch

/-- The clock never goes back. -/
def Chronological (run : List (Invocation Pubkey Digest)) : Prop :=
  run.Pairwise fun t u => t.now ≤ u.now

end Ghos
