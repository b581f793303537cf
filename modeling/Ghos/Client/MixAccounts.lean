import Ghos.Client.Pdas

/-!
# The accounts of the mix instructions

Anchor binds the accounts of an instruction to their roles by position.  The builders of
`sdk/src/instructions/mix.ts` leave out the config for `mix_init`, `mix_commit` and `mix_reveal`;
for `mix_settle` they put it at the end, where the program expects the round.  So no list fits
(`not_keysMatch`).
-/

namespace Ghos

variable {Pubkey : Type} [AddressSpace Pubkey]

namespace Sdk

/-! ### The builders -/

/-- `discriminatorFor("mixInit")`. -/
def mixInitDiscriminator : List UInt8 := [92, 182, 4, 77, 128, 191, 33, 50]

/-- `discriminatorFor("mixCommit")`. -/
def mixCommitDiscriminator : List UInt8 := [9, 164, 73, 228, 66, 159, 112, 245]

/-- `discriminatorFor("mixSettle")`. -/
def mixSettleDiscriminator : List UInt8 := [123, 34, 213, 77, 45, 160, 19, 202]

structure BuildMixInitParams (Pubkey : Type) where
  host : Pubkey
  mint : Pubkey
  roundNonce : ℤ
  denomination : ℤ
  capacity : ℤ
  commitWindowSeconds : ℤ
  deriving DecidableEq

/-- Build the `mix_init` instruction. -/
def buildMixInitInstruction (params : BuildMixInitParams Pubkey) :
    Except SdkError (TransactionInstruction Pubkey) := do
  let seeds ← mixRoundSeeds params.host params.mint (.bigint params.roundNonce)
  let roundPda := (findProgramAddress seeds).1
  let roundNonce ← encodeU64Le (.bigint params.roundNonce)
  let denomination ← encodeU64Le (.bigint params.denomination)
  let commitWindowSeconds ← encodeI64Le (.number params.commitWindowSeconds)
  return {
    keys := [
      { pubkey := params.host, isSigner := true, isWritable := true },
      { pubkey := params.mint, isSigner := false, isWritable := false },
      { pubkey := roundPda, isSigner := false, isWritable := true },
      { pubkey := systemProgramId, isSigner := false, isWritable := false }]
    data := mixInitDiscriminator ++ roundNonce ++ denomination ++ encodeU8Le params.capacity ++
      commitWindowSeconds }

structure BuildMixCommitParams (Pubkey : Type) where
  participant : Pubkey
  round : Pubkey
  commitment : List UInt8
  index : ℤ
  deriving DecidableEq

/-- Build the `mix_commit` instruction. -/
def buildMixCommitInstruction (params : BuildMixCommitParams Pubkey) :
    Except SdkError (TransactionInstruction Pubkey) := do
  throwUnless (params.commitment.length = 32)
    (.error s!"commitment must be 32 bytes, got {params.commitment.length}")
  let commitmentPda := deriveMixCommitmentPda params.round params.participant
  return {
    keys := [
      { pubkey := params.participant, isSigner := true, isWritable := true },
      { pubkey := params.round, isSigner := false, isWritable := true },
      { pubkey := commitmentPda, isSigner := false, isWritable := true },
      { pubkey := systemProgramId, isSigner := false, isWritable := false }]
    data := mixCommitDiscriminator ++ params.commitment ++ encodeU8Le params.index }

structure BuildMixSettleParams (Pubkey : Type) where
  host : Pubkey
  round : Pubkey
  participantIndices : List ℤ
  deriving DecidableEq

/-- Build the `mix_settle` instruction; this builder never throws. -/
def buildMixSettleInstruction (params : BuildMixSettleParams Pubkey) :
    TransactionInstruction Pubkey :=
  let lenBuf := leBytes 4 (params.participantIndices.length % 2 ^ 32)
  let indicesBytes := params.participantIndices.flatMap encodeU8Le
  { keys := [
      { pubkey := params.host, isSigner := true, isWritable := true },
      { pubkey := params.round, isSigner := false, isWritable := true },
      { pubkey := (findProgramAddress configSeeds).1, isSigner := false, isWritable := false }]
    data := mixSettleDiscriminator ++ lenBuf ++ indicesBytes }

/-! ### The roles in the program -/

/-- The parameters of one of the four builders. -/
inductive MixRequest (Pubkey : Type)
  | init (params : BuildMixInitParams Pubkey)
  | commit (params : BuildMixCommitParams Pubkey)
  | reveal (params : MixOpening Pubkey)
  | settle (params : BuildMixSettleParams Pubkey)

namespace MixRequest

def build : MixRequest Pubkey → Except SdkError (TransactionInstruction Pubkey)
  | init params => buildMixInitInstruction params
  | commit params => buildMixCommitInstruction params
  | reveal params => buildMixRevealInstruction params
  | settle params => return buildMixSettleInstruction params

/-- The accounts of the request in the order of its `#[derive(Accounts)]` struct, each a signer or
writable as declared.  `init` makes an account writable. -/
def declared : MixRequest Pubkey → List (AccountMeta Pubkey)
  | init params => [
      { pubkey := configPda, isSigner := false, isWritable := false },
      { pubkey := params.host, isSigner := true, isWritable := true },
      { pubkey := params.mint, isSigner := false, isWritable := false },
      -- the id in the data is the magnitude of the nonce
      { pubkey := mixRoundPda params.mint (.ofNat params.roundNonce.natAbs), isSigner := false,
        isWritable := true },
      { pubkey := systemProgramId, isSigner := false, isWritable := false }]
  | commit params => [
      { pubkey := configPda, isSigner := false, isWritable := false },
      { pubkey := params.participant, isSigner := true, isWritable := true },
      { pubkey := params.round, isSigner := false, isWritable := true },
      { pubkey := mixCommitmentPda params.round params.participant, isSigner := false,
        isWritable := true },
      { pubkey := systemProgramId, isSigner := false, isWritable := false }]
  | reveal params => [
      { pubkey := configPda, isSigner := false, isWritable := false },
      { pubkey := params.participant, isSigner := true, isWritable := true },
      { pubkey := params.round, isSigner := false, isWritable := true },
      { pubkey := mixCommitmentPda params.round params.participant, isSigner := false,
        isWritable := true }]
  | settle params => [
      { pubkey := configPda, isSigner := false, isWritable := false },
      { pubkey := params.host, isSigner := true, isWritable := true },
      { pubkey := params.round, isSigner := false, isWritable := true }]

end MixRequest

/-- The account is the declared one, with at least the declared flags. -/
structure AccountMeta.Covers (given declared : AccountMeta Pubkey) : Prop where
  pubkey : given.pubkey = declared.pubkey
  isSigner : declared.isSigner → given.isSigner
  isWritable : declared.isWritable → given.isWritable

/-- The SDK builds the instruction, and every account of it fits its role. -/
def KeysMatch (request : MixRequest Pubkey) : Prop :=
  ∃ ix, request.build = .ok ix ∧ List.Forall₂ AccountMeta.Covers ix.keys request.declared

/-- How many accounts the SDK sends for a request. -/
def MixRequest.keyCount : MixRequest Pubkey → ℕ
  | init _ | commit _ => 4
  | reveal _ | settle _ => 3

theorem length_keys {request : MixRequest Pubkey} {ix : TransactionInstruction Pubkey}
    (h : request.build = .ok ix) : ix.keys.length = request.keyCount := by
  cases request with
  | init params =>
    simp only [MixRequest.build, buildMixInitInstruction, except_bind_eq_ok,
      except_pure_eq_ok] at h
    obtain ⟨_, _, _, _, _, _, _, _, rfl⟩ := h
    rfl
  | commit params =>
    simp only [MixRequest.build, buildMixCommitInstruction, throwUnless_bind_eq_ok,
      except_pure_eq_ok] at h
    obtain ⟨_, rfl⟩ := h
    rfl
  | reveal params =>
    simp only [MixRequest.build, buildMixRevealInstruction, throwUnless_bind_eq_ok,
      except_pure_eq_ok] at h
    obtain ⟨_, _, rfl⟩ := h
    rfl
  | settle params =>
    cases h
    rfl

/-- Where the SDK leaves out the config, the list is too short.  To settle, it puts the round where
the program expects the signature of the host. -/
theorem not_keysMatch (request : MixRequest Pubkey) : ¬ KeysMatch request := by
  rintro ⟨ix, hbuild, hcovers⟩
  have hlen := hcovers.length_eq
  rw [length_keys hbuild] at hlen
  cases request with
  | init params => simp [MixRequest.keyCount, MixRequest.declared] at hlen
  | commit params => simp [MixRequest.keyCount, MixRequest.declared] at hlen
  | reveal params => simp [MixRequest.keyCount, MixRequest.declared] at hlen
  | settle params =>
    cases hbuild
    simp only [buildMixSettleInstruction, MixRequest.declared, List.forall₂_cons] at hcovers
    obtain ⟨-, hround, -⟩ := hcovers
    exact Bool.false_ne_true (hround.isSigner rfl)

/-- To settle a round, the SDK lists its host, the round and the config. -/
theorem settle_keys_shifted :
    (buildMixSettleInstruction ⟨Sample.host, Sample.round, [0, 1, 2, 3]⟩).keys.map
        AccountMeta.pubkey = [Sample.host, Sample.round, configPda] ∧
      ¬ KeysMatch (.settle ⟨Sample.host, Sample.round, [0, 1, 2, 3]⟩) := by
  refine ⟨rfl, ?_⟩
  rintro ⟨ix, hbuild, hcovers⟩
  cases hbuild
  obtain - | ⟨hconfig, -⟩ := hcovers
  exact absurd hconfig.pubkey (by decide)

end Sdk

end Ghos
