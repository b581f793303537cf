import Ghos.Client.Arguments
import Ghos.Client.MixAccounts
import Ghos.Client.ElGamal
import Ghos.Program.Wire

/-!
# The instructions of the SDK

`sdk/src/instructions` has a builder for each of the fourteen instructions.  The four of the mix
rounds, `config_update` and `create_burner` are in other modules; the rest is here.

* `Request`: a call of a builder with its parameters;
* `head_keys`: the first account of every instruction is the key that signs and pays;
* `reads_arguments`: what the program makes of the bytes that the builders write behind the
  discriminator.
-/

namespace Ghos

namespace Sdk

/-! ### The builders -/

/-- `TOKEN_2022_PROGRAM_ID` and `ZK_TOKEN_PROOF_PROGRAM_ID`. -/
class ForeignIds (Pubkey : Type) where
  token2022ProgramId : Pubkey
  zkTokenProofProgramId : Pubkey

variable {Pubkey : Type} [AddressSpace Pubkey] [ForeignIds Pubkey]

/-- `discriminatorFor("initialize")`. -/
def initializeDiscriminator : List UInt8 := [175, 175, 109, 31, 13, 152, 155, 237]

/-- `discriminatorFor("shield")`. -/
def shieldDiscriminator : List UInt8 := [39, 180, 221, 20, 117, 145, 215, 75]

/-- `discriminatorFor("applyPending")`. -/
def applyPendingDiscriminator : List UInt8 := [210, 145, 33, 112, 87, 19, 171, 240]

/-- `discriminatorFor("confidentialTransfer")`. -/
def confidentialTransferDiscriminator : List UInt8 := [152, 219, 200, 10, 84, 8, 222, 91]

/-- `discriminatorFor("withdraw")`. -/
def withdrawDiscriminator : List UInt8 := [183, 18, 70, 156, 148, 109, 161, 34]

/-- `discriminatorFor("destroyBurner")`. -/
def destroyBurnerDiscriminator : List UInt8 := [230, 71, 195, 232, 28, 120, 80, 19]

/-- `discriminatorFor("auditorRegister")`. -/
def auditorRegisterDiscriminator : List UInt8 := [60, 9, 224, 121, 34, 83, 1, 11]

/-- `discriminatorFor("auditorRotate")`. -/
def auditorRotateDiscriminator : List UInt8 := [58, 174, 246, 204, 53, 71, 98, 152]

structure BuildInitializeParams (Pubkey : Type) where
  admin : Pubkey
  dustFreeUnit : Option ℤ := none
  burnerTtlMin : Option ℤ := none
  burnerTtlMax : Option ℤ := none
  burnerRegistryCap : Option ℤ := none
  mixMinParticipants : Option ℤ := none
  mixMaxParticipants : Option ℤ := none
  mixRevealWindow : Option ℤ := none
  auditorCosignLamports : Option ℤ := none
  deriving DecidableEq

omit [ForeignIds Pubkey] in
/-- Build the `initialize` instruction. -/
def buildInitializeInstruction (params : BuildInitializeParams Pubkey) :
    Except SdkError (TransactionInstruction Pubkey) := do
  let config := (findProgramAddress configSeeds).1
  let dustFreeUnit ← encodeU64Le (.bigint (params.dustFreeUnit.getD 1000))
  let burnerTtlMin ← encodeI64Le (.number (params.burnerTtlMin.getD 60))
  let burnerTtlMax ← encodeI64Le (.number (params.burnerTtlMax.getD (60 * 60 * 24 * 30)))
  let burnerRegistryCap := encodeU16Le (params.burnerRegistryCap.getD 64)
  let mixMinParticipants := encodeU8Le (params.mixMinParticipants.getD 4)
  let mixMaxParticipants := encodeU8Le (params.mixMaxParticipants.getD 16)
  let mixRevealWindow ← encodeI64Le (.number (params.mixRevealWindow.getD (60 * 10)))
  let auditorCosignLamports ← encodeU64Le (.bigint (params.auditorCosignLamports.getD 5000))
  return {
    keys := [
      { pubkey := params.admin, isSigner := true, isWritable := true },
      { pubkey := config, isSigner := false, isWritable := true },
      { pubkey := systemProgramId, isSigner := false, isWritable := false }]
    data := initializeDiscriminator ++ dustFreeUnit ++ burnerTtlMin ++ burnerTtlMax ++
      burnerRegistryCap ++ mixMinParticipants ++ mixMaxParticipants ++ mixRevealWindow ++
      auditorCosignLamports }

structure BuildShieldParams (Pubkey : Type) where
  owner : Pubkey
  mint : Pubkey
  sourceAta : Pubkey
  destinationConfidentialAccount : Pubkey
  amount : ℤ
  tokenProgramId : Option Pubkey := none
  deriving DecidableEq

/-- Assemble the shield instruction. -/
def buildShieldInstruction (params : BuildShieldParams Pubkey) :
    Except SdkError (TransactionInstruction Pubkey) := do
  let tokenProgramId := params.tokenProgramId.getD ForeignIds.token2022ProgramId
  let configPda := (findProgramAddress configSeeds).1
  let paddingVault := (findProgramAddress paddingVaultSeeds).1
  let amount ← encodeU64Le (.bigint params.amount)
  return {
    keys := [
      { pubkey := params.owner, isSigner := true, isWritable := true },
      { pubkey := params.mint, isSigner := false, isWritable := false },
      { pubkey := params.sourceAta, isSigner := false, isWritable := true },
      { pubkey := params.destinationConfidentialAccount, isSigner := false, isWritable := true },
      { pubkey := configPda, isSigner := false, isWritable := false },
      { pubkey := paddingVault, isSigner := false, isWritable := true },
      { pubkey := tokenProgramId, isSigner := false, isWritable := false },
      { pubkey := systemProgramId, isSigner := false, isWritable := false }]
    data := shieldDiscriminator ++ amount }

structure BuildApplyPendingParams (Pubkey : Type) where
  owner : Pubkey
  mint : Pubkey
  confidentialAccount : Pubkey
  tokenProgramId : Option Pubkey := none
  deriving DecidableEq

/-- Build the `apply_pending` instruction. -/
def buildApplyPendingInstruction (params : BuildApplyPendingParams Pubkey) :
    TransactionInstruction Pubkey :=
  { keys := [
      { pubkey := params.owner, isSigner := true, isWritable := true },
      { pubkey := params.mint, isSigner := false, isWritable := false },
      { pubkey := params.confidentialAccount, isSigner := false, isWritable := true },
      { pubkey := (findProgramAddress configSeeds).1, isSigner := false, isWritable := false },
      { pubkey := params.tokenProgramId.getD ForeignIds.token2022ProgramId, isSigner := false,
        isWritable := false }]
    data := applyPendingDiscriminator }

structure BuildConfidentialTransferParams (Pubkey : Type) where
  owner : Pubkey
  mint : Pubkey
  sourceAccount : Pubkey
  destinationAccount : Pubkey
  destinationOwner : Pubkey
  rangeProofContext : Pubkey
  equalityProofContext : Pubkey
  auditorEntry : Option Pubkey := none
  proofRangeHandle : ℤ
  proofEqualityHandle : ℤ
  sourceCiphertext : ElGamalCiphertext
  destCiphertext : ElGamalCiphertext
  tokenProgramId : Option Pubkey := none
  deriving DecidableEq

/-- `setUint32`, which keeps the low 32 bits. -/
def encodeU32Le (value : ℤ) : List UInt8 := leBytes 4 (value % 2 ^ 32).toNat

def flattenCiphertext (c : ElGamalCiphertext) : Except SdkError (List UInt8) := do
  throwUnless (c.c1.length = 32 ∧ c.c2.length = 32)
    (.error "ciphertext components must each be 32 bytes")
  return c.c1 ++ c.c2

/-- Build the `confidential_transfer` instruction. -/
def buildConfidentialTransferInstruction (params : BuildConfidentialTransferParams Pubkey) :
    Except SdkError (TransactionInstruction Pubkey) := do
  let tokenProgramId := params.tokenProgramId.getD ForeignIds.token2022ProgramId
  let configPda := (findProgramAddress configSeeds).1
  let auditorPda := params.auditorEntry.getD (findProgramAddress (auditorSeeds params.mint)).1
  let source ← flattenCiphertext params.sourceCiphertext
  let dest ← flattenCiphertext params.destCiphertext
  return {
    keys := [
      { pubkey := params.owner, isSigner := true, isWritable := true },
      { pubkey := params.mint, isSigner := false, isWritable := false },
      { pubkey := params.sourceAccount, isSigner := false, isWritable := true },
      { pubkey := params.destinationAccount, isSigner := false, isWritable := true },
      { pubkey := params.destinationOwner, isSigner := false, isWritable := false },
      { pubkey := params.rangeProofContext, isSigner := false, isWritable := false },
      { pubkey := params.equalityProofContext, isSigner := false, isWritable := false },
      { pubkey := auditorPda, isSigner := false, isWritable := false },
      { pubkey := configPda, isSigner := false, isWritable := false },
      { pubkey := ForeignIds.zkTokenProofProgramId, isSigner := false, isWritable := false },
      { pubkey := tokenProgramId, isSigner := false, isWritable := false }]
    data := confidentialTransferDiscriminator ++ encodeU32Le params.proofRangeHandle ++
      encodeU32Le params.proofEqualityHandle ++ source ++ dest }

structure BuildWithdrawParams (Pubkey : Type) where
  owner : Pubkey
  mint : Pubkey
  sourceAccount : Pubkey
  destinationAta : Pubkey
  amount : ℤ
  requireAuditor : Option Bool := none
  auditorEntry : Option Pubkey := none
  tokenProgramId : Option Pubkey := none
  deriving DecidableEq

/-- Build the `withdraw` instruction. -/
def buildWithdrawInstruction (params : BuildWithdrawParams Pubkey) :
    Except SdkError (TransactionInstruction Pubkey) := do
  let tokenProgramId := params.tokenProgramId.getD ForeignIds.token2022ProgramId
  let configPda := (findProgramAddress configSeeds).1
  let auditorPda := params.auditorEntry.getD (findProgramAddress (auditorSeeds params.mint)).1
  let requireAuditor := params.requireAuditor.getD false
  let amount ← encodeU64Le (.bigint params.amount)
  return {
    keys := [
      { pubkey := params.owner, isSigner := true, isWritable := true },
      { pubkey := params.mint, isSigner := false, isWritable := false },
      { pubkey := params.sourceAccount, isSigner := false, isWritable := true },
      { pubkey := params.destinationAta, isSigner := false, isWritable := true },
      { pubkey := configPda, isSigner := false, isWritable := false },
      { pubkey := auditorPda, isSigner := false, isWritable := false },
      { pubkey := ForeignIds.zkTokenProofProgramId, isSigner := false, isWritable := false },
      { pubkey := tokenProgramId, isSigner := false, isWritable := false }]
    data := withdrawDiscriminator ++ amount ++ [if requireAuditor then 1 else 0] }

structure BuildDestroyBurnerParams (Pubkey : Type) where
  owner : Pubkey
  burnerEntry : Pubkey
  deriving DecidableEq

omit [AddressSpace Pubkey] [ForeignIds Pubkey] in
/-- Build the `destroy_burner` instruction. -/
def buildDestroyBurnerInstruction (params : BuildDestroyBurnerParams Pubkey) :
    TransactionInstruction Pubkey :=
  { keys := [
      { pubkey := params.owner, isSigner := true, isWritable := true },
      { pubkey := params.burnerEntry, isSigner := false, isWritable := true }]
    data := destroyBurnerDiscriminator }

structure BuildAuditorRegisterParams (Pubkey : Type) where
  admin : Pubkey
  mint : Pubkey
  auditorPubkey : List UInt8
  rotationCooldownSeconds : ℤ
  deriving DecidableEq

omit [ForeignIds Pubkey] in
/-- Build the `auditor_register` instruction. -/
def buildAuditorRegisterInstruction (params : BuildAuditorRegisterParams Pubkey) :
    Except SdkError (TransactionInstruction Pubkey) := do
  throwUnless (params.auditorPubkey.length = 32)
    (.error s!"auditor pubkey must be 32 bytes, got {params.auditorPubkey.length}")
  let auditorPda := (findProgramAddress (auditorSeeds params.mint)).1
  let configPda := (findProgramAddress configSeeds).1
  let rotationCooldownSeconds ← encodeI64Le (.number params.rotationCooldownSeconds)
  return {
    keys := [
      { pubkey := params.admin, isSigner := true, isWritable := true },
      { pubkey := params.mint, isSigner := false, isWritable := false },
      { pubkey := auditorPda, isSigner := false, isWritable := true },
      { pubkey := configPda, isSigner := false, isWritable := false },
      { pubkey := systemProgramId, isSigner := false, isWritable := false }]
    data := auditorRegisterDiscriminator ++ params.auditorPubkey ++ rotationCooldownSeconds }

structure BuildAuditorRotateParams (Pubkey : Type) where
  admin : Pubkey
  mint : Pubkey
  newAuditorPubkey : List UInt8
  deriving DecidableEq

omit [ForeignIds Pubkey] in
/-- Build the `auditor_rotate` instruction. -/
def buildAuditorRotateInstruction (params : BuildAuditorRotateParams Pubkey) :
    Except SdkError (TransactionInstruction Pubkey) := do
  throwUnless (params.newAuditorPubkey.length = 32)
    (.error s!"new auditor pubkey must be 32 bytes, got {params.newAuditorPubkey.length}")
  let auditorPda := (findProgramAddress (auditorSeeds params.mint)).1
  let configPda := (findProgramAddress configSeeds).1
  return {
    keys := [
      { pubkey := params.admin, isSigner := true, isWritable := true },
      { pubkey := params.mint, isSigner := false, isWritable := false },
      { pubkey := auditorPda, isSigner := false, isWritable := true },
      { pubkey := configPda, isSigner := false, isWritable := false }]
    data := auditorRotateDiscriminator ++ params.newAuditorPubkey }

/-! ### The data behind the discriminators -/

section Data

variable {ix : TransactionInstruction Pubkey}

omit [AddressSpace Pubkey] [ForeignIds Pubkey] in
/-- A `bigint` is written by its magnitude. -/
theorem encodeU64Le_bigint {v : ℤ} {b : List UInt8} (h : encodeU64Le (.bigint v) = .ok b) :
    b = (UInt64.ofNat v.natAbs).toLeBytes := by
  simp only [encodeU64Le, JsInteger.toBN, except_bind_eq_ok, Except.ok.injEq, exists_eq_left',
    toArrayLike_eq_ok] at h
  obtain ⟨hlt, rfl⟩ := h
  rw [UInt64.toLeBytes, UInt64.toNat_ofNat_of_lt' (by simpa using hlt)]

omit [AddressSpace Pubkey] [ForeignIds Pubkey] in
/-- A `number` that is small enough is written in two's complement. -/
theorem encodeI64Le_number {v : ℤ} {b : List UInt8} (h : encodeI64Le (.number v) = .ok b) :
    b = (Int64.ofInt v).toLeBytes := by
  have hsmall : v.natAbs < 2 ^ 53 := by
    simp only [encodeI64Le, JsInteger.toBN, except_bind_eq_ok, throwUnless_eq_ok,
      except_pure_eq_ok] at h
    obtain ⟨_, ⟨_, hsmall, -⟩, -⟩ := h
    exact hsmall
  have hv : (Int64.ofInt v).toInt = v := Int64.toInt_ofInt_of_le (by omega) (by omega)
  rw [← hv] at h
  exact (encodeI64Le_eq_ok.1 h).2.symm

omit [AddressSpace Pubkey] [ForeignIds Pubkey] in
/-- The arguments behind the discriminator of `confidential_transfer`. -/
def transferBytes (params : BuildConfidentialTransferParams Pubkey) : List UInt8 :=
  encodeU32Le params.proofRangeHandle ++ (encodeU32Le params.proofEqualityHandle ++
    (params.sourceCiphertext.c1 ++ (params.sourceCiphertext.c2 ++
      (params.destCiphertext.c1 ++ params.destCiphertext.c2))))

theorem buildShieldInstruction_data {params : BuildShieldParams Pubkey}
    (h : buildShieldInstruction params = .ok ix) :
    ix.data.drop 8 = (UInt64.ofNat params.amount.natAbs).toLeBytes := by
  simp only [buildShieldInstruction, except_bind_eq_ok, except_pure_eq_ok] at h
  obtain ⟨amount, hamount, rfl⟩ := h
  rw [encodeU64Le_bigint hamount]
  rfl

theorem buildConfidentialTransferInstruction_data
    {params : BuildConfidentialTransferParams Pubkey}
    (h : buildConfidentialTransferInstruction params = .ok ix) :
    ix.data.drop 8 = transferBytes params := by
  simp only [buildConfidentialTransferInstruction, flattenCiphertext, except_bind_eq_ok,
    throwUnless_eq_ok, except_pure_eq_ok] at h
  obtain ⟨_, ⟨_, -, rfl⟩, _, ⟨_, -, rfl⟩, rfl⟩ := h
  simp only [List.append_assoc]
  rfl

theorem buildWithdrawInstruction_data {params : BuildWithdrawParams Pubkey}
    (h : buildWithdrawInstruction params = .ok ix) :
    ix.data.drop 8 = (UInt64.ofNat params.amount.natAbs).toLeBytes ++
      [if params.requireAuditor.getD false then 1 else 0] := by
  simp only [buildWithdrawInstruction, except_bind_eq_ok, except_pure_eq_ok] at h
  obtain ⟨amount, hamount, rfl⟩ := h
  rw [encodeU64Le_bigint hamount, List.append_assoc]
  rfl

omit [ForeignIds Pubkey] in
theorem buildAuditorRegisterInstruction_data {params : BuildAuditorRegisterParams Pubkey}
    (h : buildAuditorRegisterInstruction params = .ok ix) :
    params.auditorPubkey.length = 32 ∧
      ix.data.drop 8 = params.auditorPubkey ++
        (Int64.ofInt params.rotationCooldownSeconds).toLeBytes := by
  simp only [buildAuditorRegisterInstruction, except_bind_eq_ok, throwUnless_eq_ok,
    except_pure_eq_ok] at h
  obtain ⟨_, hlen, cooldown, hcooldown, rfl⟩ := h
  rw [encodeI64Le_number hcooldown, List.append_assoc]
  exact ⟨hlen, rfl⟩

omit [ForeignIds Pubkey] in
theorem buildAuditorRotateInstruction_data {params : BuildAuditorRotateParams Pubkey}
    (h : buildAuditorRotateInstruction params = .ok ix) :
    params.newAuditorPubkey.length = 32 ∧ ix.data.drop 8 = params.newAuditorPubkey := by
  simp only [buildAuditorRotateInstruction, throwUnless_bind_eq_ok, except_pure_eq_ok] at h
  obtain ⟨hlen, rfl⟩ := h
  exact ⟨hlen, rfl⟩

omit [ForeignIds Pubkey] in
theorem exists_buildCreateBurnerInstruction_data [KeyBytes Pubkey]
    {params : BuildCreateBurnerParams Pubkey}
    (h : buildCreateBurnerInstruction params = .ok ix) :
    ∃ ttl, ix.data.drop 8 = (UInt64.ofNat params.nonce.natAbs).toLeBytes ++
      ((KeyBytes.toBytes params.burnerPubkey).toList ++ ttl) := by
  simp only [buildCreateBurnerInstruction, except_bind_eq_ok, except_pure_eq_ok] at h
  obtain ⟨_, -, nonce, hnonce, ttl, -, rfl⟩ := h
  simp only [encodeU64Le_bigint hnonce, List.append_assoc]
  exact ⟨ttl, rfl⟩

omit [ForeignIds Pubkey] in
theorem buildMixInitInstruction_data {params : BuildMixInitParams Pubkey}
    (h : buildMixInitInstruction params = .ok ix) :
    ix.data.drop 8 = (UInt64.ofNat params.roundNonce.natAbs).toLeBytes ++
      ((UInt64.ofNat params.denomination.natAbs).toLeBytes ++ (encodeU8Le params.capacity ++
        (Int64.ofInt params.commitWindowSeconds).toLeBytes)) := by
  simp only [buildMixInitInstruction, except_bind_eq_ok, except_pure_eq_ok] at h
  obtain ⟨_, -, roundNonce, hround, denomination, hdenomination, window, hwindow, rfl⟩ := h
  rw [encodeU64Le_bigint hround, encodeU64Le_bigint hdenomination, encodeI64Le_number hwindow]
  simp only [List.append_assoc]
  rfl

omit [ForeignIds Pubkey] in
theorem buildMixCommitInstruction_data {params : BuildMixCommitParams Pubkey}
    (h : buildMixCommitInstruction params = .ok ix) :
    params.commitment.length = 32 ∧
      ix.data.drop 8 = params.commitment ++ encodeU8Le params.index := by
  simp only [buildMixCommitInstruction, throwUnless_bind_eq_ok, except_pure_eq_ok] at h
  obtain ⟨hlen, rfl⟩ := h
  rw [List.append_assoc]
  exact ⟨hlen, rfl⟩

end Data

/-! ### Requests -/

/-- A builder with its parameters. -/
inductive Request (Pubkey : Type)
  | ghosInitialize (params : BuildInitializeParams Pubkey)
  | configUpdate (admin : Pubkey) (field : FieldTuple)
  | shield (params : BuildShieldParams Pubkey)
  | applyPending (params : BuildApplyPendingParams Pubkey)
  | confidentialTransfer (params : BuildConfidentialTransferParams Pubkey)
  | withdraw (params : BuildWithdrawParams Pubkey)
  | createBurner (params : BuildCreateBurnerParams Pubkey)
  | destroyBurner (params : BuildDestroyBurnerParams Pubkey)
  | auditorRegister (params : BuildAuditorRegisterParams Pubkey)
  | auditorRotate (params : BuildAuditorRotateParams Pubkey)
  | mixInit (params : BuildMixInitParams Pubkey)
  | mixCommit (params : BuildMixCommitParams Pubkey)
  | mixReveal (params : MixOpening Pubkey)
  | mixSettle (params : BuildMixSettleParams Pubkey)

namespace Request

variable [KeyBytes Pubkey]

def build : Request Pubkey → Except SdkError (TransactionInstruction Pubkey)
  | ghosInitialize params => buildInitializeInstruction params
  | configUpdate admin field => buildConfigUpdateInstruction admin field
  | shield params => buildShieldInstruction params
  | applyPending params => return buildApplyPendingInstruction params
  | confidentialTransfer params => buildConfidentialTransferInstruction params
  | withdraw params => buildWithdrawInstruction params
  | createBurner params => buildCreateBurnerInstruction params
  | destroyBurner params => return buildDestroyBurnerInstruction params
  | auditorRegister params => buildAuditorRegisterInstruction params
  | auditorRotate params => buildAuditorRotateInstruction params
  | mixInit params => buildMixInitInstruction params
  | mixCommit params => buildMixCommitInstruction params
  | mixReveal params => buildMixRevealInstruction params
  | mixSettle params => return buildMixSettleInstruction params

omit [AddressSpace Pubkey] [ForeignIds Pubkey] [KeyBytes Pubkey]

/-- The key that signs and pays. -/
def payer : Request Pubkey → Pubkey
  | ghosInitialize params => params.admin
  | configUpdate admin _ => admin
  | shield params => params.owner
  | applyPending params => params.owner
  | confidentialTransfer params => params.owner
  | withdraw params => params.owner
  | createBurner params => params.owner
  | destroyBurner params => params.owner
  | auditorRegister params => params.admin
  | auditorRotate params => params.admin
  | mixInit params => params.host
  | mixCommit params => params.participant
  | mixReveal params => params.participant
  | mixSettle params => params.host

/-- The instruction of the program that the request is for. -/
abbrev name : Request Pubkey → InstructionName
  | ghosInitialize _ => .ghosInitialize
  | configUpdate _ _ => .configUpdate
  | shield _ => .shield
  | applyPending _ => .applyPending
  | confidentialTransfer _ => .confidentialTransfer
  | withdraw _ => .withdraw
  | createBurner _ => .createBurner
  | destroyBurner _ => .destroyBurner
  | auditorRegister _ => .auditorRegister
  | auditorRotate _ => .auditorRotate
  | mixInit _ => .mixInit
  | mixCommit _ => .mixCommit
  | mixReveal _ => .mixReveal
  | mixSettle _ => .mixSettle

end Request

variable [KeyBytes Pubkey] {request : Request Pubkey} {ix : TransactionInstruction Pubkey}

/-- Every builder puts the key that pays first. -/
theorem head_keys (h : request.build = .ok ix) :
    ∃ rest, ix.keys.map AccountMeta.pubkey = request.payer :: rest := by
  cases request with
  | ghosInitialize params =>
    simp only [Request.build, buildInitializeInstruction, except_bind_eq_ok,
      except_pure_eq_ok] at h
    obtain ⟨_, _, _, _, _, _, _, _, _, _, rfl⟩ := h
    exact ⟨_, rfl⟩
  | configUpdate admin field =>
    simp only [Request.build, buildConfigUpdateInstruction, except_bind_eq_ok,
      except_pure_eq_ok] at h
    obtain ⟨_, _, _, _, rfl⟩ := h
    exact ⟨_, rfl⟩
  | shield params =>
    simp only [Request.build, buildShieldInstruction, except_bind_eq_ok, except_pure_eq_ok] at h
    obtain ⟨_, _, rfl⟩ := h
    exact ⟨_, rfl⟩
  | applyPending params => cases h; exact ⟨_, rfl⟩
  | confidentialTransfer params =>
    simp only [Request.build, buildConfidentialTransferInstruction, except_bind_eq_ok,
      except_pure_eq_ok] at h
    obtain ⟨_, _, _, _, rfl⟩ := h
    exact ⟨_, rfl⟩
  | withdraw params =>
    simp only [Request.build, buildWithdrawInstruction, except_bind_eq_ok, except_pure_eq_ok] at h
    obtain ⟨_, _, rfl⟩ := h
    exact ⟨_, rfl⟩
  | createBurner params =>
    simp only [Request.build, buildCreateBurnerInstruction, except_bind_eq_ok,
      except_pure_eq_ok] at h
    obtain ⟨_, _, _, _, _, _, rfl⟩ := h
    exact ⟨_, rfl⟩
  | destroyBurner params => cases h; exact ⟨_, rfl⟩
  | auditorRegister params =>
    simp only [Request.build, buildAuditorRegisterInstruction, except_bind_eq_ok,
      except_pure_eq_ok] at h
    obtain ⟨_, _, _, _, rfl⟩ := h
    exact ⟨_, rfl⟩
  | auditorRotate params =>
    simp only [Request.build, buildAuditorRotateInstruction, throwUnless_bind_eq_ok,
      except_pure_eq_ok] at h
    obtain ⟨_, rfl⟩ := h
    exact ⟨_, rfl⟩
  | mixInit params =>
    simp only [Request.build, buildMixInitInstruction, except_bind_eq_ok, except_pure_eq_ok] at h
    obtain ⟨_, _, _, _, _, _, _, _, rfl⟩ := h
    exact ⟨_, rfl⟩
  | mixCommit params =>
    simp only [Request.build, buildMixCommitInstruction, throwUnless_bind_eq_ok,
      except_pure_eq_ok] at h
    obtain ⟨_, rfl⟩ := h
    exact ⟨_, rfl⟩
  | mixReveal params =>
    simp only [Request.build, buildMixRevealInstruction, throwUnless_bind_eq_ok,
      except_pure_eq_ok] at h
    obtain ⟨_, _, rfl⟩ := h
    exact ⟨_, rfl⟩
  | mixSettle params => cases h; exact ⟨_, rfl⟩

/-! ### What the program reads -/

variable [KeyCodec Pubkey]

/-- From the data of the request the program reads the arguments `x`. -/
def Request.Means : (request : Request Pubkey) → request.name.Arguments Pubkey → Prop
  | .ghosInitialize _, _ | .mixSettle _, _ => True
  | .shield params, x => x = .ofNat params.amount.natAbs
  -- there is no new balance to read
  | .applyPending _, _ | .withdraw _, _ => False
  -- there is no proof to read
  | .destroyBurner _, _ | .auditorRegister _, _ | .auditorRotate _, _ => False
  -- the proof handles and the ciphertexts stand where the owner and the new balance are read
  | .confidentialTransfer params, x => ∃ p, KeyCodec.key.write x.1 = some p ∧
      p ++ x.2.toList <+: transferBytes params
  -- the key of the burner stands where the duration is read
  | .createBurner params, x => x.1 = .ofNat params.nonce.natAbs ∧
      x.2.toLeBytes = (KeyBytes.toBytes params.burnerPubkey).toList.take 8
  | .mixInit params, x => x = (.ofNat params.roundNonce.natAbs, .ofNat params.denomination.natAbs,
      .ofNat (params.capacity % 2 ^ 8).toNat, .ofInt params.commitWindowSeconds)
  | .mixCommit params, x => x.toList = params.commitment
  | .mixReveal params, x => decodeMixReveal (params.revealSignal ++ params.salt) = some x
  | .configUpdate _ field, x => ∃ p u i, ConfigField.codec.write x = some p ∧
      encodeWith encodeU64Le field.u64Value = .ok u ∧
      encodeWith encodeI64Le field.i64Value = .ok i ∧
      p <+: field.name.code :: (encodeOption u ++ (encodeOption i ++
        (encodeOption (field.boolValue.map fun v => [if v then 1 else 0]) ++
          (encodeOption (field.u16Value.map encodeU16Le) ++
            encodeOption (field.u8Value.map encodeU8Le)))))

omit [AddressSpace Pubkey] [ForeignIds Pubkey] [KeyBytes Pubkey] [KeyCodec Pubkey] in
theorem exists_read_mixReveal {data : List UInt8} {x : List UInt8 × Vector UInt8 32} :
    (∃ rest, (Codec.vec.seq (Codec.array 32)).read data = some (x, rest)) ↔
      decodeMixReveal data = some x := by
  simp only [decodeMixReveal, Codec.seq, Codec.vec, Codec.array, Codec.total, bind,
    Option.bind_eq_some_iff, Prod.exists, pure, Option.some.injEq, Prod.mk.injEq]
  constructor
  · rintro ⟨rest, pre, s, hpre, sig, t, hsig, rfl, rfl⟩
    exact ⟨pre, s, hpre, sig, t, hsig, rfl⟩
  · rintro ⟨pre, s, hpre, sig, t, hsig, rfl⟩
    exact ⟨t, pre, s, hpre, sig, t, hsig, rfl, rfl⟩

/-- What the program reads from the instruction of a request. -/
theorem reads_arguments (h : request.build = .ok ix) (x : request.name.Arguments Pubkey) :
    (∃ rest, request.name.argumentsCodec.read (ix.data.drop 8) = some (x, rest)) ↔
      request.Means x := by
  cases request with
  | ghosInitialize params => exact iff_of_true ⟨_, rfl⟩ trivial
  | mixSettle params => exact iff_of_true ⟨_, rfl⟩ trivial
  | configUpdate admin field =>
    simp only [Request.build, buildConfigUpdateInstruction, except_bind_eq_ok,
      except_pure_eq_ok] at h
    obtain ⟨u, hu, i, hi, rfl⟩ := h
    rw [Codec.exists_read_iff]
    constructor
    · rintro ⟨p, hp, hfront⟩
      exact ⟨p, u, i, hp, hu, hi, hfront⟩
    · rintro ⟨p, u', i', hp, hu', hi', hfront⟩
      cases hu.symm.trans hu'
      cases hi.symm.trans hi'
      exact ⟨p, hp, hfront⟩
  | shield params =>
    rw [buildShieldInstruction_data h]
    rw [← List.append_nil (UInt64.toLeBytes _)]
    exact Codec.exists_read_append_iff (A := Codec.u64) rfl
  | applyPending params =>
    cases h
    exact iff_of_false ((Codec.AtLeast.u64.seq (.array 36)).not_exists_read (s := [])
      (by decide)) id
  | confidentialTransfer params =>
    rw [buildConfidentialTransferInstruction_data h, Codec.exists_read_iff]
    constructor
    · rintro ⟨_, hwrite, hfront⟩
      obtain ⟨p, _, hp, ⟨⟩, rfl⟩ := Codec.seq_write_eq_some.1 hwrite
      exact ⟨p, hp, hfront⟩
    · rintro ⟨p, hp, hfront⟩
      exact ⟨_, Codec.seq_write_eq_some.2 ⟨p, _, hp, rfl, rfl⟩, hfront⟩
  | withdraw params =>
    rw [buildWithdrawInstruction_data h]
    refine iff_of_false ((Codec.AtLeast.u64.seq (.array 36)).not_exists_read ?_) id
    simp
  | createBurner params =>
    obtain ⟨ttl, hdata⟩ := exists_buildCreateBurnerInstruction_data h
    obtain ⟨v, hv⟩ : ∃ v : Int64,
        (KeyBytes.toBytes params.burnerPubkey).toList.take 8 = v.toLeBytes :=
      ⟨_, (Int64.ofNat_leNat_eq_iff (by simp)).1 rfl⟩
    show _ ↔ x.1 = .ofNat params.nonce.natAbs ∧
      x.2.toLeBytes = (KeyBytes.toBytes params.burnerPubkey).toList.take 8
    rw [hdata, hv, Int64.toLeBytes_injective.eq_iff,
      ← List.take_append_drop 8 (KeyBytes.toBytes _).toList, hv, List.append_assoc,
      ← List.append_assoc, ← Prod.ext_iff (y := (UInt64.ofNat _, v))]
    exact Codec.exists_read_append_iff (A := Codec.u64.seq Codec.i64) rfl
  | destroyBurner params =>
    cases h
    exact iff_of_false (Codec.AtLeast.vec.not_exists_read (s := []) (by decide)) id
  | auditorRegister params =>
    obtain ⟨hlen, hdata⟩ := buildAuditorRegisterInstruction_data h
    rw [hdata]
    refine iff_of_false
      (((Codec.AtLeast.array 32).seq (Codec.AtLeast.vec.seq .i64)).not_exists_read ?_) id
    simp [hlen]
  | auditorRotate params =>
    obtain ⟨hlen, hdata⟩ := buildAuditorRotateInstruction_data h
    rw [hdata]
    refine iff_of_false (((Codec.AtLeast.array 32).seq .vec).not_exists_read ?_) id
    simp [hlen]
  | mixInit params =>
    rw [buildMixInitInstruction_data h]
    have hwrite := Codec.seq_write (A := Codec.u64) (x := .ofNat params.roundNonce.natAbs) rfl
      (Codec.seq_write (A := Codec.u64) (x := .ofNat params.denomination.natAbs) rfl
        (Codec.seq_write (A := Codec.u8) (x := .ofNat (params.capacity % 2 ^ 8).toNat) rfl
          (show Codec.i64.write (.ofInt params.commitWindowSeconds) = _ from rfl)))
    rw [← List.append_nil (_ ++ _)]
    exact Codec.exists_read_append_iff hwrite
  | mixCommit params =>
    obtain ⟨hlen, hdata⟩ := buildMixCommitInstruction_data h
    obtain ⟨v, hv⟩ : ∃ v : Vector UInt8 32, v.toList = params.commitment :=
      ⟨⟨params.commitment.toArray, by simpa using hlen⟩, rfl⟩
    show _ ↔ Vector.toList x = params.commitment
    rw [hdata, ← hv, Vector.toList_inj]
    exact Codec.exists_read_append_iff (A := Codec.array 32) rfl
  | mixReveal params =>
    show _ ↔ decodeMixReveal (params.revealSignal ++ params.salt) = some x
    rw [← buildMixRevealInstruction_data h]
    exact exists_read_mixReveal

/-! ### A concrete request -/

instance : ForeignIds Sym := ⟨.wallet 100, .wallet 101⟩

/-- A request to shield 5000 base units. -/
def shieldRequest : BuildShieldParams Sym where
  owner := .wallet 1
  mint := .wallet 2
  sourceAta := .wallet 3
  destinationConfidentialAccount := .wallet 4
  amount := 5000

theorem reads_arguments_sample :
    ∃ ix, buildShieldInstruction shieldRequest = .ok ix ∧
      ∃ rest, InstructionName.shield.argumentsCodec.read (ix.data.drop 8) =
        (some (5000, rest) : Option (InstructionName.Arguments Sym .shield × List UInt8)) :=
  have hbuild : (Request.shield shieldRequest).build = .ok _ := rfl
  ⟨_, rfl, (reads_arguments hbuild (5000 : UInt64)).2 rfl⟩

end Sdk

end Ghos
