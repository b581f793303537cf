import Ghos.Program.CallViews
import Ghos.Mix.Requests

/-!
# Well-formed calls

Calls whose accounts are all at their own addresses, signed by the one party they need, and when
they are accepted.  At the end a concrete `External`, for concrete runs.
-/

namespace Ghos

variable {Pubkey Digest World : Type} [AddressSpace Pubkey]

section Requests

/-- An invocation of `ghos` as a call. -/
def Invocation.toCall (t : Invocation Pubkey Digest) (world : World) : Call Pubkey Digest World :=
  ⟨t.now, t.signers, world, .core t.instruction⟩

def createBurnerBy (owner burner : Pubkey) (nonce : UInt64) (ttlSeconds now : Int64)
    (world : World) : Call Pubkey Digest World :=
  ⟨now, [owner], world, .createBurner
    ⟨configPda, owner, burner, burnerPda owner nonce, systemProgramId⟩ nonce ttlSeconds⟩

variable [External Pubkey World]

def shieldBy (owner confidentialAta mint : Pubkey) (amount : UInt64) (now : Int64)
    (world : World) : Call Pubkey Digest World :=
  ⟨now, [owner], world, .shield
    ⟨configPda, owner, confidentialAta, mint, token2022ProgramId⟩ amount⟩

def confidentialTransferBy (sourceOwner sourceAccount destinationOwner destinationAccount mint
    equalityProofContext ciphertextValidityProofContext rangeProofContext : Pubkey)
    (auditorEntry : Option Pubkey) (newSourceDecryptableBalance : Vector UInt8 36) (now : Int64)
    (world : World) : Call Pubkey Digest World :=
  ⟨now, [sourceOwner], world, .confidentialTransfer ⟨configPda, sourceOwner, sourceAccount,
    destinationAccount, mint, equalityProofContext, ciphertextValidityProofContext,
    rangeProofContext, auditorEntry, token2022ProgramId⟩ destinationOwner
    newSourceDecryptableBalance⟩

def withdrawBy (owner confidentialAta mint : Pubkey)
    (rangeProofContext equalityProofContext auditorEntry : Option Pubkey) (amount : UInt64)
    (newDecryptableAvailable : Vector UInt8 36) (now : Int64) (world : World) :
    Call Pubkey Digest World :=
  ⟨now, [owner], world, .withdraw ⟨configPda, owner, confidentialAta, mint, rangeProofContext,
    equalityProofContext, auditorEntry, token2022ProgramId⟩ amount newDecryptableAvailable⟩

def destroyBurnerBy (owner burnerEntry proofContext : Pubkey) (zeroProofBytes : List UInt8)
    (now : Int64) (world : World) : Call Pubkey Digest World :=
  ⟨now, [owner], world, .destroyBurner ⟨configPda, owner, burnerEntry, zkTokenProofProgramId,
    proofContext, systemProgramId⟩ zeroProofBytes⟩

def auditorRegisterBy (admin mint proofContext : Pubkey) (auditorPubkey : Vector UInt8 32)
    (pubkeyValidityProof : List UInt8) (rotationCooldown now : Int64) (world : World) :
    Call Pubkey Digest World :=
  ⟨now, [admin], world, .auditorRegister ⟨configPda, admin, mint, auditorPda mint,
    zkTokenProofProgramId, proofContext, systemProgramId⟩ auditorPubkey pubkeyValidityProof
    rotationCooldown⟩

def auditorRotateBy (admin mint proofContext : Pubkey) (newAuditorPubkey : Vector UInt8 32)
    (pubkeyValidityProof : List UInt8) (now : Int64) (world : World) : Call Pubkey Digest World :=
  ⟨now, [admin], world, .auditorRotate ⟨configPda, admin, mint, auditorPda mint,
    zkTokenProofProgramId, proofContext, systemProgramId⟩ newAuditorPubkey pubkeyValidityProof⟩

variable [DecidableEq Pubkey] [DecidableEq Digest] [Sha256 Digest] {c : Chain Pubkey Digest}
  {now : Int64} {world : World}

@[simp] theorem accepts_toCall_iff {t : Invocation Pubkey Digest} :
    program.Accepts c (t.toCall world) ↔ ghos.Accepts c.ledger t :=
  accepts_core_iff

theorem accepts_createBurnerBy_iff (hL : WellAddressed c.ledger) {owner burner : Pubkey}
    {nonce : UInt64} {ttl : Int64} :
    program.Accepts c (createBurnerBy owner burner nonce ttl now world) ↔
      ∃ config, c.config = some config ∧ config.paused = false ∧ c.isFree (burnerPda owner nonce) ∧
        burnerTtlMinSeconds ≤ ttl ∧ ttl ≤ burnerTtlMaxSeconds := by
  rw [createBurnerBy, accepts_createBurner_iff]
  constructor
  · rintro ⟨config, h⟩
    exact ⟨config, h.configAt.stored, h.unpaused, h.fresh, h.ttl⟩
  · rintro ⟨config, hc, hu, hf, ht⟩
    exact ⟨config, hL.isConfigAt hc, List.mem_singleton_self _, rfl, rfl, hf, hu, ht⟩

/-- Token-2022 takes a deposit of `amount` from `owner`. -/
structure Depositable (world : World) (owner confidentialAta mint : Pubkey) (amount : UInt64) :
    Prop where
  account : IsConfidentialAccount world confidentialAta mint owner
  deposit : ∃ state, IsConfidentialMint world mint state ∧ ∃ world',
    invoke world (.deposit confidentialAta mint owner amount state.decimals) = .ok world'

theorem accepts_shieldBy_iff (hL : WellAddressed c.ledger) {owner confidentialAta mint : Pubkey}
    {amount : UInt64} :
    program.Accepts c (shieldBy owner confidentialAta mint amount now world) ↔
      ∃ config, c.config = some config ∧ config.paused = false ∧
        (dustFreeUnit ≤ amount ∧ amount % dustFreeUnit = 0) ∧
        Depositable world owner confidentialAta mint amount := by
  rw [shieldBy, accepts_shield_iff]
  constructor
  · rintro ⟨world', config, state, h⟩
    exact ⟨config, h.configAt.stored, h.unpaused, h.dustFree, h.account, state, h.mintAt, world',
      h.deposited⟩
  · rintro ⟨config, hc, hu, ha, hacc, state, hm, world', hw⟩
    exact ⟨world', config, state, hL.isConfigAt hc, List.mem_singleton_self _, hu, ha, rfl, hm,
      hacc, hw⟩

/-- Token-2022 lets `owner` withdraw `amount`. -/
structure Withdrawable (world : World) (owner confidentialAta mint : Pubkey)
    (rangeProofContext equalityProofContext : Option Pubkey) (amount : UInt64)
    (newDecryptableAvailable : Vector UInt8 36) : Prop where
  account : IsConfidentialAccount world confidentialAta mint owner
  withdraw : ∃ state, IsConfidentialMint world mint state ∧ ∃ world',
    invoke world (.withdraw confidentialAta mint owner amount state.decimals
      newDecryptableAvailable equalityProofContext rangeProofContext) = .ok world'

/-- A withdrawal that names no auditor entry is judged by Token-2022 alone. -/
theorem accepts_withdrawBy_none_iff (hL : WellAddressed c.ledger)
    {owner confidentialAta mint : Pubkey}
    {rangeProofContext equalityProofContext : Option Pubkey} {amount : UInt64}
    {balance : Vector UInt8 36} :
    program.Accepts c (withdrawBy owner confidentialAta mint rangeProofContext
        equalityProofContext none amount balance now world) ↔
      ∃ config, c.config = some config ∧ config.paused = false ∧
        (dustFreeUnit ≤ amount ∧ amount % dustFreeUnit = 0) ∧
        Withdrawable world owner confidentialAta mint rangeProofContext equalityProofContext
          amount balance := by
  rw [withdrawBy, accepts_withdraw_iff]
  constructor
  · rintro ⟨world', config, state, entry, h⟩
    exact ⟨config, h.configAt.stored, h.unpaused, h.dustFree, h.account, state, h.mintAt, world',
      h.withdrawn⟩
  · rintro ⟨config, hc, hu, ha, hacc, state, hm, world', hw⟩
    exact ⟨world', config, state, none, hL.isConfigAt hc, List.mem_singleton_self _, rfl, hu, ha,
      rfl, hm, hacc, by simp, hw⟩

/-- Token-2022 lets `sourceOwner` transfer. -/
structure Transferable (world : World) (sourceOwner sourceAccount destinationOwner
    destinationAccount mint equalityProofContext ciphertextValidityProofContext
    rangeProofContext : Pubkey) (newSourceDecryptableBalance : Vector UInt8 36) : Prop where
  source : IsConfidentialAccount world sourceAccount mint sourceOwner
  destination : IsConfidentialAccount world destinationAccount mint destinationOwner
  transfer : ∃ world', invoke world (.transfer sourceAccount mint destinationAccount sourceOwner
    newSourceDecryptableBalance equalityProofContext ciphertextValidityProofContext
    rangeProofContext) = .ok world'

theorem accepts_confidentialTransferBy_none_iff (hL : WellAddressed c.ledger)
    {sourceOwner sourceAccount destinationOwner destinationAccount mint equalityProofContext
      ciphertextValidityProofContext rangeProofContext : Pubkey} {balance : Vector UInt8 36} :
    program.Accepts c (confidentialTransferBy sourceOwner sourceAccount destinationOwner
        destinationAccount mint equalityProofContext ciphertextValidityProofContext
        rangeProofContext none balance now world) ↔
      ∃ config, c.config = some config ∧ config.paused = false ∧
        Transferable world sourceOwner sourceAccount destinationOwner destinationAccount mint
          equalityProofContext ciphertextValidityProofContext rangeProofContext balance := by
  rw [confidentialTransferBy, accepts_confidentialTransfer_iff]
  constructor
  · rintro ⟨world', config, entry, h⟩
    exact ⟨config, h.configAt.stored, h.unpaused, h.source, h.destination, world', h.transferred⟩
  · rintro ⟨config, hc, hu, hs, hd, world', hw⟩
    exact ⟨world', config, none, hL.isConfigAt hc, List.mem_singleton_self _, rfl, by simp, hu,
      rfl, hs, hd, hw⟩

/-- The zk-token-proof program accepts a proof of the validity of a key. -/
def KeyVerified (world : World) (admin proofContext : Pubkey) (proof : List UInt8) : Prop :=
  ∃ world', invoke world (.zkTokenProof proofContext admin systemProgramId
    (ProofKind.pubkeyValidity.tag :: proof)) = .ok world'

theorem accepts_auditorRotateBy_iff (hL : WellAddressed c.ledger) (hreg : Registered c)
    {admin mint proofContext : Pubkey} {key : Vector UInt8 32} {proof : List UInt8} :
    program.Accepts c (auditorRotateBy admin mint proofContext key proof now world) ↔
      ∃ config entry, c.config = some config ∧ config.paused = false ∧ config.admin = admin ∧
        c.auditors (auditorPda mint) = some entry ∧ entry.admin = admin ∧
        entry.rotationCooldown ≤ now.saturatingSub entry.lastRotatedAt ∧
        KeyVerified world admin proofContext proof := by
  rw [auditorRotateBy, accepts_auditorRotate_iff]
  constructor
  · rintro ⟨world', config, entry, h⟩
    exact ⟨config, entry, h.configAt.stored, h.unpaused, h.admin, h.entryAt, h.entryAdmin,
      h.cooledDown, world', h.verified⟩
  · rintro ⟨config, entry, hc, hu, ha, he, hea, hcd, world', hv⟩
    exact ⟨world', config, entry, hL.isConfigAt hc, List.mem_singleton_self _, he, rfl,
      (hreg.auditorPda_entry he).2, hea, hu, ha, hcd, rfl, hv⟩

/-- The zk-token-proof program accepts a proof of a zero balance. -/
def ZeroVerified (world : World) (owner proofContext : Pubkey) (proof : List UInt8) : Prop :=
  ∃ world', invoke world (.zkTokenProof proofContext owner systemProgramId
    (ProofKind.zeroBalance.tag :: proof)) = .ok world'

theorem accepts_destroyBurnerBy_iff (hL : WellAddressed c.ledger) (hreg : Registered c)
    {owner burnerEntry proofContext : Pubkey} {proof : List UInt8} :
    program.Accepts c (destroyBurnerBy owner burnerEntry proofContext proof now world) ↔
      ∃ config entry, c.config = some config ∧ config.paused = false ∧
        c.burners burnerEntry = some entry ∧ entry.owner = owner ∧ entry.revoked = false ∧
        ZeroVerified world owner proofContext proof := by
  rw [destroyBurnerBy, accepts_destroyBurner_iff]
  constructor
  · rintro ⟨world', config, entry, h⟩
    exact ⟨config, entry, h.configAt.stored, h.unpaused, h.entryAt, h.owner, h.unrevoked, world',
      h.verified⟩
  · rintro ⟨config, entry, hc, hu, he, rfl, hr, world', hv⟩
    exact ⟨world', config, entry, hL.isConfigAt hc, List.mem_singleton_self _, he, rfl,
      hreg.burner_create he, rfl, hu, hr, rfl, hv⟩

end Requests

/-! ### A sample world -/

namespace Sample

/-- An ElGamal key. -/
def key (n : UInt8) : Vector UInt8 32 := .replicate 32 n

/-- A proof for a key: the key and the proof of knowledge of its secret, which is all ones here. -/
def keyProof (k : Vector UInt8 32) : List UInt8 := k.toList ++ .replicate 64 1

/-- The key in a proof, if the proof is valid. -/
def attestedKey (proof : List UInt8) : Option (Vector UInt8 32) :=
  if h : proof.length = 96 ∧ proof.drop 32 = .replicate 64 1 then
    some ⟨(proof.take 32).toArray, by simp [h.1]⟩
  else none

/-- The confidential account of a wallet. -/
def confidentialAta (n : ℕ) : Sym := .wallet (n + 1000)

/-- One confidential mint.  Token-2022 takes every call, the zk-token-proof program every valid
proof of a key. -/
instance : External Sym Unit where
  token2022ProgramId := .wallet 100
  zkTokenProofProgramId := .wallet 101
  accountOwner _ a :=
    match a with
    | .wallet n => if n = 3 ∨ 1000 ≤ n then .wallet 100 else systemProgramId
    | _ => systemProgramId
  unpackMint _ a :=
    if a = mint then some ⟨6, some [.confidentialTransferMint]⟩ else none
  unpackAccount _ a :=
    match a with
    | .wallet n =>
      if 1000 ≤ n then
        some ⟨mint, .wallet (n - 1000), some [.confidentialTransferAccount]⟩
      else none
    | _ => none
  invoke _ ix :=
    match ix with
    | .zkTokenProof _ _ _ (tag :: proof) =>
      if tag = ProofKind.pubkeyValidity.tag ∧ (attestedKey proof).isNone then .error 0 else .ok ()
    | .zkTokenProof _ _ _ [] => .error 0
    | _ => .ok ()

end Sample

end Ghos
