import Ghos.Client.Builders
import Ghos.Client.Settle
import Ghos.Config.Version
import Ghos.Program.Footprints

/-!
# No instruction of the clients is executed

The rest of the commands of `ghos`, from the parsed options on to the instruction, and what becomes
of the instructions of both clients.  Every builder of the SDK and every command of the CLI puts the
key that pays first (`head_keys`, `head_accounts`), and the first field of the struct is the config,
whichever instruction it is.  So a run of instructions that the clients have built changes nothing,
unless the config itself pays for one (`clients_inert`), as long as the front end of the program
binds the accounts in their order.
-/

namespace Ghos

/-! ### The commands -/

namespace Cli

variable {Point : Type} [Ristretto255 Point] {Pubkey : Type} [AddressSpace Pubkey]
  [Sdk.KeyBytes Pubkey] [Sdk.ForeignIds Pubkey]

/-- `SHIELD_DISCRIMINATOR` -/
def shieldDiscriminator : List UInt8 := [0xcd, 0x8a, 0x2d, 0xb9, 0x6d, 0xbd, 0x49, 0xec]

/-- `APPLY_PENDING_DISCRIMINATOR` -/
def applyPendingDiscriminator : List UInt8 := [0x1f, 0x29, 0xa1, 0xb8, 0x6a, 0xd4, 0x5c, 0x77]

/-- `WITHDRAW_DISCRIMINATOR` -/
def withdrawDiscriminator : List UInt8 := [0x65, 0x42, 0x8c, 0xd3, 0x6f, 0x4e, 0x1f, 0x1a]

/-- `DESTROY_BURNER_DISCRIMINATOR` -/
def destroyBurnerDiscriminator : List UInt8 := [0x9a, 0x49, 0xf3, 0xa8, 0xc7, 0x2b, 0x6e, 0x2c]

/-- `AUDITOR_ROTATE_DISCRIMINATOR` -/
def auditorRotateDiscriminator : List UInt8 := [0xd3, 0x9a, 0xb1, 0xfe, 0xac, 0x60, 0xae, 0x27]

/-- `MIX_SETTLE_DISCRIMINATOR` -/
def mixSettleDiscriminator : List UInt8 := [0x4d, 0x55, 0xb3, 0xc8, 0xac, 0xf0, 0xd2, 0x21]

/-- What a command raises before it sends its instruction. -/
inductive SubmitError
  | command (e : CommandError)
  | settle (e : SettleError)
  | notFoundError (message : String)
  | auditorError (message : String)
  deriving DecidableEq

/-- The wallet of a session, and what its key derivations and encryptions draw. -/
structure Session (Pubkey : Type) where
  owner : Pubkey
  signerBytes : List UInt8
  entropy : Entropy
  fresh : RandomScalar
  draws : SendDraws
  salt : Vector UInt8 32

section Run

variable (Point) (sha512 : List UInt8 → Vector UInt8 64) (session : Session Pubkey)

/-- `derive_elgamal_from_signer` for the user's own key. -/
def userElgamal : Except CommandError ElGamalKeypair :=
  (deriveElgamalFromSigner Point sha512 session.entropy session.signerBytes
    (some userDefault)).mapError .key

/-- The instruction of `_run_shield`, from the amount in base units on. -/
def runShield (mint : Pubkey) (baseUnits : ℤ) : Except CommandError (Instruction Pubkey) := do
  let elgamal ← userElgamal Point sha512 session
  let ciphertext ← (encrypt Point session.fresh elgamal.publicKey baseUnits none).mapError .crypto
  let (configAddr, configBump) := findProgramAddress configSeeds
  let auditorAddr := (findProgramAddress (auditorSeeds mint)).1
  let paddingAddr := (findProgramAddress (paddingVaultSeeds mint)).1
  let amount ← packU64 baseUnits
  return {
    data := shieldDiscriminator ++ amount ++ ciphertextBytes ciphertext ++
      elgamal.publicKey.encoding ++ leBytes 4 recommendedCuBudget ++ [configBump]
    accounts := [
      { pubkey := session.owner, isSigner := true, isWritable := true },
      { pubkey := mint, isSigner := false, isWritable := false },
      { pubkey := configAddr, isSigner := false, isWritable := false },
      { pubkey := auditorAddr, isSigner := false, isWritable := false },
      { pubkey := paddingAddr, isSigner := false, isWritable := true },
      { pubkey := Sdk.ForeignIds.token2022ProgramId, isSigner := false, isWritable := false },
      { pubkey := Sdk.ForeignIds.zkTokenProofProgramId, isSigner := false,
        isWritable := false }] }

/-- The instruction of `_run_apply`. -/
def runApply (mint : Pubkey) : Except CommandError (Instruction Pubkey) := do
  let elgamal ← userElgamal Point sha512 session
  let (configAddr, configBump) := findProgramAddress configSeeds
  return {
    data := applyPendingDiscriminator ++ elgamal.publicKey.encoding ++
      leBytes 4 recommendedCuBudget ++ [configBump]
    accounts := [
      { pubkey := session.owner, isSigner := true, isWritable := true },
      { pubkey := mint, isSigner := false, isWritable := false },
      { pubkey := configAddr, isSigner := false, isWritable := false },
      { pubkey := Sdk.ForeignIds.token2022ProgramId, isSigner := false, isWritable := false }] }

/-- The instruction of `_run_withdraw`, from the amount in base units on. -/
def runWithdraw (mint : Pubkey) (baseUnits : ℤ) (destination : Option Pubkey) :
    Except CommandError (Instruction Pubkey) := do
  let elgamal ← userElgamal Point sha512 session
  let (configAddr, configBump) := findProgramAddress configSeeds
  let auditorAddr := (findProgramAddress (auditorSeeds mint)).1
  let targetAta := destination.getD session.owner
  let amount ← packU64 baseUnits
  return {
    data := withdrawDiscriminator ++ amount ++ elgamal.publicKey.encoding ++
      leBytes 4 recommendedCuBudget ++ [configBump]
    accounts := [
      { pubkey := session.owner, isSigner := true, isWritable := true },
      { pubkey := mint, isSigner := false, isWritable := false },
      { pubkey := targetAta, isSigner := false, isWritable := true },
      { pubkey := configAddr, isSigner := false, isWritable := false },
      { pubkey := auditorAddr, isSigner := false, isWritable := false },
      { pubkey := Sdk.ForeignIds.token2022ProgramId, isSigner := false, isWritable := false },
      { pubkey := Sdk.ForeignIds.zkTokenProofProgramId, isSigner := false,
        isWritable := false }] }

/-- The instruction of `_run_send`: the data of `runSend` and the accounts. -/
def sendInstruction (recipient mint : Pubkey) (confidential : Bool) (baseUnits : ℤ) :
    Except SendError (Instruction Pubkey) := do
  let (configAddr, configBump) := findProgramAddress configSeeds
  let auditorAddr := (findProgramAddress (auditorSeeds mint)).1
  let data ← runSend Point sha512 session.draws session.signerBytes
    (Sdk.KeyBytes.toBytes recipient) (Sdk.KeyBytes.toBytes mint) confidential configBump baseUnits
  return {
    data
    accounts := [
      { pubkey := session.owner, isSigner := true, isWritable := true },
      { pubkey := recipient, isSigner := false, isWritable := true },
      { pubkey := mint, isSigner := false, isWritable := false },
      { pubkey := configAddr, isSigner := false, isWritable := false },
      { pubkey := auditorAddr, isSigner := false, isWritable := false },
      { pubkey := Sdk.ForeignIds.token2022ProgramId, isSigner := false, isWritable := false },
      { pubkey := Sdk.ForeignIds.zkTokenProofProgramId, isSigner := false,
        isWritable := false }] }

end Run

section Run

omit [Sdk.KeyBytes Pubkey] [Sdk.ForeignIds Pubkey]

-- `toText` is `str` of a key, and `existing` the account that the cluster returns
variable (toText : Pubkey → String) (owner : Pubkey) (existing : Option (List UInt8))

/-- The instruction of `_run_destroy`. -/
def runDestroy (burnerAddr : Pubkey) : Except SubmitError (Instruction Pubkey) := do
  let (configAddr, configBump) := findProgramAddress configSeeds
  throwUnless existing.isSome
    (.notFoundError s!"burner account {toText burnerAddr} not found on chain")
  return {
    data := destroyBurnerDiscriminator ++ leBytes 4 recommendedCuBudget ++ [configBump]
    accounts := [
      { pubkey := owner, isSigner := true, isWritable := true },
      { pubkey := burnerAddr, isSigner := false, isWritable := true },
      { pubkey := configAddr, isSigner := false, isWritable := false }] }

/-- The instruction of `_run_rotate`. -/
def runRotate (Point : Type) [Ristretto255 Point] (fromString : String → Option (Vector UInt8 32))
    (mint : Pubkey) (auditor : String) : Except SubmitError (Instruction Pubkey) := do
  let auditorKeyBytes ← (decodeAuditorPubkey Point fromString auditor).mapError .command
  let (auditorAddr, auditorBump) := findProgramAddress (auditorSeeds mint)
  let (configAddr, configBump) := findProgramAddress configSeeds
  throwUnless existing.isSome (.auditorError
    s!"auditor entry for mint {toText mint} does not exist; use `audit register` first")
  return {
    data := auditorRotateDiscriminator ++ auditorKeyBytes ++ leBytes 4 recommendedCuBudget ++
      [auditorBump, configBump]
    accounts := [
      { pubkey := owner, isSigner := true, isWritable := true },
      { pubkey := mint, isSigner := false, isWritable := false },
      { pubkey := auditorAddr, isSigner := false, isWritable := true },
      { pubkey := configAddr, isSigner := false, isWritable := false }] }

/-- The instruction of `_run_settle`, behind its checks. -/
def runSettle (roundAddr : Pubkey) : Except SubmitError (Instruction Pubkey) := do
  let (configAddr, configBump) := findProgramAddress configSeeds
  let _ ← (settleChecks (toText roundAddr) existing).mapError .settle
  return {
    data := mixSettleDiscriminator ++ leBytes 4 recommendedCuBudget ++ [configBump]
    accounts := [
      { pubkey := owner, isSigner := true, isWritable := true },
      { pubkey := roundAddr, isSigner := false, isWritable := true },
      { pubkey := configAddr, isSigner := false, isWritable := false }] }

end Run

/-- The commands that send an instruction, from their parsed options on. -/
inductive Command (Pubkey : Type)
  | shield (mint : Pubkey) (baseUnits : ℤ)
  | apply (mint : Pubkey)
  | withdraw (mint : Pubkey) (baseUnits : ℤ) (destination : Option Pubkey)
  | send (recipient mint : Pubkey) (confidential : Bool) (baseUnits : ℤ)
  | burnerCreate (ttlSeconds nonce : ℤ)
  | burnerDestroy (burnerAddr : Pubkey) (existing : Option (List UInt8))
  | mixJoin (mint host : Pubkey) (roundId noteUnits : ℤ)
  | mixSettle (roundAddr : Pubkey) (existing : Option (List UInt8))
  | auditRegister (mint : Pubkey) (auditor : String)
  | auditRotate (mint : Pubkey) (auditor : String) (existing : Option (List UInt8))

/-- The functions of other packages that the commands call. -/
structure Packages (Pubkey : Type) where
  sha512 : List UInt8 → Vector UInt8 64
  blake3 : List UInt8 → Vector UInt8 32
  fromString : String → Option (Vector UInt8 32)
  toText : Pubkey → String

variable (Point) in
/-- The command sends this instruction. -/
def Command.Sends (packages : Packages Pubkey) (session : Session Pubkey)
    (ix : Instruction Pubkey) : Command Pubkey → Prop
  | shield mint baseUnits => runShield Point packages.sha512 session mint baseUnits = .ok ix
  | apply mint => runApply Point packages.sha512 session mint = .ok ix
  | withdraw mint baseUnits destination =>
    runWithdraw Point packages.sha512 session mint baseUnits destination = .ok ix
  | send recipient mint confidential baseUnits =>
    sendInstruction Point packages.sha512 session recipient mint confidential baseUnits = .ok ix
  | burnerCreate ttlSeconds nonce => runCreate Point packages.sha512 session.entropy session.owner
      session.signerBytes ttlSeconds nonce = .ok ix
  | burnerDestroy burnerAddr existing =>
    runDestroy packages.toText session.owner existing burnerAddr = .ok ix
  | mixJoin mint host roundId noteUnits => runJoin Point packages.blake3 packages.sha512
      session.entropy session.fresh session.salt session.owner mint host session.signerBytes roundId
      noteUnits = .ok ix
  | mixSettle roundAddr existing =>
    runSettle packages.toText session.owner existing roundAddr = .ok ix
  | auditRegister mint auditor =>
    runRegister Point packages.fromString session.owner mint auditor = .ok ix
  | auditRotate mint auditor existing =>
    runRotate packages.toText session.owner existing Point packages.fromString mint auditor = .ok ix

variable {packages : Packages Pubkey} {session : Session Pubkey} {ix : Instruction Pubkey}

/-- Every command puts the owner of the wallet first. -/
theorem head_accounts {command : Command Pubkey} (h : command.Sends Point packages session ix) :
    ∃ rest, ix.accounts.map Sdk.AccountMeta.pubkey = session.owner :: rest := by
  cases command with
  | shield mint baseUnits =>
    simp only [Command.Sends, runShield, except_bind_eq_ok, except_pure_eq_ok] at h
    obtain ⟨_, -, _, -, _, -, rfl⟩ := h
    exact ⟨_, rfl⟩
  | apply mint =>
    simp only [Command.Sends, runApply, except_bind_eq_ok, except_pure_eq_ok] at h
    obtain ⟨_, -, rfl⟩ := h
    exact ⟨_, rfl⟩
  | withdraw mint baseUnits destination =>
    simp only [Command.Sends, runWithdraw, except_bind_eq_ok, except_pure_eq_ok] at h
    obtain ⟨_, -, _, -, rfl⟩ := h
    exact ⟨_, rfl⟩
  | send recipient mint confidential baseUnits =>
    simp only [Command.Sends, sendInstruction, except_bind_eq_ok, except_pure_eq_ok] at h
    obtain ⟨_, -, rfl⟩ := h
    exact ⟨_, rfl⟩
  | burnerCreate ttlSeconds nonce =>
    simp only [Command.Sends, runCreate, except_bind_eq_ok, except_pure_eq_ok] at h
    obtain ⟨_, -, _, -, _, -, _, -, _, -, rfl⟩ := h
    exact ⟨_, rfl⟩
  | burnerDestroy burnerAddr existing =>
    simp only [Command.Sends, runDestroy, throwUnless_bind_eq_ok, except_pure_eq_ok] at h
    obtain ⟨-, rfl⟩ := h
    exact ⟨_, rfl⟩
  | mixJoin mint host roundId noteUnits =>
    simp only [Command.Sends, runJoin, except_bind_eq_ok, except_pure_eq_ok] at h
    obtain ⟨_, -, _, -, _, -, _, -, rfl⟩ := h
    exact ⟨_, rfl⟩
  | mixSettle roundAddr existing =>
    simp only [Command.Sends, runSettle, except_bind_eq_ok, except_pure_eq_ok] at h
    obtain ⟨_, -, rfl⟩ := h
    exact ⟨_, rfl⟩
  | auditRegister mint auditor =>
    simp only [Command.Sends, runRegister, except_bind_eq_ok, except_pure_eq_ok] at h
    obtain ⟨_, -, rfl⟩ := h
    exact ⟨_, rfl⟩
  | auditRotate mint auditor existing =>
    simp only [Command.Sends, runRotate, except_bind_eq_ok, except_pure_eq_ok] at h
    obtain ⟨_, -, _, -, rfl⟩ := h
    exact ⟨_, rfl⟩

end Cli

/-! ### What the program binds to the first account -/

section Program

variable {Pubkey Digest World : Type} [DecidableEq Pubkey] [DecidableEq Digest]
  [AddressSpace Pubkey] [Sha256 Digest] [External Pubkey World]

/-- The first account of an instruction that is executed is the config. -/
theorem CallEffect.head_accountFields {c c' : Chain Pubkey Digest} {world : World} {now : Int64}
    {signers : List Pubkey} {entrypoint : Entrypoint Pubkey Digest}
    (haddressed : WellAddressed c.ledger)
    (h : CallEffect c world now signers entrypoint c') :
    entrypoint.accountFields.head?.map AccountField.key = some configPda := by
  have hconfig : ∀ a, entrypoint.configAccount = some a → a = configPda := fun a ha => by
    obtain ⟨config, hat⟩ := h.isConfigAt ha
    exact haddressed.config_eq hat.1
  cases entrypoint with
  | core instruction =>
    cases instruction with
    | ghosInitialize accounts =>
      cases h with
      | core hcore =>
        cases step_effect hcore with
        | ghosInitialize ha _ => exact congrArg some ha.address
    | _ => exact congrArg some (hconfig _ rfl)
  | _ => exact congrArg some (hconfig _ rfl)

end Program

/-! ### The clients -/

section Clients

variable (Point : Type) [Ristretto255 Point] {Pubkey World : Type} [AddressSpace Pubkey]
  [Sdk.KeyBytes Pubkey] [Sdk.ForeignIds Pubkey]

/-- One of the clients has built the instruction, and `payer` pays for it. -/
inductive ClientInstruction (payer : Pubkey) : Wire Pubkey → Prop
  | sdk {request : Sdk.Request Pubkey} {ix : Sdk.TransactionInstruction Pubkey}
      (hbuild : request.build = .ok ix) (hpayer : request.payer = payer) :
      ClientInstruction payer ⟨ix.keys.map Sdk.AccountMeta.pubkey, ix.data⟩
  | cli {packages : Cli.Packages Pubkey} {session : Cli.Session Pubkey}
      {command : Cli.Command Pubkey} {ix : Cli.Instruction Pubkey}
      (hsends : command.Sends Point packages session ix) (hpayer : session.owner = payer) :
      ClientInstruction payer ⟨ix.accounts.map Sdk.AccountMeta.pubkey, ix.data⟩

variable {Point} {payer : Pubkey} {w : Wire Pubkey}

theorem ClientInstruction.head (h : ClientInstruction Point payer w) :
    ∃ rest, w.accounts = payer :: rest := by
  cases h with
  | sdk hbuild hpayer => exact hpayer ▸ Sdk.head_keys hbuild
  | cli hsends hpayer => exact hpayer ▸ Cli.head_accounts hsends

variable {Digest ε : Type} [DecidableEq Pubkey] [DecidableEq Digest] [Sha256 Digest]
  [External Pubkey World] {front : Wire Pubkey → Except ε (Entrypoint Pubkey Digest)}
  {c : Chain Pubkey Digest}

theorem ClientInstruction.not_accepts (hfront : BindsInOrder front) (hc : program.Reachable c)
    {t : WireCall Pubkey World} (h : ClientInstruction Point payer t.wire)
    (hpayer : payer ≠ configPda) : ¬ (wireProgram front).Accepts c t := by
  intro haccepts
  obtain ⟨call, hdecode, haccepted⟩ := Machine.exists_decode_of_behind_accepts haccepts
  have hslot : call.entrypoint.slots[0]? = some (some configPda) := by
    rw [call.entrypoint.head_slots, (callEffect_of_accepts haccepted).head_accountFields
      (wellAddressed_of_reachable (ledger_reachable hc))]
  have hfirst : t.wire.accounts[0]? = some configPda :=
    hfront t.wire call.entrypoint (WireCall.decode_eq_ok hdecode) 0 configPda hslot
  obtain ⟨rest, hrest⟩ := h.head
  rw [hrest] at hfirst
  exact hpayer (Option.some.inj hfirst)

/-- Whatever the clients send, the program executes nothing of it. -/
theorem clients_inert (hfront : BindsInOrder front) (hc : program.Reachable c)
    {run : List (WireCall Pubkey World)}
    (h : ∀ t ∈ run, ∃ payer, payer ≠ configPda ∧ ClientInstruction Point payer t.wire) :
    (wireProgram front).exec c run = c ∧ (wireProgram front).log c run = [] := by
  have hnone : ∀ i t, ¬ (wireProgram front).AcceptedFrom c run i t := by
    rintro i t ⟨hget, haccepts⟩
    obtain ⟨payer, hpayer, hclient⟩ := h t (List.mem_of_getElem? hget)
    refine hclient.not_accepts hfront ?_ hpayer haccepts
    rw [wireProgram, Machine.exec_behind]
    exact hc.exec _
  exact ⟨Machine.exec_of_not_acceptedFrom hnone, Machine.log_of_not_acceptedFrom hnone⟩

end Clients

/-! ### A concrete request -/

namespace Sample

/-- The hash that keeps 32 bytes. -/
local instance : Sha256 (Vector UInt8 32) where
  sha256 b := ⟨((b ++ List.replicate 32 0).take 32).toArray, by simp⟩

/-- The first request that the SDK sends, as it is on the wire. -/
def openRequest : WireCall Sym Unit where
  now := 0
  signers := [.wallet 1]
  world := ()
  wire :=
    { accounts := [.wallet 1, configPda, .wallet 0]
      data := [175, 175, 109, 31, 13, 152, 155, 237, 232, 3, 0, 0, 0, 0, 0, 0, 60, 0, 0, 0, 0, 0, 0,
        0, 0, 141, 39, 0, 0, 0, 0, 0, 64, 0, 4, 16, 88, 2, 0, 0, 0, 0, 0, 0, 136, 19, 0, 0, 0, 0, 0,
        0] }

/-- The chain before the first call. -/
def blank : Chain Sym (Vector UInt8 32) := ⟨fun _ => none, fun _ => none, fun _ => none⟩

/-- What Anchor makes of the instructions that begin with the discriminator of `initialize`. -/
def initializeFront (w : Wire Sym) : Except Unit (Entrypoint Sym (Vector UInt8 32)) :=
  match w.accounts with
  | config :: admin :: systemProgram :: _ =>
    if Sdk.initializeDiscriminator <+: w.data then
      .ok (.core (.ghosInitialize { config, admin, systemProgram }))
    else .error ()
  | _ => .error ()

theorem initializeFront_bindsInOrder : BindsInOrder initializeFront := by
  intro w entrypoint h i k hslot
  unfold initializeFront at h
  split at h
  · next config admin systemProgram rest haccounts =>
    split_ifs at h
    cases h
    rw [haccounts]
    rcases i with _ | _ | _ | i
    · exact Option.some.inj hslot
    · exact Option.some.inj hslot
    · exact Option.some.inj hslot
    · cases hslot
  · cases h

theorem clients_inert_sample :
    (wireProgram initializeFront).exec blank [openRequest] = blank ∧
      (wireProgram initializeFront).log blank [openRequest] = [] :=
  have hbuild : (Sdk.Request.ghosInitialize { admin := Sym.wallet 1 }).build = .ok _ := rfl
  have hopen : ClientInstruction (ZMod curveOrder) (Sym.wallet 1) openRequest.wire :=
    .sdk hbuild rfl
  clients_inert initializeFront_bindsInOrder ⟨[], rfl⟩
    (List.forall_mem_singleton.2 ⟨.wallet 1, by decide, hopen⟩)

end Sample

end Ghos
