import Ghos.Client.EventCodec
import Ghos.Client.Retry
import Ghos.Client.Storage

/-!
# What the clients read from the config

The clients look at the data of the config account without an IDL, at fixed offsets.

* `Sdk.fetchConfigRaw`, `Sdk.isAdmin`, `Sdk.healthCheck`: `sdk/src/client.ts` fetches the data with
  retries, and compares the key behind the discriminator;
* `Deploy.main`: `migrations/deploy.ts` initializes the program unless there is a config, reads the
  eleven fields of `readConfigAccount` back and compares the version;
* `GhosConfig.chunks`: the fields as they lie in the account, from which both read;
* `readers_see_config`, `deploy_reads_config`: on the accounts of the program they read what the
  config says.
-/

namespace Ghos

open Codec

/-! ### The SDK -/

namespace Sdk

/-- What `getAccountInfo` answers, attempt by attempt. -/
abbrev AccountAnswers := ℕ → Except SdkError (Option (List UInt8))

/-- Fetch the raw account info for the config. -/
def fetchConfigRaw (answers : AccountAnswers) (maxRetries : Js.Number) :
    RetryLoop ℕ SdkError (Option (List UInt8)) :=
  retry (fun attempt => (answers attempt, attempt + 1)) { maxRetries := some maxRetries }

/-- Whether the key is the admin, by what was fetched. -/
def isAdmin [Web3] (fetched : Except SdkError (Option (List UInt8))) (candidate : Vector UInt8 32) :
    Except SdkError Bool := do
  match ← fetched with
  | none => return false
  | some raw =>
    let stored ← Web3.newPublicKey ((raw.drop 8).take 32)
    return stored = candidate

/-- Whether there is a config, by what was fetched. -/
def healthCheck (fetched : Except SdkError (Option (List UInt8))) : Bool :=
  match fetched with
  | .ok (some raw) => 8 < raw.length
  | _ => false

end Sdk

/-! ### The deploy script -/

namespace Deploy

open Sdk (SdkError Web3)

/-- What the reads of a `Buffer` throw beyond its end. -/
def boundsError (data : List UInt8) (offset n : ℕ) : SdkError :=
  if data.length < n then .error "Attempt to access memory outside buffer bounds"
  else .error ("The value of \"offset\" is out of range. " ++
    s!"It must be >= 0 and <= {data.length - n}. Received {offset}")

/-- `n` bytes of the buffer at an offset. -/
def bytesAt (n : ℕ) (data : List UInt8) (offset : ℕ) : Except SdkError (List UInt8) :=
  if offset + n ≤ data.length then .ok ((data.drop offset).take n)
  else .error (boundsError data offset n)

def readUInt8 (data : List UInt8) (offset : ℕ) : Except SdkError ℕ :=
  leNat <$> bytesAt 1 data offset

def readUInt16LE (data : List UInt8) (offset : ℕ) : Except SdkError ℕ :=
  leNat <$> bytesAt 2 data offset

def readBigUInt64LE (data : List UInt8) (offset : ℕ) : Except SdkError ℕ :=
  leNat <$> bytesAt 8 data offset

def readBigInt64LE (data : List UInt8) (offset : ℕ) : Except SdkError ℤ :=
  leInt <$> bytesAt 8 data offset

/-- What `readConfigAccount` returns. -/
structure ConfigReadout where
  admin : String
  version : ℕ
  paused : Bool
  dustFreeUnit : String
  burnerTtlMax : String
  burnerTtlMin : String
  burnerRegistryCap : ℕ
  mixMinParticipants : ℕ
  mixMaxParticipants : ℕ
  mixRevealWindow : String
  auditorCosignLamports : String
  deriving DecidableEq

/-- Thirty-two bytes as text, and what the script needs of `@solana/web3.js` besides. -/
class Keys extends Web3 where
  toBase58 : Vector UInt8 32 → String

section Script

variable [Keys]

/-- Read the fields at the `CONFIG_OFFSETS`. -/
def readConfigAccount (data : List UInt8) : Except SdkError ConfigReadout := do
  let admin ← Web3.newPublicKey ((data.drop 8).take 32)
  let version ← readUInt16LE data 40
  let paused ← readUInt8 data 42
  let dustFreeUnit ← readBigUInt64LE data 43
  let burnerTtlMax ← readBigInt64LE data 51
  let burnerTtlMin ← readBigInt64LE data 59
  let burnerRegistryCap ← readUInt16LE data 67
  let mixMinParticipants ← readUInt8 data 69
  let mixMaxParticipants ← readUInt8 data 70
  let mixRevealWindow ← readBigInt64LE data 71
  let auditorCosignLamports ← readBigUInt64LE data 79
  return {
    admin := Keys.toBase58 admin
    version
    paused := paused = 1
    dustFreeUnit := toString dustFreeUnit
    burnerTtlMax := toString burnerTtlMax
    burnerTtlMin := toString burnerTtlMin
    burnerRegistryCap
    mixMinParticipants
    mixMaxParticipants
    mixRevealWindow := toString mixRevealWindow
    auditorCosignLamports := toString auditorCosignLamports }

/-- `EXPECTED_VERSION`. -/
def expectedVersion : ℕ := 0x0401

/-- `version.toString(16)`. -/
def hex (n : ℕ) : String := String.ofList (Nat.toDigits 16 n)

/-- The account is taken for a config if it has any data. -/
def isInitialized (info : Option (List UInt8)) : Bool :=
  match info with
  | none => false
  | some data => 0 < data.length

/-- What the script prints of the program. -/
structure Summary where
  alreadyInitialized : Bool
  txSignature : Option String
  readBack : ConfigReadout
  deriving DecidableEq

/-- Initialize the program unless there is a config; `sent` is what comes of the transaction. -/
def ensureConfigInitialized (info : Option (List UInt8)) (sent : Except SdkError String) :
    Except SdkError (Bool × Option String) := do
  if isInitialized info then return (true, none)
  let sig ← sent
  return (false, some sig)

/-- The script, from the data of the config before and after it has initialized the program. -/
def main (info : Option (List UInt8)) (sent : Except SdkError String)
    (info' : Option (List UInt8)) : Except SdkError Summary := do
  let (alreadyInitialized, txSignature) ← ensureConfigInitialized info sent
  match info' with
  | none => throw (.error "config PDA did not appear after initialize")
  | some data =>
    let readBack ← readConfigAccount data
    throwUnless (readBack.version = expectedVersion) (.error
      s!"version mismatch: on-chain={hex readBack.version} expected={hex expectedVersion}")
    return { alreadyInitialized, txSignature, readBack }

end Script

end Deploy

/-! ### The fields of the config -/

section Chunks

variable {Pubkey : Type} [StorageLayout Pubkey]

/-- The account, field by field behind its discriminator. -/
def GhosConfig.chunks (admin : Vector UInt8 32) (config : GhosConfig Pubkey) : List (List UInt8) :=
  [(accountDiscriminator Pubkey .ghosConfig).toList, admin.toList, leBytes 2 config.version.toNat,
    [config.paused.toUInt8], config.dustFreeUnit.toLeBytes, config.burnerTtlMax.toLeBytes,
    config.burnerTtlMin.toLeBytes, leBytes 2 config.burnerRegistryCap.toNat,
    [config.mixMinParticipants], [config.mixMaxParticipants], config.mixRevealWindow.toLeBytes,
    config.auditorCosignLamports.toLeBytes, config.lastUpdated.toLeBytes, [config.bump],
    config.reserved.toList]

/-- A key of 32 bytes in an encoding. -/
theorem exists_vector_of_write {k : Pubkey} {p : List UInt8} (h : keyCodec.write k = some p) :
    ∃ v : Vector UInt8 32, p = v.toList :=
  ⟨⟨p.toArray, by simpa using StorageLayout.key_hasWidth k p h⟩, rfl⟩

theorem recordCodec_write_ghosConfig {config : GhosConfig Pubkey} {p : List UInt8}
    (h : recordCodec.write (⟨.ghosConfig, config⟩ : Record Pubkey) = some p) :
    ∃ admin : Vector UInt8 32, keyCodec.write config.admin = some admin.toList ∧
      p = (config.chunks admin).flatten := by
  obtain ⟨q, hq, rfl⟩ := recordCodec_write_eq_some.1 h
  obtain ⟨key, rest, hkey, hrest, rfl⟩ := seq_write_eq_some.1 hq
  obtain ⟨admin, rfl⟩ := exists_vector_of_write hkey
  refine ⟨admin, hkey, ?_⟩
  cases hrest
  simp [GhosConfig.chunks]

/-- A chunk is found behind the chunks before it. -/
theorem Deploy.bytesAt_flatten {chunks : List (List UInt8)} {i n offset : ℕ} {p : List UInt8}
    (hi : chunks[i]? = some p) (hn : p.length = n)
    (hoffset : ((chunks.map List.length).take i).sum = offset) :
    Deploy.bytesAt n chunks.flatten offset = .ok p := by
  obtain ⟨hlt, rfl⟩ := List.getElem?_eq_some_iff.1 hi
  have hsplit : chunks.flatten =
      (chunks.take i).flatten ++ (chunks[i] ++ (chunks.drop (i + 1)).flatten) := by
    conv_lhs => rw [← List.take_append_drop i chunks, List.drop_eq_getElem_cons hlt]
    rw [List.flatten_append, List.flatten_cons]
  have hlen : (chunks.take i).flatten.length = offset := by
    rw [List.length_flatten, List.map_take, hoffset]
  unfold Deploy.bytesAt
  rw [hsplit, List.length_append, hlen, List.length_append, hn, if_pos (by omega),
    List.drop_left' hlen, List.take_left' hn]

namespace Deploy

variable {chunks : List (List UInt8)} {i offset : ℕ}

theorem readUInt8_flatten {x : UInt8} (hi : chunks[i]? = some [x])
    (hoffset : ((chunks.map List.length).take i).sum = offset) :
    readUInt8 chunks.flatten offset = .ok x.toNat := by
  rw [readUInt8, bytesAt_flatten hi List.length_singleton hoffset, ← leNat_singleton]
  rfl

theorem readUInt16LE_flatten {x : UInt16} (hi : chunks[i]? = some (leBytes 2 x.toNat))
    (hoffset : ((chunks.map List.length).take i).sum = offset) :
    readUInt16LE chunks.flatten offset = .ok x.toNat := by
  rw [readUInt16LE, bytesAt_flatten hi (length_leBytes 2 _) hoffset]
  exact congrArg Except.ok (leNat_leBytes_of_lt x.toNat_lt)

theorem readBigUInt64LE_flatten {x : UInt64} (hi : chunks[i]? = some x.toLeBytes)
    (hoffset : ((chunks.map List.length).take i).sum = offset) :
    readBigUInt64LE chunks.flatten offset = .ok x.toNat := by
  rw [readBigUInt64LE, bytesAt_flatten hi x.length_toLeBytes hoffset, ← x.leNat_toLeBytes]
  rfl

theorem readBigInt64LE_flatten {x : Int64} (hi : chunks[i]? = some x.toLeBytes)
    (hoffset : ((chunks.map List.length).take i).sum = offset) :
    readBigInt64LE chunks.flatten offset = .ok x.toInt := by
  rw [readBigInt64LE, bytesAt_flatten hi x.length_toLeBytes hoffset, ← x.leInt_toLeBytes]
  rfl

end Deploy

variable (admin : Vector UInt8 32) (config : GhosConfig Pubkey)

/-- Both clients find the key of the admin behind the discriminator. -/
theorem newPublicKey_chunks [Sdk.Web3] :
    Sdk.Web3.newPublicKey (((config.chunks admin).flatten.drop 8).take 32) = .ok admin := by
  have hbytes : ((config.chunks admin).flatten.drop 8).take 32 = admin.toList := by
    have hread : Deploy.bytesAt 32 (config.chunks admin).flatten 8 = .ok admin.toList :=
      Deploy.bytesAt_flatten (i := 1) rfl (by simp) (by simp [GhosConfig.chunks])
    unfold Deploy.bytesAt at hread
    split at hread
    · exact Except.ok.inj hread
    · cases hread
  have hlen : admin.toList.length ≤ 32 := by simp
  rw [hbytes, Sdk.Web3.newPublicKey_of_le _ hlen, Sdk.leftPad_eq hlen rfl]

theorem GhosConfig.map_length_chunks : (config.chunks admin).map List.length =
    [8, 32, 2, 1, 8, 8, 8, 2, 1, 1, 8, 8, 8, 1, 64] := by
  simp [GhosConfig.chunks, length_leBytes]

/-- What the deploy script should read. -/
def GhosConfig.readout [Deploy.Keys] : Deploy.ConfigReadout where
  admin := Deploy.Keys.toBase58 admin
  version := config.version.toNat
  paused := config.paused
  dustFreeUnit := toString config.dustFreeUnit.toNat
  burnerTtlMax := toString config.burnerTtlMax.toInt
  burnerTtlMin := toString config.burnerTtlMin.toInt
  burnerRegistryCap := config.burnerRegistryCap.toNat
  mixMinParticipants := config.mixMinParticipants.toNat
  mixMaxParticipants := config.mixMaxParticipants.toNat
  mixRevealWindow := toString config.mixRevealWindow.toInt
  auditorCosignLamports := toString config.auditorCosignLamports.toNat

/-- The offsets are those of the fields. -/
theorem Deploy.readConfigAccount_chunks [Deploy.Keys] :
    Deploy.readConfigAccount (config.chunks admin).flatten = .ok (config.readout admin) := by
  have offset : ∀ i, (((config.chunks admin).map List.length).take i).sum =
      (([8, 32, 2, 1, 8, 8, 8, 2, 1, 1, 8, 8, 8, 1, 64] : List ℕ).take i).sum := by
    intro i
    rw [config.map_length_chunks]
  have version : readUInt16LE (config.chunks admin).flatten 40 = .ok _ :=
    readUInt16LE_flatten (i := 2) rfl (offset 2)
  have paused : readUInt8 (config.chunks admin).flatten 42 = .ok _ :=
    readUInt8_flatten (i := 3) rfl (offset 3)
  have dustFreeUnit : readBigUInt64LE (config.chunks admin).flatten 43 = .ok _ :=
    readBigUInt64LE_flatten (i := 4) rfl (offset 4)
  have burnerTtlMax : readBigInt64LE (config.chunks admin).flatten 51 = .ok _ :=
    readBigInt64LE_flatten (i := 5) rfl (offset 5)
  have burnerTtlMin : readBigInt64LE (config.chunks admin).flatten 59 = .ok _ :=
    readBigInt64LE_flatten (i := 6) rfl (offset 6)
  have burnerRegistryCap : readUInt16LE (config.chunks admin).flatten 67 = .ok _ :=
    readUInt16LE_flatten (i := 7) rfl (offset 7)
  have mixMinParticipants : readUInt8 (config.chunks admin).flatten 69 = .ok _ :=
    readUInt8_flatten (i := 8) rfl (offset 8)
  have mixMaxParticipants : readUInt8 (config.chunks admin).flatten 70 = .ok _ :=
    readUInt8_flatten (i := 9) rfl (offset 9)
  have mixRevealWindow : readBigInt64LE (config.chunks admin).flatten 71 = .ok _ :=
    readBigInt64LE_flatten (i := 10) rfl (offset 10)
  have auditorCosignLamports : readBigUInt64LE (config.chunks admin).flatten 79 = .ok _ :=
    readBigUInt64LE_flatten (i := 11) rfl (offset 11)
  have hpaused : decide (config.paused.toUInt8.toNat = 1) = config.paused := by
    cases config.paused <;> rfl
  simp only [readConfigAccount, newPublicKey_chunks, version, paused, dustFreeUnit, burnerTtlMax,
    burnerTtlMin, burnerRegistryCap, mixMinParticipants, mixMaxParticipants, mixRevealWindow,
    auditorCosignLamports, bind, Except.bind, pure, Except.pure, hpaused, GhosConfig.readout]

theorem isAdmin_chunks [Sdk.Web3] (candidate : Vector UInt8 32) :
    Sdk.isAdmin (.ok (some (config.chunks admin).flatten)) candidate =
      .ok (decide (admin = candidate)) := by
  simp only [Sdk.isAdmin, bind, Except.bind, newPublicKey_chunks, pure, Except.pure]

theorem length_chunks : (config.chunks admin).flatten.length = GhosConfig.len := by
  rw [List.length_flatten, config.map_length_chunks]
  rfl

theorem healthCheck_chunks : Sdk.healthCheck (.ok (some (config.chunks admin).flatten)) = true := by
  show decide (8 < (config.chunks admin).flatten.length) = true
  rw [length_chunks]
  rfl

theorem Deploy.isInitialized_chunks :
    Deploy.isInitialized (some (config.chunks admin).flatten) = true := by
  show decide (0 < (config.chunks admin).flatten.length) = true
  rw [length_chunks]
  rfl

/-- Where the config has the version of the program, the script prints it. -/
theorem Deploy.main_chunks [Deploy.Keys] (hversion : config.version = protocolVersion)
    {info : Option (List UInt8)} {sent : Except Sdk.SdkError String} {out : Bool × Option String}
    (hout : ensureConfigInitialized info sent = .ok out) :
    Deploy.main info sent (some (config.chunks admin).flatten) =
      .ok ⟨out.1, out.2, config.readout admin⟩ := by
  have hexpected : (config.readout admin).version = expectedVersion := by
    show config.version.toNat = 0x0401
    rw [hversion]
    rfl
  simp only [Deploy.main, hout, readConfigAccount_chunks, throwUnless, hexpected, if_true, bind,
    Except.bind, pure, Except.pure]

end Chunks

/-! ### The config over a run -/

section Runs

variable {Pubkey Digest World : Type} [DecidableEq Pubkey] [DecidableEq Digest]
  [AddressSpace Pubkey] [Sha256 Digest] [External Pubkey World] {c c' : Chain Pubkey Digest}

theorem exec_exists_config (run : List (Call Pubkey Digest World))
    (h : ∃ e, c.config = some e) : ∃ e, (program.exec c run).config = some e :=
  Machine.exec_invariant (P := fun c : Chain Pubkey Digest => ∃ e, c.config = some e) h
    fun _ _ _ _ _ hs hstep => (call_effect hstep).exists_config hs

/-- Every config says the version of the program. -/
theorem config_version_of_reachable (h : program.Reachable c) {config : GhosConfig Pubkey}
    (hconfig : c.config = some config) : config.version = protocolVersion := by
  have hall : ∀ a e, c.ledger.config? a = some e → e.version = protocolVersion := by
    refine h.invariant (P := fun c : Chain Pubkey Digest =>
      ∀ a e, c.ledger.config? a = some e → e.version = protocolVersion) ?_
      fun c t c' o hc hstep a e he => ?_
    · rintro a e ⟨⟩
    rcases (call_effect hstep).ledger_cases with heq | ⟨instruction, -, heff⟩
    · exact hc a e (heq ▸ he)
    · rcases heff.config_cases he with he | hw
      · exact hc a e he
      · cases hw with
        | ghosInitialize hw => rfl
        | configUpdate hw =>
          exact (ConfigField.apply_version hw.field).trans (hc _ _ hw.configAt.stored)
  exact hall _ config hconfig

/-- After `initialize` there is a config. -/
theorem exists_config_of_initialize {admin : Pubkey} {now : Int64}
    (h : program.Accepts c ((initializeBy admin now).toCall world)) :
    ∃ e, (program.next c ((initializeBy admin now).toCall world)).config = some e := by
  have heff := (callEffect_of_accepts h).of_core
  generalize program.next c _ = c' at heff
  cases heff with
  | ghosInitialize h v =>
    rw [Chain.config, v.config]
    exact ⟨_, Store.set_self ..⟩

end Runs

/-! ### The config on the accounts -/

section Accounts

variable {Pubkey World : Type} [DecidableEq Pubkey] [AddressSpace Pubkey]
  [Sha256 (Vector UInt8 32)] [External Pubkey World] [StorageLayout Pubkey]
  {run : List (Call Pubkey (Vector UInt8 32) World)}

/-- The account at the address of the config holds the config, or there is neither. -/
theorem BringsKeys.config_cases (h : BringsKeys run) :
    (program.exec program.init run).config = none ∧
        byteProgram.exec byteProgram.init run configPda = none ∨
      ∃ config, ∃ admin : Vector UInt8 32, (program.exec program.init run).config = some config ∧
        keyCodec.write config.admin = some admin.toList ∧
        byteProgram.exec byteProgram.init run configPda = some (config.chunks admin).flatten := by
  have hreach : program.Reachable (program.exec program.init run) := ⟨run, rfl⟩
  have hdata := congrFun h.exec_eq.1 configPda
  have hencodable := h.encodable run.length
  rw [List.take_length] at hencodable
  generalize program.exec program.init run = c at hreach hdata hencodable
  cases hr : c.records configPda with
  | none =>
    refine .inl ⟨?_, by rw [hdata, Layout.image, hr, Option.bind_none]⟩
    rw [Chain.config, Ledger.config?, Store.view, Chain.ledger_eq_none hr, Option.bind_none]
  | some r =>
    obtain ⟨kind, content⟩ := r
    have hkind : kind = .ghosConfig :=
      (Chain.isAddress_of_records (wellAddressed_of_reachable (ledger_reachable hreach))
        (registered_of_reachable hreach) hr).unique isAddress_configPda
    subst hkind
    have hrecord : (c.records configPda).bind Record.account = some (.ghosConfig content) := by
      rw [hr]
      rfl
    have hledger : c.ledger configPda = some (.ghosConfig content) := by
      have hcell := congrArg (fun d => d.ledger configPda)
        (Chain.ofRecords_records fun a => disjoint_of_reachable hreach a)
      exact hcell.symm.trans hrecord
    obtain ⟨p, hp⟩ := Option.isSome_iff_exists.1 (hencodable _ _ hr)
    obtain ⟨admin, hadmin, rfl⟩ := recordCodec_write_ghosConfig hp
    refine .inr ⟨content, admin, congrArg (·.bind Account.asConfig) hledger, hadmin, ?_⟩
    rw [hdata, Layout.image, hr, Option.bind_some]
    exact hp

/-- The SDK fails to read the config with the error of the fetch, or it sees the admin and the
existence of the config in one of the states that the endpoint has shown. -/
theorem readers_see_config [Sdk.Web3] {Shown : Set (List (Call Pubkey (Vector UInt8 32) World))}
    (hkeys : ∀ run ∈ Shown, BringsKeys run) {answers : Sdk.AccountAnswers}
    (hanswers : ∀ k data, answers k = .ok data →
      ∃ run ∈ Shown, data = byteProgram.exec byteProgram.init run configPda)
    {maxRetries : Js.Number} {n : ℕ} {fetched : Except Sdk.SdkError (Option (List UInt8))}
    (h : Sdk.retryOutcome ((Sdk.fetchConfigRaw answers maxRetries).run 0 n) = some fetched)
    (candidate : Vector UInt8 32) :
    (∃ e, fetched = .error e ∧ Sdk.isAdmin fetched candidate = .error e ∧
        Sdk.healthCheck fetched = false) ∨
      ∃ run ∈ Shown, ∃ answer : Bool, Sdk.isAdmin fetched candidate = .ok answer ∧
        (answer = true ↔ ∃ config, (program.exec program.init run).config = some config ∧
          keyCodec.write config.admin = some candidate.toList) ∧
        (Sdk.healthCheck fetched = true ↔
          ∃ config, (program.exec program.init run).config = some config) := by
  obtain ⟨verdict, hverdict, rfl⟩ := Option.map_eq_some_iff.1 h
  cases verdict with
  | exhausted => exact .inl ⟨_, rfl, rfl, rfl⟩
  | returned data =>
    obtain ⟨k, -, hk⟩ := RetryLoop.exists_of_returned hverdict
    obtain ⟨run, hrun, rfl⟩ := hanswers _ data hk
    refine .inr ⟨run, hrun, ?_⟩
    rcases (hkeys run hrun).config_cases with ⟨hnone, hdata⟩ | ⟨config, admin, hsome, hadmin, hdata⟩
    · rw [hdata, hnone]
      exact ⟨false, rfl, by simp, by simp [Sdk.healthCheck]⟩
    · rw [hdata, hsome]
      refine ⟨_, isAdmin_chunks admin config candidate, ?_, ?_⟩
      · rw [decide_eq_true_iff]
        constructor
        · rintro rfl
          exact ⟨config, rfl, hadmin⟩
        · rintro ⟨_, ⟨⟩, hcandidate⟩
          exact Vector.toList_inj.1 (Option.some.inj (hadmin.symm.trans hcandidate))
      · exact iff_of_true (healthCheck_chunks admin config) ⟨config, rfl⟩

/-! ### The deploy script among other calls -/

/-- A run of the deploy script: what others call before it looks at the config, before its own
transaction, and before it reads the config back. -/
structure Deploy.Session (Pubkey World : Type) where
  before : List (Call Pubkey (Vector UInt8 32) World)
  middle : List (Call Pubkey (Vector UInt8 32) World)
  after : List (Call Pubkey (Vector UInt8 32) World)
  payer : Pubkey
  now : Int64
  world : World
  sent : Except Sdk.SdkError String

namespace Deploy.Session

variable (s : Session Pubkey World)

/-- The config that the script finds. -/
def info : Option (List UInt8) := byteProgram.exec byteProgram.init s.before configPda

/-- The transaction that the script may send. -/
def transaction : Call Pubkey (Vector UInt8 32) World :=
  (initializeBy s.payer s.now).toCall s.world

/-- All calls until the script is done. -/
def calls : List (Call Pubkey (Vector UInt8 32) World) :=
  s.before ++ (s.middle ++ ((if Deploy.isInitialized s.info then [] else [s.transaction]) ++
    s.after))

/-- What comes of the script. -/
def outcome [Deploy.Keys] : Except Sdk.SdkError Summary :=
  Deploy.main s.info s.sent (byteProgram.exec byteProgram.init s.calls configPda)

end Deploy.Session

/-- The deploy script never misses the config or finds a wrong version.  It fails with the error of
its own transaction, or it prints the eleven fields that it reads of the config in force at its
end. -/
theorem deploy_reads_config [Deploy.Keys] {s : Deploy.Session Pubkey World} (h : BringsKeys s.calls)
    (hsent : ∀ sig, s.sent = .ok sig →
      program.Accepts (program.exec program.init (s.before ++ s.middle)) s.transaction) :
    (s.info = none → ∀ e, s.sent = .error e → s.outcome = .error e) ∧
      ((s.info ≠ none ∨ ∃ sig, s.sent = .ok sig) →
        ∃ config, ∃ admin : Vector UInt8 32,
          (program.exec program.init s.calls).config = some config ∧
          keyCodec.write config.admin = some admin.toList ∧
          s.outcome = .ok ⟨s.info.isSome, if s.info.isSome then none else s.sent.toOption,
            config.readout admin⟩) := by
  have hbefore : BringsKeys s.before := fun t ht => h t (List.mem_append_left _ ht)
  have hreach : program.Reachable (program.exec program.init s.calls) := ⟨s.calls, rfl⟩
  -- the config is there at the end if it was there before or the transaction has made it
  have hend : (∃ e, (program.exec program.init s.calls).config = some e) →
      ∀ out, Deploy.ensureConfigInitialized s.info s.sent = .ok out →
        ∃ config, ∃ admin : Vector UInt8 32,
          (program.exec program.init s.calls).config = some config ∧
          keyCodec.write config.admin = some admin.toList ∧
          s.outcome = .ok ⟨out.1, out.2, config.readout admin⟩ := by
    rintro ⟨e, he⟩ out hout
    rcases h.config_cases with ⟨hnone, -⟩ | ⟨config, admin, hsome, hadmin, hdata⟩
    · rw [he] at hnone
      cases hnone
    · refine ⟨config, admin, hsome, hadmin, ?_⟩
      rw [Deploy.Session.outcome, hdata]
      exact Deploy.main_chunks admin config (config_version_of_reachable hreach hsome) hout
  rcases hbefore.config_cases with ⟨hnone, hinfo⟩ | ⟨config, admin, hsome, -, hinfo⟩
  · have hinfo : s.info = none := hinfo
    refine ⟨fun _ e he => ?_, fun hor => ?_⟩
    · rw [Deploy.Session.outcome, hinfo, he]
      rfl
    · obtain ⟨sig, hsig⟩ := hor.resolve_left (not_not_intro hinfo)
      have hcalls : s.calls = (s.before ++ s.middle) ++ s.transaction :: s.after := by
        rw [Deploy.Session.calls, hinfo, List.append_assoc]
        rfl
      have hmade : ∃ e, (program.next (program.exec program.init (s.before ++ s.middle))
          s.transaction).config = some e := exists_config_of_initialize (hsent sig hsig)
      have hlast := exec_exists_config s.after hmade
      rw [← Machine.exec_cons, ← Machine.exec_append, ← hcalls] at hlast
      rw [hinfo, hsig] at hend ⊢
      exact hend hlast (false, some sig) rfl
  · have hinfo : s.info = some (config.chunks admin).flatten := hinfo
    have hinit : Deploy.isInitialized s.info = true := by
      rw [hinfo, Deploy.isInitialized_chunks]
    refine ⟨fun hnone => ?_, fun _ => ?_⟩
    · rw [hinfo] at hnone
      cases hnone
    · have hlast : ∃ e, (program.exec program.init s.calls).config = some e := by
        rw [Deploy.Session.calls, Machine.exec_append]
        exact exec_exists_config _ ⟨config, hsome⟩
      have hout : Deploy.ensureConfigInitialized s.info s.sent = .ok (true, none) := by
        simp only [Deploy.ensureConfigInitialized, hinit]
        rfl
      rw [hinfo] at hend hout ⊢
      exact hend hlast (true, none) hout

end Accounts

/-! ### A concrete deployment -/

namespace Sample

/-- Base58 of a number, most significant digit first. -/
def base58Digits (n : ℕ) : List Char :=
  (Nat.digits 58 n).reverse.map fun d =>
    "123456789ABCDEFGHJKLMNPQRSTUVWXYZabcdefghijkmnopqrstuvwxyz".toList.getD d '1'

/-- The Base58 of keys. -/
local instance webKeys : Deploy.Keys where
  toBase58 v := String.ofList ((v.toList.takeWhile (· = 0)).map (fun _ => '1') ++
    base58Digits (leNat v.toList.reverse))

attribute [local instance] truncated

/-- The data that an endpoint answers after the first calls. -/
def firstConfig : Option (List UInt8) := byteProgram.exec byteProgram.init firstCalls configPda

/-- The SDK finds that the wallet that has initialized the program is the admin. -/
theorem readers_see_config_sample : Sdk.isAdmin (.ok firstConfig) (walletBytes 1) = .ok true := by
  have hkeys : ∀ run ∈ ({firstCalls} : Set (List (Call Sym (Vector UInt8 32) Unit))),
      BringsKeys run := fun run hrun => Set.mem_singleton_iff.1 hrun ▸ firstCalls_bringsKeys
  have hfetch : Sdk.retryOutcome ((Sdk.fetchConfigRaw (fun _ => .ok firstConfig) (.finite 3)).run 0
      1) = some (.ok firstConfig) := rfl
  rcases readers_see_config hkeys (fun k data hdata => ⟨_, rfl, (Except.ok.inj hdata).symm⟩) hfetch
    (walletBytes 1) with ⟨e, he, -⟩ | ⟨run, rfl, answer, hanswer, hadmin, -⟩
  · cases he
  · have hconfig : ∃ config, (program.exec program.init firstCalls).config = some config ∧
        keyCodec.write config.admin = some (walletBytes 1).toList := ⟨_, rfl, rfl⟩
    rw [hanswer, hadmin.2 hconfig]

/-- A run of the script that makes the first call. -/
def session : Deploy.Session Sym Unit where
  before := []
  middle := []
  after := [createBurnerBy (.wallet 3) (.wallet 4) 0 3600 1 ()]
  payer := admin
  now := 0
  world := ()
  sent := .ok "signature"

theorem deploy_reads_config_sample : ∃ config, ∃ admin : Vector UInt8 32,
    (program.exec program.init session.calls).config = some config ∧
      session.outcome = .ok ⟨false, some "signature", config.readout admin⟩ := by
  have hcalls : session.calls = firstCalls := rfl
  have hbrings : BringsKeys session.calls := hcalls ▸ firstCalls_bringsKeys
  have haccepts : program.Accepts (program.exec program.init (session.before ++ session.middle))
      session.transaction := by decide +kernel
  obtain ⟨config, admin, hconfig, -, houtcome⟩ :=
    (deploy_reads_config hbrings fun _ _ => haccepts).2 (.inr ⟨_, rfl⟩)
  exact ⟨config, admin, hconfig, houtcome⟩

end Sample

end Ghos
