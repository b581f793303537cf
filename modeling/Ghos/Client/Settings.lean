import Ghos.Client.Commands

/-!
# The configuration file of the CLI

`cli/ghos_cli/config.py` loads a TOML file, merges the variables `GHOS_*` of the environment into
it, and writes it back.  `Setting` names the values of the file, and `Config.get` reads them.

* `loadConfig_saved`: what is saved is loaded again, without an environment;
* `setValue_spec`: a value that is set replaces the settings of its key, and keeps the others;
* `mergeEnv_spec`: the environment is refused, or it replaces some settings.
-/

namespace Ghos.Cli

/-! ### Text and TOML -/

/-- A value of a TOML document.  Floats and dates are kept as text. -/
inductive TomlValue
  | string (s : String)
  | integer (n : ℤ)
  | boolean (b : Bool)
  | float (text : String) (isZero : Bool)
  | datetime (typeName text : String)
  | array (items : List TomlValue)
  | table (entries : List (String × TomlValue))

/-- A TOML document. -/
abbrev TomlTable := List (String × TomlValue)

/-- What the loader asks of Python's strings: `lower`, the `repr` of a string, and the `str` of a
value that is no string. -/
class PyText where
  lower : String → String
  lower_ascii : ∀ s, (s.toList.all fun c => c.toNat < 128) = true →
    lower s = String.ofList (s.toList.map Char.toLower)
  repr : String → String
  str : TomlValue → String

/-- What the loader asks of `tomllib` and `tomli_w`: a file is text with a document, or an error,
and a document that is written is read again. -/
class TomlFile (File : Type) where
  loads : File → Except String TomlTable
  dumps : TomlTable → File
  loads_dumps : ∀ document, loads (dumps document) = .ok document

/-- `bool(value)`. -/
def TomlValue.truthy : TomlValue → Bool
  | string s => s ≠ ""
  | integer n => n ≠ 0
  | boolean b => b
  | float _ isZero => !isZero
  | datetime _ _ => true
  | array items => !items.isEmpty
  | table entries => !entries.isEmpty

/-- `type(value).__name__`. -/
def TomlValue.typeName : TomlValue → String
  | string _ => "str"
  | integer _ => "int"
  | boolean _ => "bool"
  | float _ _ => "float"
  | datetime typeName _ => typeName
  | array _ => "list"
  | table _ => "dict"

/-- What the commands raise. -/
inductive SettingsError
  | configError (message : String)
  | valueError (message : String)
  | badParameter (message : String)
  deriving DecidableEq

section Text

variable [PyText]

/-- `str(value)`. -/
def TomlValue.str : TomlValue → String
  | string s => s
  | value => PyText.str value

/-- `s.strip().lower()`. -/
def normalize (s : String) : String := PyText.lower (strip s)

end Text

/-! ### Clusters -/

/-- The canonical clusters. -/
inductive Cluster
  | devnet
  | mainnetBeta
  | testnet
  | localnet
  deriving DecidableEq

namespace Cluster

def name : Cluster → String
  | devnet => "devnet"
  | mainnetBeta => "mainnet-beta"
  | testnet => "testnet"
  | localnet => "localnet"

/-- `DEFAULT_RPC`. -/
def defaultRpc : Cluster → String
  | devnet => "https://api.devnet.solana.com"
  | mainnetBeta => "https://api.mainnet-beta.solana.com"
  | testnet => "https://api.testnet.solana.com"
  | localnet => "http://127.0.0.1:8899"

/-- `DEFAULT_WS`. -/
def defaultWs : Cluster → String
  | devnet => "wss://api.devnet.solana.com"
  | mainnetBeta => "wss://api.mainnet-beta.solana.com"
  | testnet => "wss://api.testnet.solana.com"
  | localnet => "ws://127.0.0.1:8900"

/-- `CLUSTER_ALIASES`. -/
def aliases : List (String × Cluster) :=
  [("dev", devnet), ("devnet", devnet), ("main", mainnetBeta), ("mainnet", mainnetBeta),
    ("mainnet-beta", mainnetBeta), ("test", testnet), ("testnet", testnet), ("local", localnet),
    ("localnet", localnet), ("localhost", localnet)]

end Cluster

/-- Return the canonical cluster name for a user-supplied alias. -/
def canonicalCluster [PyText] (text : String) : Except SettingsError Cluster :=
  match Cluster.aliases.lookup (normalize text) with
  | some cluster => return cluster
  | none => throw (.valueError s!"unknown cluster: {PyText.repr text}")

/-- Accept the usual forms of a boolean. -/
def parseBool [PyText] (value : String) : Except SettingsError Bool :=
  let lowered := normalize value
  if lowered ∈ ["1", "true", "yes", "on", "y", "t"] then return true
  else if lowered ∈ ["0", "false", "no", "off", "n", "f"] then return false
  else throw (.configError s!"cannot parse boolean from {PyText.repr value}")

/-! ### The configuration -/

structure ClusterConfig where
  name : Cluster := .devnet
  rpcUrl : String := Cluster.devnet.defaultRpc
  wsUrl : String := Cluster.devnet.defaultWs
  commitment : String := "confirmed"
  deriving DecidableEq

structure KeypairConfig where
  path : String := "~/.config/solana/id.json"
  elgamalSeedPath : String := ""
  deriving DecidableEq

structure AuditorConfig where
  enabled : Bool := false
  publicKey : String := ""
  secretKeyPath : String := ""
  deriving DecidableEq

structure UiConfig where
  color : String := "#ff1249"
  compact : Bool := false
  timestampFormat : String := "%Y-%m-%d %H:%M:%S"
  deriving DecidableEq

structure Config where
  cluster : ClusterConfig := {}
  keypair : KeypairConfig := {}
  auditor : AuditorConfig := {}
  ui : UiConfig := {}
  deriving DecidableEq

/-- Produce a nested document. -/
def Config.toTomlDict (cfg : Config) : TomlTable :=
  [("cluster", .table [("name", .string cfg.cluster.name.name),
      ("rpc_url", .string cfg.cluster.rpcUrl), ("ws_url", .string cfg.cluster.wsUrl), ("commitment", .string cfg.cluster.commitment)]),
    ("keypair", .table [("path", .string cfg.keypair.path),
      ("elgamal_seed_path", .string cfg.keypair.elgamalSeedPath)]),
    ("auditor", .table [("enabled", .boolean cfg.auditor.enabled),
      ("public_key", .string cfg.auditor.publicKey),
      ("secret_key_path", .string cfg.auditor.secretKeyPath)]),
    ("ui", .table [("color", .string cfg.ui.color), ("compact", .boolean cfg.ui.compact),
      ("timestamp_format", .string cfg.ui.timestampFormat)])]

/-- The variables of the environment. -/
abbrev Environment := String → Option String

section Load

variable [PyText]

/-- `if (val := os.environ.get(variable)) is not None: old = val`. -/
def override (env : Environment) (variableName : String) (old : String) : String :=
  (env variableName).getD old

/-- The same for a boolean. -/
def overrideBool (env : Environment) (variableName : String) (old : Bool) :
    Except SettingsError Bool :=
  match env variableName with
  | some val => parseBool val
  | none => return old

/-- The cluster section with the overrides.  The name takes the URLs along that are the defaults of
the old one. -/
def ClusterConfig.mergeEnv (old : ClusterConfig) (env : Environment) :
    Except SettingsError ClusterConfig := do
  let cluster : ClusterConfig ←
    match env "GHOS_CLUSTER_NAME" with
    | none => pure old
    | some val => do
      let name ← canonicalCluster val
      pure { old with
        name
        rpcUrl := if old.rpcUrl = old.name.defaultRpc then name.defaultRpc else old.rpcUrl
        wsUrl := if old.wsUrl = old.name.defaultWs then name.defaultWs else old.wsUrl }
  return { cluster with
    rpcUrl := override env "GHOS_CLUSTER_RPC_URL" cluster.rpcUrl
    wsUrl := override env "GHOS_CLUSTER_WS_URL" cluster.wsUrl
    commitment := override env "GHOS_CLUSTER_COMMITMENT" cluster.commitment }

/-- Return a copy of this config with the overrides applied. -/
def Config.mergeEnv (cfg : Config) (env : Environment) : Except SettingsError Config := do
  let cluster ← cfg.cluster.mergeEnv env
  let enabled ← overrideBool env "GHOS_AUDITOR_ENABLED" cfg.auditor.enabled
  let compact ← overrideBool env "GHOS_UI_COMPACT" cfg.ui.compact
  return {
    cluster
    keypair := {
      path := override env "GHOS_KEYPAIR_PATH" cfg.keypair.path
      elgamalSeedPath := override env "GHOS_KEYPAIR_ELGAMAL_SEED_PATH" cfg.keypair.elgamalSeedPath }
    auditor := {
      enabled
      publicKey := override env "GHOS_AUDITOR_PUBLIC_KEY" cfg.auditor.publicKey
      secretKeyPath := override env "GHOS_AUDITOR_SECRET_KEY_PATH" cfg.auditor.secretKeyPath }
    ui := {
      color := override env "GHOS_UI_COLOR" cfg.ui.color
      compact
      timestampFormat := override env "GHOS_UI_TIMESTAMP_FORMAT" cfg.ui.timestampFormat } }

/-- `data.get(name, {}) or {}`, which must be a table. -/
def section? (data : TomlTable) (name : String) : Except SettingsError TomlTable :=
  match data.lookup name with
  | none => return []
  | some value =>
    if value.truthy then
      match value with
      | .table entries => return entries
      | value => throw (.configError s!"[{name}] must be a table, got {value.typeName}")
    else return []

/-- `str(data.get(key, default))`. -/
def textOf (data : TomlTable) (key default : String) : String :=
  ((data.lookup key).map TomlValue.str).getD default

/-- `bool(data.get(key, False))`. -/
def flagOf (data : TomlTable) (key : String) : Bool :=
  ((data.lookup key).map TomlValue.truthy).getD false

/-- Build a `Config` from a parsed document, validating known fields. -/
def configFromDict (data : TomlTable) : Except SettingsError Config := do
  let clusterData ← section? data "cluster"
  let keypairData ← section? data "keypair"
  let auditorData ← section? data "auditor"
  let uiData ← section? data "ui"
  let clusterName ← canonicalCluster (textOf clusterData "name" "devnet")
  return {
    cluster := {
      name := clusterName
      rpcUrl := textOf clusterData "rpc_url" clusterName.defaultRpc
      wsUrl := textOf clusterData "ws_url" clusterName.defaultWs
      commitment := textOf clusterData "commitment" "confirmed" }
    keypair := {
      path := textOf keypairData "path" "~/.config/solana/id.json"
      elgamalSeedPath := textOf keypairData "elgamal_seed_path" "" }
    auditor := {
      enabled := flagOf auditorData "enabled"
      publicKey := textOf auditorData "public_key" ""
      secretKeyPath := textOf auditorData "secret_key_path" "" }
    ui := {
      color := textOf uiData "color" "#ff1249"
      compact := flagOf uiData "compact"
      timestampFormat := textOf uiData "timestamp_format" "%Y-%m-%d %H:%M:%S" } }

variable {File : Type} [TomlFile File]

/-- Load a `Config` from the file at `source`, if there is one, and merge the environment. -/
def loadConfig (source : String) (env : Environment) (file : Option File) :
    Except SettingsError Config := do
  let cfg ←
    match file with
    | none => pure {}
    | some content =>
      match TomlFile.loads content with
      | .ok parsed => configFromDict parsed
      | .error exc => throw (.configError s!"cannot read config at {source}: {exc}")
  cfg.mergeEnv env

/-- Persist a `Config`. -/
def saveConfig (cfg : Config) : File := TomlFile.dumps cfg.toTomlDict

/-! ### Setting a value -/

def setClusterValue (cluster : ClusterConfig) (key value : String) :
    Except SettingsError ClusterConfig :=
  if key = "name" then do
    let canonical ← canonicalCluster value
    return { cluster with
      name := canonical, rpcUrl := canonical.defaultRpc, wsUrl := canonical.defaultWs }
  else if key = "rpc_url" then return { cluster with rpcUrl := value }
  else if key = "ws_url" then return { cluster with wsUrl := value }
  else if key = "commitment" then do
    throwUnless (value ∈ ["processed", "confirmed", "finalized"]) (.configError
      s!"commitment must be processed|confirmed|finalized, got {PyText.repr value}")
    return { cluster with commitment := value }
  else throw (.configError s!"unknown key cluster.{key}")

omit [PyText] in
def setKeypairValue (keypair : KeypairConfig) (key value : String) :
    Except SettingsError KeypairConfig :=
  if key = "path" then return { keypair with path := value }
  else if key = "elgamal_seed_path" then return { keypair with elgamalSeedPath := value }
  else throw (.configError s!"unknown key keypair.{key}")

def setAuditorValue (auditor : AuditorConfig) (key value : String) :
    Except SettingsError AuditorConfig :=
  if key = "enabled" then return { auditor with enabled := ← parseBool value }
  else if key = "public_key" then return { auditor with publicKey := value }
  else if key = "secret_key_path" then return { auditor with secretKeyPath := value }
  else throw (.configError s!"unknown key auditor.{key}")

def setUiValue (ui : UiConfig) (key value : String) : Except SettingsError UiConfig :=
  if key = "color" then return { ui with color := value }
  else if key = "compact" then return { ui with compact := ← parseBool value }
  else if key = "timestamp_format" then return { ui with timestampFormat := value }
  else throw (.configError s!"unknown key ui.{key}")

/-- The section and the key of a dotted key. -/
def splitKey (dottedKey : String) : Except SettingsError (String × String) := do
  let (before, after) := dottedKey.toList.span (· ≠ '.')
  throwUnless (after ≠ []) (.configError
    s!"key must be of the form section.key, got {PyText.repr dottedKey}")
  let sectionName := normalize (.ofList before)
  let key := normalize (.ofList after.tail)
  throwUnless (sectionName ≠ "" ∧ key ≠ "") (.configError
    s!"empty section or key in {PyText.repr dottedKey}")
  return (sectionName, key)

/-- Return a new `Config` with a single value updated. -/
def setValue (cfg : Config) (dottedKey value : String) : Except SettingsError Config := do
  let (sectionName, key) ← splitKey dottedKey
  if sectionName = "cluster" then
    return { cfg with cluster := ← setClusterValue cfg.cluster key value }
  else if sectionName = "keypair" then
    return { cfg with keypair := ← setKeypairValue cfg.keypair key value }
  else if sectionName = "auditor" then
    return { cfg with auditor := ← setAuditorValue cfg.auditor key value }
  else if sectionName = "ui" then
    return { cfg with ui := ← setUiValue cfg.ui key value }
  else throw (.configError s!"unknown section: {PyText.repr sectionName}")

end Load

/-! ### Settings -/

/-- The settings of the file. -/
inductive Setting
  | clusterName
  | rpcUrl
  | wsUrl
  | commitment
  | keypairPath
  | elgamalSeedPath
  | auditorEnabled
  | auditorPublicKey
  | auditorSecretKeyPath
  | uiColor
  | uiCompact
  | uiTimestampFormat
  deriving DecidableEq

/-- The setting with a section and a key. -/
def Setting.ofKey (sectionName key : String) : Option Setting :=
  [(("cluster", "name"), clusterName), (("cluster", "rpc_url"), rpcUrl),
    (("cluster", "ws_url"), wsUrl), (("cluster", "commitment"), commitment),
    (("keypair", "path"), keypairPath), (("keypair", "elgamal_seed_path"), elgamalSeedPath),
    (("auditor", "enabled"), auditorEnabled), (("auditor", "public_key"), auditorPublicKey),
    (("auditor", "secret_key_path"), auditorSecretKeyPath), (("ui", "color"), uiColor),
    (("ui", "compact"), uiCompact), (("ui", "timestamp_format"), uiTimestampFormat)].lookup
      (sectionName, key)

/-- The settings that a key replaces. -/
def Setting.written : Setting → List Setting
  | clusterName => [clusterName, rpcUrl, wsUrl]
  | s => [s]

def Config.get (cfg : Config) : Setting → TomlValue
  | .clusterName => .string cfg.cluster.name.name
  | .rpcUrl => .string cfg.cluster.rpcUrl
  | .wsUrl => .string cfg.cluster.wsUrl
  | .commitment => .string cfg.cluster.commitment
  | .keypairPath => .string cfg.keypair.path
  | .elgamalSeedPath => .string cfg.keypair.elgamalSeedPath
  | .auditorEnabled => .boolean cfg.auditor.enabled
  | .auditorPublicKey => .string cfg.auditor.publicKey
  | .auditorSecretKeyPath => .string cfg.auditor.secretKeyPath
  | .uiColor => .string cfg.ui.color
  | .uiCompact => .boolean cfg.ui.compact
  | .uiTimestampFormat => .string cfg.ui.timestampFormat

/-- A word that `strip` and `lower` leave as it is. -/
def IsWord (s : String) : Prop :=
  strip s = s ∧ (s.toList.all fun c => c.toNat < 128) = true ∧
    s.toList.map Char.toLower = s.toList

instance (s : String) : Decidable (IsWord s) :=
  inferInstanceAs (Decidable (_ ∧ _ ∧ _))

theorem Cluster.name_injective : Function.Injective Cluster.name := by
  intro c d h
  cases c <;> cases d <;> first | rfl | exact absurd h (by decide)

/-- The settings are all there is to a configuration. -/
theorem Config.ext_get {c d : Config} (h : ∀ s, c.get s = d.get s) : c = d := by
  obtain ⟨⟨name, rpcUrl, wsUrl, commitment⟩, ⟨path, seed⟩, ⟨enabled, publicKey, secret⟩,
    ⟨color, compact, format⟩⟩ := c
  have hname := Cluster.name_injective (TomlValue.string.inj (h .clusterName))
  have hrpc := TomlValue.string.inj (h .rpcUrl)
  have hws := TomlValue.string.inj (h .wsUrl)
  have hcommitment := TomlValue.string.inj (h .commitment)
  have hpath := TomlValue.string.inj (h .keypairPath)
  have hseed := TomlValue.string.inj (h .elgamalSeedPath)
  have henabled := TomlValue.boolean.inj (h .auditorEnabled)
  have hpublic := TomlValue.string.inj (h .auditorPublicKey)
  have hsecret := TomlValue.string.inj (h .auditorSecretKeyPath)
  have hcolor := TomlValue.string.inj (h .uiColor)
  have hcompact := TomlValue.boolean.inj (h .uiCompact)
  have hformat := TomlValue.string.inj (h .uiTimestampFormat)
  subst hname hrpc hws hcommitment hpath hseed henabled hpublic hsecret hcolor hcompact hformat
  rfl

section Load

variable [PyText] {cfg cfg' : Config} {key value : String}

theorem normalize_eq_self {s : String} (h : IsWord s) : normalize s = s := by
  rw [normalize, h.1, PyText.lower_ascii s h.2.1, h.2.2, String.ofList_toList]

theorem normalize_name (cluster : Cluster) : normalize cluster.name = cluster.name := by
  cases cluster <;> exact normalize_eq_self (by decide +kernel)

theorem canonicalCluster_name (cluster : Cluster) :
    canonicalCluster cluster.name = .ok cluster := by
  rw [canonicalCluster, normalize_name]
  cases cluster <;> rfl

theorem configFromDict_toTomlDict (cfg : Config) : configFromDict cfg.toTomlDict = .ok cfg := by
  show (do let clusterName ← canonicalCluster cfg.cluster.name.name; _ :
    Except SettingsError Config) = _
  rw [canonicalCluster_name]
  rfl

theorem mergeEnv_none (cfg : Config) : cfg.mergeEnv (fun _ => none) = .ok cfg := rfl

/-- What is saved is loaded again. -/
theorem loadConfig_saved {File : Type} [TomlFile File] (source : String) (cfg : Config) :
    loadConfig source (fun _ => none) (some (saveConfig cfg : File)) = .ok cfg := by
  have hloads : TomlFile.loads (saveConfig cfg : File) = .ok cfg.toTomlDict :=
    TomlFile.loads_dumps _
  simp only [loadConfig, hloads, configFromDict_toTomlDict]
  exact mergeEnv_none cfg

/-! ### What a key replaces -/

/-- Of two configurations, the second has the settings `written` from the third. -/
def Replaces (written : List Setting) (c c' source : Config) : Prop :=
  ∀ t, c'.get t = if t ∈ written then source.get t else c.get t

theorem setClusterValue_spec {cluster : ClusterConfig}
    (h : setClusterValue cfg.cluster key value = .ok cluster) :
    ∃ s, Setting.ofKey "cluster" key = some s ∧ ∀ c : Config, ∃ new,
      setClusterValue c.cluster key value = .ok new ∧
        Replaces s.written c { c with cluster := new } { cfg with cluster } := by
  unfold setClusterValue at h
  split_ifs at h with hname hrpc hws hcommitment
  · obtain ⟨canonical, hcanonical, hnew⟩ := except_bind_eq_ok.1 h
    obtain rfl := Except.ok.inj hnew
    subst hname
    refine ⟨.clusterName, rfl, fun c => ⟨⟨canonical, canonical.defaultRpc, canonical.defaultWs,
      c.cluster.commitment⟩, ?_, by rintro (_ | _) <;> rfl⟩⟩
    simp [setClusterValue, hcanonical, bind, Except.bind, pure, Except.pure]
  · obtain rfl := Except.ok.inj h
    subst hrpc
    exact ⟨.rpcUrl, rfl, fun c => ⟨{ c.cluster with rpcUrl := value },
      by simp [setClusterValue, pure, Except.pure], by rintro (_ | _) <;> rfl⟩⟩
  · obtain rfl := Except.ok.inj h
    subst hws
    exact ⟨.wsUrl, rfl, fun c => ⟨{ c.cluster with wsUrl := value },
      by simp [setClusterValue, pure, Except.pure], by rintro (_ | _) <;> rfl⟩⟩
  · obtain ⟨hvalue, hnew⟩ := throwUnless_bind_eq_ok.1 h
    obtain rfl := Except.ok.inj hnew
    subst hcommitment
    refine ⟨.commitment, rfl, fun c => ⟨{ c.cluster with commitment := value }, ?_,
      by rintro (_ | _) <;> rfl⟩⟩
    rw [setClusterValue, if_neg (by decide), if_neg (by decide), if_neg (by decide), if_pos rfl]
    exact throwUnless_bind_eq_ok.2 ⟨hvalue, rfl⟩

omit [PyText] in
theorem setKeypairValue_spec {keypair : KeypairConfig}
    (h : setKeypairValue cfg.keypair key value = .ok keypair) :
    ∃ s, Setting.ofKey "keypair" key = some s ∧ ∀ c : Config, ∃ new,
      setKeypairValue c.keypair key value = .ok new ∧
        Replaces s.written c { c with keypair := new } { cfg with keypair } := by
  unfold setKeypairValue at h
  split_ifs at h with hpath hseed
  · obtain rfl := Except.ok.inj h
    subst hpath
    exact ⟨.keypairPath, rfl, fun c => ⟨{ c.keypair with path := value },
      by simp [setKeypairValue, pure, Except.pure], by rintro (_ | _) <;> rfl⟩⟩
  · obtain rfl := Except.ok.inj h
    subst hseed
    exact ⟨.elgamalSeedPath, rfl, fun c => ⟨{ c.keypair with elgamalSeedPath := value },
      by simp [setKeypairValue, pure, Except.pure], by rintro (_ | _) <;> rfl⟩⟩

theorem setAuditorValue_spec {auditor : AuditorConfig}
    (h : setAuditorValue cfg.auditor key value = .ok auditor) :
    ∃ s, Setting.ofKey "auditor" key = some s ∧ ∀ c : Config, ∃ new,
      setAuditorValue c.auditor key value = .ok new ∧
        Replaces s.written c { c with auditor := new } { cfg with auditor } := by
  unfold setAuditorValue at h
  split_ifs at h with henabled hpublic hsecret
  · obtain ⟨enabled, hvalue, hnew⟩ := except_bind_eq_ok.1 h
    obtain rfl := Except.ok.inj hnew
    subst henabled
    exact ⟨.auditorEnabled, rfl, fun c => ⟨{ c.auditor with enabled },
      by simp [setAuditorValue, hvalue, bind, Except.bind, pure, Except.pure],
      by rintro (_ | _) <;> rfl⟩⟩
  · obtain rfl := Except.ok.inj h
    subst hpublic
    exact ⟨.auditorPublicKey, rfl, fun c => ⟨{ c.auditor with publicKey := value },
      by simp [setAuditorValue, pure, Except.pure], by rintro (_ | _) <;> rfl⟩⟩
  · obtain rfl := Except.ok.inj h
    subst hsecret
    exact ⟨.auditorSecretKeyPath, rfl, fun c => ⟨{ c.auditor with secretKeyPath := value },
      by simp [setAuditorValue, pure, Except.pure], by rintro (_ | _) <;> rfl⟩⟩

theorem setUiValue_spec {ui : UiConfig} (h : setUiValue cfg.ui key value = .ok ui) :
    ∃ s, Setting.ofKey "ui" key = some s ∧ ∀ c : Config, ∃ new,
      setUiValue c.ui key value = .ok new ∧
        Replaces s.written c { c with ui := new } { cfg with ui } := by
  unfold setUiValue at h
  split_ifs at h with hcolor hcompact hformat
  · obtain rfl := Except.ok.inj h
    subst hcolor
    exact ⟨.uiColor, rfl, fun c => ⟨{ c.ui with color := value },
      by simp [setUiValue, pure, Except.pure], by rintro (_ | _) <;> rfl⟩⟩
  · obtain ⟨compact, hvalue, hnew⟩ := except_bind_eq_ok.1 h
    obtain rfl := Except.ok.inj hnew
    subst hcompact
    exact ⟨.uiCompact, rfl, fun c => ⟨{ c.ui with compact },
      by simp [setUiValue, hvalue, bind, Except.bind, pure, Except.pure],
      by rintro (_ | _) <;> rfl⟩⟩
  · obtain rfl := Except.ok.inj h
    subst hformat
    exact ⟨.uiTimestampFormat, rfl, fun c => ⟨{ c.ui with timestampFormat := value },
      by simp [setUiValue, pure, Except.pure], by rintro (_ | _) <;> rfl⟩⟩

/-- The setting that a dotted key names. -/
def targetSetting (dottedKey : String) : Option Setting :=
  match splitKey dottedKey with
  | .ok (sectionName, key) => Setting.ofKey sectionName key
  | .error _ => none

/-- What is true of the update of a section is true of the configuration around it. -/
theorem section_spec {α : Type} (read : Config → α) (write : Config → α → Config)
    (update : α → Except SettingsError α) {target : Option Setting}
    (hset : ∀ c, setValue c key value = do let new ← update (read c); return write c new)
    (hspec : ∀ {new}, update (read cfg) = .ok new → ∃ s, target = some s ∧ ∀ c : Config, ∃ new',
      update (read c) = .ok new' ∧ Replaces s.written c (write c new') (write cfg new))
    (h : setValue cfg key value = .ok cfg') :
    ∃ s, target = some s ∧ ∀ c, ∃ c', setValue c key value = .ok c' ∧
      Replaces s.written c c' cfg' := by
  rw [hset] at h
  obtain ⟨new, hnew, hwrite⟩ := except_bind_eq_ok.1 h
  obtain rfl := Except.ok.inj hwrite
  obtain ⟨s, htarget, hspec⟩ := hspec hnew
  refine ⟨s, htarget, fun c => ?_⟩
  obtain ⟨new', hnew', hreplaces⟩ := hspec c
  refine ⟨_, ?_, hreplaces⟩
  rw [hset]
  exact except_bind_eq_ok.2 ⟨new', hnew', rfl⟩

/-- A key and a value that are accepted name a setting, and they replace what it writes in every
configuration alike. -/
theorem setValue_spec (h : setValue cfg key value = .ok cfg') :
    ∃ s, targetSetting key = some s ∧ ∀ c, ∃ c', setValue c key value = .ok c' ∧
      Replaces s.written c c' cfg' := by
  obtain ⟨⟨sectionName, name⟩, hsplit, hsection⟩ := except_bind_eq_ok.1 h
  have htarget : targetSetting key = Setting.ofKey sectionName name := by
    rw [targetSetting, hsplit]
  rw [htarget]
  dsimp only at hsection
  split_ifs at hsection with hcluster hkeypair hauditor hui
  · subst hcluster
    refine section_spec Config.cluster (fun c new => { c with cluster := new })
      (fun old => setClusterValue old name value) (fun c => ?_) setClusterValue_spec h
    simp [setValue, hsplit, bind, Except.bind]
  · subst hkeypair
    refine section_spec Config.keypair (fun c new => { c with keypair := new })
      (fun old => setKeypairValue old name value) (fun c => ?_) setKeypairValue_spec h
    simp [setValue, hsplit, bind, Except.bind]
  · subst hauditor
    refine section_spec Config.auditor (fun c new => { c with auditor := new })
      (fun old => setAuditorValue old name value) (fun c => ?_) setAuditorValue_spec h
    simp [setValue, hsplit, bind, Except.bind]
  · subst hui
    refine section_spec Config.ui (fun c new => { c with ui := new })
      (fun old => setUiValue old name value) (fun c => ?_) setUiValue_spec h
    simp [setValue, hsplit, bind, Except.bind]

/-! ### What the environment replaces -/

/-- The names and the flags of the environment can be read. -/
structure Readable (env : Environment) : Prop where
  clusterName : ∀ val ∈ env "GHOS_CLUSTER_NAME", ∃ name, canonicalCluster val = .ok name
  auditorEnabled : ∀ val ∈ env "GHOS_AUDITOR_ENABLED", ∃ b, parseBool val = .ok b
  uiCompact : ∀ val ∈ env "GHOS_UI_COMPACT", ∃ b, parseBool val = .ok b

/-- The environment leaves the setting of the file as it is: the variable is not set, or it has the
value of the file.  A cluster name that is set leaves a URL only if that is not the default of the
old name, or also the default of the new one. -/
def Keeps (env : Environment) (cfg : Config) : Setting → Prop
  | .clusterName =>
    ∀ val ∈ env "GHOS_CLUSTER_NAME", canonicalCluster val = .ok cfg.cluster.name
  | .rpcUrl =>
    (∀ val ∈ env "GHOS_CLUSTER_RPC_URL", val = cfg.cluster.rpcUrl) ∧
      (env "GHOS_CLUSTER_RPC_URL" = none → cfg.cluster.rpcUrl = cfg.cluster.name.defaultRpc →
        ∀ val ∈ env "GHOS_CLUSTER_NAME", ∀ name, canonicalCluster val = .ok name →
          name.defaultRpc = cfg.cluster.rpcUrl)
  | .wsUrl =>
    (∀ val ∈ env "GHOS_CLUSTER_WS_URL", val = cfg.cluster.wsUrl) ∧
      (env "GHOS_CLUSTER_WS_URL" = none → cfg.cluster.wsUrl = cfg.cluster.name.defaultWs →
        ∀ val ∈ env "GHOS_CLUSTER_NAME", ∀ name, canonicalCluster val = .ok name →
          name.defaultWs = cfg.cluster.wsUrl)
  | .commitment => ∀ val ∈ env "GHOS_CLUSTER_COMMITMENT", val = cfg.cluster.commitment
  | .keypairPath => ∀ val ∈ env "GHOS_KEYPAIR_PATH", val = cfg.keypair.path
  | .elgamalSeedPath =>
    ∀ val ∈ env "GHOS_KEYPAIR_ELGAMAL_SEED_PATH", val = cfg.keypair.elgamalSeedPath
  | .auditorEnabled => ∀ val ∈ env "GHOS_AUDITOR_ENABLED", parseBool val = .ok cfg.auditor.enabled
  | .auditorPublicKey => ∀ val ∈ env "GHOS_AUDITOR_PUBLIC_KEY", val = cfg.auditor.publicKey
  | .auditorSecretKeyPath =>
    ∀ val ∈ env "GHOS_AUDITOR_SECRET_KEY_PATH", val = cfg.auditor.secretKeyPath
  | .uiColor => ∀ val ∈ env "GHOS_UI_COLOR", val = cfg.ui.color
  | .uiCompact => ∀ val ∈ env "GHOS_UI_COMPACT", parseBool val = .ok cfg.ui.compact
  | .uiTimestampFormat => ∀ val ∈ env "GHOS_UI_TIMESTAMP_FORMAT", val = cfg.ui.timestampFormat

variable {env : Environment}

omit [PyText] in
theorem override_eq_iff {variableName old : String} :
    override env variableName old = old ↔ ∀ val ∈ env variableName, val = old := by
  rw [override]
  cases env variableName <;> simp

theorem overrideBool_eq_iff {variableName : String} {old new : Bool}
    (h : overrideBool env variableName old = .ok new) :
    new = old ↔ ∀ val ∈ env variableName, parseBool val = .ok old := by
  rw [overrideBool] at h
  cases hval : env variableName with
  | none =>
    rw [hval] at h
    simpa using (Except.ok.inj h).symm
  | some val =>
    rw [hval] at h
    simp [h]

theorem exists_overrideBool_iff {variableName : String} {old : Bool} :
    (∃ new, overrideBool env variableName old = .ok new) ↔
      ∀ val ∈ env variableName, ∃ b, parseBool val = .ok b := by
  rw [overrideBool]
  cases env variableName <;> simp [pure, Except.pure]

omit [PyText] in
theorem override_eq_iff_of_none {variableName mid old : String} :
    override env variableName mid = old ↔
      (∀ val ∈ env variableName, val = old) ∧ (env variableName = none → mid = old) := by
  rw [override]
  cases env variableName <;> simp

theorem ClusterConfig.mergeEnv_spec {old new : ClusterConfig} (h : old.mergeEnv env = .ok new) :
    (new.name = old.name ↔ ∀ val ∈ env "GHOS_CLUSTER_NAME", canonicalCluster val = .ok old.name) ∧
    (new.rpcUrl = old.rpcUrl ↔ (∀ val ∈ env "GHOS_CLUSTER_RPC_URL", val = old.rpcUrl) ∧
      (env "GHOS_CLUSTER_RPC_URL" = none → old.rpcUrl = old.name.defaultRpc →
        ∀ val ∈ env "GHOS_CLUSTER_NAME", ∀ name, canonicalCluster val = .ok name →
          name.defaultRpc = old.rpcUrl)) ∧
    (new.wsUrl = old.wsUrl ↔ (∀ val ∈ env "GHOS_CLUSTER_WS_URL", val = old.wsUrl) ∧
      (env "GHOS_CLUSTER_WS_URL" = none → old.wsUrl = old.name.defaultWs →
        ∀ val ∈ env "GHOS_CLUSTER_NAME", ∀ name, canonicalCluster val = .ok name →
          name.defaultWs = old.wsUrl)) ∧
    (new.commitment = old.commitment ↔
      ∀ val ∈ env "GHOS_CLUSTER_COMMITMENT", val = old.commitment) := by
  unfold mergeEnv at h
  cases hname : env "GHOS_CLUSTER_NAME" with
  | none =>
    rw [hname] at h
    obtain rfl := Except.ok.inj h
    dsimp only
    rw [override_eq_iff, override_eq_iff, override_eq_iff]
    simp
  | some val =>
    rw [hname] at h
    obtain ⟨name, hcanonical, hnew⟩ := except_bind_eq_ok.1 h
    obtain rfl := Except.ok.inj hnew
    dsimp only
    rw [override_eq_iff_of_none, override_eq_iff_of_none, override_eq_iff]
    simp [hcanonical, ite_eq_right_iff]

theorem ClusterConfig.exists_mergeEnv_iff {old : ClusterConfig} :
    (∃ new, old.mergeEnv env = .ok new) ↔
      ∀ val ∈ env "GHOS_CLUSTER_NAME", ∃ name, canonicalCluster val = .ok name := by
  unfold mergeEnv
  cases env "GHOS_CLUSTER_NAME" with
  | none => simp [pure, Except.pure, bind, Except.bind]
  | some val => simp [except_bind_eq_ok, pure, Except.pure]

/-- The environment is merged if it can be read. -/
theorem Config.exists_mergeEnv_iff : (∃ merged, cfg.mergeEnv env = .ok merged) ↔ Readable env := by
  simp only [mergeEnv, except_bind_eq_ok, except_pure_eq_ok]
  constructor
  · rintro ⟨_, cluster, hcluster, enabled, henabled, compact, hcompact, -⟩
    exact ⟨ClusterConfig.exists_mergeEnv_iff.1 ⟨cluster, hcluster⟩,
      exists_overrideBool_iff.1 ⟨enabled, henabled⟩, exists_overrideBool_iff.1 ⟨compact, hcompact⟩⟩
  · intro h
    obtain ⟨cluster, hcluster⟩ := ClusterConfig.exists_mergeEnv_iff.2 h.clusterName
    obtain ⟨enabled, henabled⟩ := exists_overrideBool_iff.2 h.auditorEnabled
    obtain ⟨compact, hcompact⟩ := exists_overrideBool_iff.2 h.uiCompact
    exact ⟨_, cluster, hcluster, enabled, henabled, compact, hcompact, rfl⟩

/-- Merged, a setting is as in the file exactly if the environment keeps it. -/
theorem Config.mergeEnv_get {merged : Config} (h : cfg.mergeEnv env = .ok merged) (s : Setting) :
    merged.get s = cfg.get s ↔ Keeps env cfg s := by
  simp only [mergeEnv, except_bind_eq_ok, except_pure_eq_ok] at h
  obtain ⟨cluster, hcluster, enabled, henabled, compact, hcompact, rfl⟩ := h
  obtain ⟨hname, hrpc, hws, hcommitment⟩ := ClusterConfig.mergeEnv_spec hcluster
  cases s with
  | clusterName =>
    rw [get, get, TomlValue.string.injEq, Cluster.name_injective.eq_iff]
    exact hname
  | rpcUrl => exact (TomlValue.string.injEq ..).to_iff.trans hrpc
  | wsUrl => exact (TomlValue.string.injEq ..).to_iff.trans hws
  | commitment => exact (TomlValue.string.injEq ..).to_iff.trans hcommitment
  | keypairPath => exact (TomlValue.string.injEq ..).to_iff.trans override_eq_iff
  | elgamalSeedPath => exact (TomlValue.string.injEq ..).to_iff.trans override_eq_iff
  | auditorEnabled =>
    exact (TomlValue.boolean.injEq ..).to_iff.trans (overrideBool_eq_iff henabled)
  | auditorPublicKey => exact (TomlValue.string.injEq ..).to_iff.trans override_eq_iff
  | auditorSecretKeyPath => exact (TomlValue.string.injEq ..).to_iff.trans override_eq_iff
  | uiColor => exact (TomlValue.string.injEq ..).to_iff.trans override_eq_iff
  | uiCompact => exact (TomlValue.boolean.injEq ..).to_iff.trans (overrideBool_eq_iff hcompact)
  | uiTimestampFormat => exact (TomlValue.string.injEq ..).to_iff.trans override_eq_iff

/-- The environment is merged into what is loaded without it. -/
theorem loadConfig_eq_mergeEnv {File : Type} [TomlFile File] {source : String}
    {file : Option File} (h : loadConfig source (fun _ => none) file = .ok cfg) :
    loadConfig source env file = cfg.mergeEnv env := by
  unfold loadConfig at h ⊢
  cases file with
  | none =>
    obtain rfl := Except.ok.inj h
    rfl
  | some content =>
    dsimp only at h ⊢
    cases hloads : TomlFile.loads content with
    | error exc =>
      rw [hloads] at h
      cases h
    | ok parsed =>
      rw [hloads] at h
      obtain ⟨c, hc, hmerge⟩ := except_bind_eq_ok.1 h
      obtain rfl := Except.ok.inj ((mergeEnv_none c).symm.trans hmerge)
      exact congrArg (· >>= fun c : Config => c.mergeEnv env) hc

end Load

end Ghos.Cli
