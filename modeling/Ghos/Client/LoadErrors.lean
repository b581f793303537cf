import Ghos.Client.SettingsCommands
import Ghos.Lib.Raises

/-!
# What escapes from `load_config`

`loadConfig` of the settings is given the path and the text of its values.  Here the operating
system and the library of Python take part, each with exceptions of its own.

* `PySystem.loadConfig_eq`: where these return, the loader is the one of the settings;
* `PySystem.raisesOnly_loadConfig_iff`, `raisesOnly_setValue_iff`: when nothing but a `ConfigError`
  is raised.
-/

namespace Ghos.Cli

/-- An exception that is no `ConfigError`. -/
inductive PyException
  | osError (message : String)
  | valueError (message : String)
  | other (typeName message : String)
  deriving DecidableEq

/-- `except (OSError, ValueError)`. -/
def PyException.caught : PyException → Bool
  | osError _ | valueError _ => true
  | other _ _ => false

def PyException.message : PyException → String
  | osError message | valueError message | other _ message => message

inductive LoadError
  | configError (message : String)
  | python (exc : PyException)
  deriving DecidableEq

def LoadError.ofSettings : SettingsError → LoadError
  | .configError message => configError message
  | .valueError message => python (.valueError message)
  | .badParameter message => python (.other "BadParameter" message)

def LoadError.IsConfigError : LoadError → Prop
  | configError _ => True
  | python _ => False

/-- What the loader asks of the operating system and of Python's library. -/
structure PySystem (File : Type) where
  /-- `Path.home()` -/
  home : Except PyException String
  /-- `Path(path).expanduser()` -/
  expanduser : String → Except PyException String
  /-- `Path(path).is_file()` -/
  isFile : String → Except PyException Bool
  /-- `Path(path).read_bytes()` -/
  readBytes : String → Except PyException File
  /-- `tomllib.loads(raw.decode("utf-8"))` -/
  loads : File → Except PyException TomlTable
  /-- `str(value)` of a value that is no string -/
  str : TomlValue → Except PyException String

/-- `str(Path(dir) / name)`. -/
def joinPath (dir name : String) : String :=
  if dir = "." then name else if dir.endsWith "/" then dir ++ name else s!"{dir}/{name}"

namespace PySystem

variable [PyText] {File : Type} (sys : PySystem File)

/-! ### The loader -/

/-- Return the directory where the config file lives. -/
def defaultConfigDir (env : Environment) : Except PyException String :=
  let override := (env "GHOS_CONFIG_DIR").getD ""
  if override ≠ "" then sys.expanduser override
  else do
    let home ← sys.home
    return joinPath (joinPath home ".config") "ghos"

/-- Return the path to the `config.toml` file. -/
def defaultConfigPath (env : Environment) : Except PyException String := do
  let dir ← sys.defaultConfigDir env
  return joinPath dir "config.toml"

/-- `path or default_config_path()`. -/
def sourceOf (path : Option String) (env : Environment) : Except PyException String :=
  match path with
  | some path => return path
  | none => sys.defaultConfigPath env

/-- `_toml.loads(source.read_bytes().decode("utf-8"))`. -/
def parse (source : String) : Except PyException TomlTable := do
  let raw ← sys.readBytes source
  sys.loads raw

def readConfig (source : String) : Except LoadError TomlTable :=
  match sys.parse source with
  | .ok parsed => return parsed
  | .error exc =>
    if exc.caught then throw (.configError s!"cannot read config at {source}: {exc.message}")
    else throw (.python exc)

/-- `str(value)`. -/
def text : TomlValue → Except PyException String
  | .string s => return s
  | value => sys.str value

/-- `str(data.get(key, default))`. -/
def textOf (data : TomlTable) (key default : String) : Except PyException String :=
  match data.lookup key with
  | none => return default
  | some value => sys.text value

/-- Build a `Config` from a parsed document, validating known fields. -/
def configFromDict (data : TomlTable) : Except LoadError Config := do
  let clusterData ← (section? data "cluster").mapError .ofSettings
  let keypairData ← (section? data "keypair").mapError .ofSettings
  let auditorData ← (section? data "auditor").mapError .ofSettings
  let uiData ← (section? data "ui").mapError .ofSettings
  let clusterNameRaw ← (sys.textOf clusterData "name" "devnet").mapError .python
  let clusterName ← (canonicalCluster clusterNameRaw).mapError .ofSettings
  let rpcUrl ← (sys.textOf clusterData "rpc_url" clusterName.defaultRpc).mapError .python
  let wsUrl ← (sys.textOf clusterData "ws_url" clusterName.defaultWs).mapError .python
  let commitment ← (sys.textOf clusterData "commitment" "confirmed").mapError .python
  let path ← (sys.textOf keypairData "path" "~/.config/solana/id.json").mapError .python
  let elgamalSeedPath ← (sys.textOf keypairData "elgamal_seed_path" "").mapError .python
  let publicKey ← (sys.textOf auditorData "public_key" "").mapError .python
  let secretKeyPath ← (sys.textOf auditorData "secret_key_path" "").mapError .python
  let color ← (sys.textOf uiData "color" "#ff1249").mapError .python
  let timestampFormat ←
    (sys.textOf uiData "timestamp_format" "%Y-%m-%d %H:%M:%S").mapError .python
  return {
    cluster := { name := clusterName, rpcUrl, wsUrl, commitment }
    keypair := { path, elgamalSeedPath }
    auditor := { enabled := flagOf auditorData "enabled", publicKey, secretKeyPath }
    ui := { color, compact := flagOf uiData "compact", timestampFormat } }

/-- The `Config` of the file, or the defaults. -/
def fileConfig (source : String) : Except LoadError Config := do
  let isFile ← (sys.isFile source).mapError .python
  if isFile then do
    let parsed ← sys.readConfig source
    sys.configFromDict parsed
  else return {}

/-- Load a `Config` from disk, falling back to defaults. -/
def loadConfig (path : Option String) (env : Environment) : Except LoadError Config := do
  let source ← (sys.sourceOf path env).mapError .python
  let cfg ← sys.fileConfig source
  (cfg.mergeEnv env).mapError .ofSettings

/-! ### The loader of the settings -/

section Settings

variable {sys}

theorem textOf_eq (hstr : ∀ value, sys.str value = .ok (PyText.str value)) (data : TomlTable)
    (key default : String) : sys.textOf data key default = .ok (Cli.textOf data key default) := by
  unfold textOf Cli.textOf
  cases data.lookup key with
  | none => rfl
  | some value => cases value <;> first | rfl | exact hstr _

theorem configFromDict_eq (hstr : ∀ value, sys.str value = .ok (PyText.str value))
    (data : TomlTable) :
    sys.configFromDict data = (Cli.configFromDict data).mapError .ofSettings := by
  simp only [configFromDict, Cli.configFromDict, mapError_bind, textOf_eq hstr]
  rfl

/-- The file at the path, if there is one. -/
def Holds (sys : PySystem File) (source : String) : Option File → Prop
  | none => sys.isFile source = .ok false
  | some content => sys.isFile source = .ok true ∧ sys.readBytes source = .ok content

/-- Nothing is lost in the loader of the settings if the values can be printed. -/
theorem loadConfig_eq [TomlFile File] {source : String} {file : Option File}
    (hstr : ∀ value, sys.str value = .ok (PyText.str value))
    (hloads : ∀ content, sys.loads content = (TomlFile.loads content).mapError .valueError)
    (hfile : sys.Holds source file) (env : Environment) :
    sys.loadConfig (some source) env =
      (Cli.loadConfig source env file).mapError .ofSettings := by
  have hload : sys.loadConfig (some source) env =
      sys.fileConfig source >>= fun cfg => (cfg.mergeEnv env).mapError .ofSettings := rfl
  rw [hload]
  unfold Cli.loadConfig fileConfig
  cases file with
  | none =>
    have hisFile : sys.isFile source = .ok false := hfile
    rw [hisFile]
    rfl
  | some content =>
    obtain ⟨hisFile, hread⟩ : sys.isFile source = .ok true ∧ sys.readBytes source = .ok content :=
      hfile
    have hparse : sys.parse source = (TomlFile.loads content).mapError .valueError := by
      rw [parse, hread, ← hloads]
      rfl
    rw [hisFile, readConfig, hparse]
    dsimp only
    cases TomlFile.loads content with
    | error exc => rfl
    | ok parsed =>
      show (sys.configFromDict parsed >>= fun cfg => (cfg.mergeEnv env).mapError .ofSettings) =
        (Cli.configFromDict parsed >>= fun cfg => cfg.mergeEnv env).mapError .ofSettings
      rw [configFromDict_eq hstr, mapError_bind]

end Settings

end PySystem

/-! ### What the helpers raise -/

def SettingsError.IsConfigError : SettingsError → Prop
  | configError _ => True
  | valueError _ | badParameter _ => False

theorem SettingsError.isConfigError_ofSettings (e : SettingsError) :
    (LoadError.ofSettings e).IsConfigError ↔ e.IsConfigError := by
  cases e <;> exact Iff.rfl

section Helpers

variable [PyText] {value key : String} {env : Environment} {cfg : Config}

/-- The aliases of `canonical_cluster`. -/
def Recognized (value : String) : Prop := normalize value ∈ Cluster.aliases.map Prod.fst

theorem exists_canonicalCluster_iff :
    (∃ cluster, canonicalCluster value = .ok cluster) ↔ Recognized value := by
  unfold canonicalCluster Recognized
  generalize normalize value = name
  cases hlookup : Cluster.aliases.lookup name with
  | none =>
    have hnot : name ∉ Cluster.aliases.map Prod.fst := by
      intro h
      obtain ⟨p, hp, rfl⟩ := List.mem_map.1 h
      exact absurd (List.lookup_eq_none_iff.1 hlookup p hp) (by simp)
    simp [hnot]
  | some cluster =>
    have hmem : name ∈ Cluster.aliases.map Prod.fst := by
      obtain ⟨before, after, hsplit, -⟩ := List.lookup_eq_some_iff.1 hlookup
      simp [hsplit]
    simp [hmem, pure, Except.pure]

theorem raisesOnly_canonicalCluster :
    RaisesOnly SettingsError.IsConfigError (canonicalCluster value) ↔ Recognized value := by
  rw [← exists_canonicalCluster_iff]
  unfold canonicalCluster
  cases Cluster.aliases.lookup (normalize value) with
  | none => simp [SettingsError.IsConfigError]
  | some cluster => simp [pure, Except.pure]

theorem raisesOnly_parseBool : RaisesOnly SettingsError.IsConfigError (parseBool value) := by
  unfold parseBool
  dsimp only
  split_ifs
  · exact raisesOnly_pure
  · exact raisesOnly_pure
  · exact raisesOnly_throw.2 trivial

theorem raisesOnly_overrideBool {variableName : String} {old : Bool} :
    RaisesOnly SettingsError.IsConfigError (overrideBool env variableName old) := by
  unfold overrideBool
  cases env variableName with
  | none => exact raisesOnly_pure
  | some val => exact raisesOnly_parseBool

omit [PyText] in
theorem raisesOnly_section? {data : TomlTable} {name : String} :
    RaisesOnly SettingsError.IsConfigError (section? data name) := by
  unfold section?
  cases data.lookup name with
  | none => exact raisesOnly_pure
  | some value =>
    dsimp only
    split_ifs
    · split
      · exact raisesOnly_pure
      · exact raisesOnly_throw.2 trivial
    · exact raisesOnly_pure

theorem ClusterConfig.raisesOnly_mergeEnv {old : ClusterConfig} :
    RaisesOnly SettingsError.IsConfigError (old.mergeEnv env) ↔
      ∀ val ∈ env "GHOS_CLUSTER_NAME", Recognized val := by
  unfold mergeEnv
  cases env "GHOS_CLUSTER_NAME" with
  | none => simp
  | some val => simp [raisesOnly_canonicalCluster]

/-- The flags end in a `ConfigError`, and the cluster does not. -/
theorem Config.raisesOnly_mergeEnv :
    RaisesOnly SettingsError.IsConfigError (cfg.mergeEnv env) ↔
      ∀ val ∈ env "GHOS_CLUSTER_NAME", Recognized val := by
  unfold mergeEnv
  rw [raisesOnly_bind, ClusterConfig.raisesOnly_mergeEnv]
  refine and_iff_left fun cluster _ => ?_
  exact raisesOnly_overrideBool.bind fun _ => raisesOnly_overrideBool.bind fun _ => raisesOnly_pure

/-! ### Setting a value -/

omit [PyText] in
theorem raisesOnly_throwUnless {ε : Type} {P : ε → Prop} {cond : Prop} [Decidable cond] {e : ε}
    (h : P e) : RaisesOnly P (throwUnless cond e) := by
  unfold throwUnless
  split_ifs
  · exact raisesOnly_ok
  · exact raisesOnly_error.2 h

theorem raisesOnly_splitKey : RaisesOnly SettingsError.IsConfigError (splitKey key) := by
  unfold splitKey
  refine (raisesOnly_throwUnless ?_).bind fun _ => (raisesOnly_throwUnless ?_).bind fun _ =>
    raisesOnly_pure
  · trivial
  · trivial

theorem raisesOnly_setClusterValue {cluster : ClusterConfig} :
    RaisesOnly SettingsError.IsConfigError (setClusterValue cluster key value) ↔
      (key = "name" → Recognized value) := by
  unfold setClusterValue
  split_ifs with hname
  · simp [raisesOnly_canonicalCluster, hname]
  · simp [hname]
  · simp [hname]
  · refine iff_of_true ?_ fun h => absurd h hname
    exact (raisesOnly_throwUnless trivial).bind fun _ => raisesOnly_pure
  · refine iff_of_true ?_ fun h => absurd h hname
    exact raisesOnly_throw.2 trivial

omit [PyText] in
theorem raisesOnly_setKeypairValue {keypair : KeypairConfig} :
    RaisesOnly SettingsError.IsConfigError (setKeypairValue keypair key value) := by
  unfold setKeypairValue
  split_ifs
  · exact raisesOnly_pure
  · exact raisesOnly_pure
  · exact raisesOnly_throw.2 trivial

theorem raisesOnly_setAuditorValue {auditor : AuditorConfig} :
    RaisesOnly SettingsError.IsConfigError (setAuditorValue auditor key value) := by
  unfold setAuditorValue
  split_ifs
  · exact raisesOnly_parseBool.bind fun _ => raisesOnly_pure
  · exact raisesOnly_pure
  · exact raisesOnly_pure
  · exact raisesOnly_throw.2 trivial

theorem raisesOnly_setUiValue {ui : UiConfig} :
    RaisesOnly SettingsError.IsConfigError (setUiValue ui key value) := by
  unfold setUiValue
  split_ifs
  · exact raisesOnly_pure
  · exact raisesOnly_parseBool.bind fun _ => raisesOnly_pure
  · exact raisesOnly_pure
  · exact raisesOnly_throw.2 trivial

/-- Only the name of the cluster is refused with another exception. -/
theorem raisesOnly_setValue :
    RaisesOnly SettingsError.IsConfigError (setValue cfg key value) ↔
      (splitKey key = .ok ("cluster", "name") → Recognized value) := by
  unfold setValue
  rw [raisesOnly_bind, and_iff_right raisesOnly_splitKey]
  cases splitKey key with
  | error e => simp
  | ok parts =>
    obtain ⟨sectionName, name⟩ := parts
    simp only [Except.ok.injEq, forall_eq', Prod.mk.injEq]
    split_ifs with hcluster hkeypair hauditor hui
    · rw [raisesOnly_bind, raisesOnly_setClusterValue]
      simp [hcluster]
    · refine iff_of_true ?_ fun h => absurd h.1 hcluster
      exact raisesOnly_setKeypairValue.bind fun _ => raisesOnly_pure
    · refine iff_of_true ?_ fun h => absurd h.1 hcluster
      exact raisesOnly_setAuditorValue.bind fun _ => raisesOnly_pure
    · refine iff_of_true ?_ fun h => absurd h.1 hcluster
      exact raisesOnly_setUiValue.bind fun _ => raisesOnly_pure
    · refine iff_of_true ?_ fun h => absurd h.1 hcluster
      exact raisesOnly_throw.2 trivial

end Helpers

/-! ### Loading a file -/

/-- The sections are missing, empty or tables. -/
def TablesOnly (data : TomlTable) : Prop :=
  ∀ name ∈ ["cluster", "keypair", "auditor", "ui"], ∃ entries, section? data name = .ok entries

/-- The keys with values that are printed. -/
def textKeys : List (String × String) :=
  [("cluster", "name"), ("cluster", "rpc_url"), ("cluster", "ws_url"), ("cluster", "commitment"),
    ("keypair", "path"), ("keypair", "elgamal_seed_path"), ("auditor", "public_key"),
    ("auditor", "secret_key_path"), ("ui", "color"), ("ui", "timestamp_format")]

namespace PySystem

section Conditions

variable [PyText] {File : Type} (sys : PySystem File)

def Prints (data : TomlTable) (key : String) : Prop :=
  ∀ value ∈ data.lookup key, ∃ s, sys.text value = .ok s

/-- The values are printed, and the cluster has a known name. -/
structure Printable (data : TomlTable) : Prop where
  text : ∀ p ∈ textKeys, ∀ entries, section? data p.1 = .ok entries → sys.Prints entries p.2
  name : ∀ entries, section? data "cluster" = .ok entries →
    ∀ value ∈ entries.lookup "name", ∀ s, sys.text value = .ok s → Recognized s

/-- There is a file, and this is what comes of reading it. -/
def Parses (path : Option String) (env : Environment) (result : Except PyException TomlTable) :
    Prop :=
  ∃ source, sys.sourceOf path env = .ok source ∧ sys.isFile source = .ok true ∧
    sys.parse source = result

/-- The inputs that are loaded or refused with a `ConfigError`. -/
structure Loadable (path : Option String) (env : Environment) : Prop where
  found : ∃ source isFile, sys.sourceOf path env = .ok source ∧ sys.isFile source = .ok isFile
  caught : ∀ exc, sys.Parses path env (.error exc) → exc.caught
  printable : ∀ data, sys.Parses path env (.ok data) → TablesOnly data → sys.Printable data
  environment :
    (∀ result, sys.Parses path env result → ∃ data, result = .ok data ∧ TablesOnly data) →
      ∀ val ∈ env "GHOS_CLUSTER_NAME", Recognized val

end Conditions

section Raised

variable {File : Type} {sys : PySystem File} {data : TomlTable} {key default : String}
  {P : LoadError → Prop} {β : Type}

theorem exists_textOf_iff : (∃ s, sys.textOf data key default = .ok s) ↔ sys.Prints data key := by
  unfold textOf Prints
  cases data.lookup key with
  | none => simp [pure, Except.pure]
  | some value => simp

/-- What follows the printing of a value counts if the value is printed. -/
theorem raisesOnly_textOf_bind (hP : ∀ exc, ¬ P (.python exc)) {f : String → Except LoadError β}
    {Q : Prop} (hf : ∀ s, RaisesOnly P (f s) ↔ Q) :
    RaisesOnly P ((sys.textOf data key default).mapError .python >>= f) ↔
      sys.Prints data key ∧ Q := by
  rw [raisesOnly_bind, raisesOnly_mapError, raisesOnly_iff_exists hP, exists_textOf_iff]
  constructor
  · rintro ⟨hprints, h⟩
    obtain ⟨s, hs⟩ := exists_textOf_iff.2 hprints
    exact ⟨hprints, (hf s).1 (h s (mapError_eq_ok.2 hs))⟩
  · rintro ⟨hprints, hQ⟩
    exact ⟨hprints, fun s _ => (hf s).2 hQ⟩

variable [PyText]

theorem recognized_name (cluster : Cluster) : Recognized cluster.name :=
  exists_canonicalCluster_iff.1 ⟨cluster, canonicalCluster_name cluster⟩

theorem raisesOnly_canonicalCluster_bind (hP : ∀ exc, ¬ P (.python exc)) {raw : String}
    {f : Cluster → Except LoadError β} {Q : Prop} (hf : ∀ cluster, RaisesOnly P (f cluster) ↔ Q) :
    RaisesOnly P ((canonicalCluster raw).mapError .ofSettings >>= f) ↔ Recognized raw ∧ Q := by
  rw [← exists_canonicalCluster_iff]
  unfold canonicalCluster
  cases Cluster.aliases.lookup (normalize raw) with
  | none => simp [raisesOnly_bind, raisesOnly_mapError, LoadError.ofSettings, hP]
  | some cluster => simp [raisesOnly_bind, raisesOnly_mapError, pure, Except.pure, hf]

theorem recognized_of_textOf {raw : String}
    (h : ∀ value ∈ data.lookup "name", ∀ s, sys.text value = .ok s → Recognized s)
    (hraw : sys.textOf data "name" "devnet" = .ok raw) : Recognized raw := by
  unfold textOf at hraw
  cases hvalue : data.lookup "name" with
  | none =>
    rw [hvalue] at hraw
    obtain rfl := Except.ok.inj hraw
    exact recognized_name .devnet
  | some value =>
    rw [hvalue] at hraw
    exact h value hvalue raw hraw

/-- The name is printed, and must be known. -/
theorem raisesOnly_name_bind (hP : ∀ exc, ¬ P (.python exc)) {f : Cluster → Except LoadError β}
    {Q : Prop} (hf : ∀ cluster, RaisesOnly P (f cluster) ↔ Q) :
    RaisesOnly P (do
      let clusterNameRaw ← (sys.textOf data "name" "devnet").mapError .python
      let clusterName ← (canonicalCluster clusterNameRaw).mapError .ofSettings
      f clusterName) ↔
      sys.Prints data "name" ∧
        (∀ value ∈ data.lookup "name", ∀ s, sys.text value = .ok s → Recognized s) ∧ Q := by
  rw [raisesOnly_bind, raisesOnly_mapError, raisesOnly_iff_exists hP, exists_textOf_iff]
  simp only [raisesOnly_canonicalCluster_bind hP hf, mapError_eq_ok]
  refine and_congr_right fun hprints => ?_
  obtain ⟨s, hs⟩ := exists_textOf_iff.2 hprints
  constructor
  · intro h
    refine ⟨fun value hvalue s hs => (h s ?_).1, (h s hs).2⟩
    rw [textOf, Option.mem_def.1 hvalue]
    exact hs
  · rintro ⟨h, hQ⟩ raw hraw
    exact ⟨recognized_of_textOf h hraw, hQ⟩

/-- Past the sections, only other exceptions are raised. -/
theorem raisesOnly_configFromDict (hP : ∀ exc, ¬ P (.python exc)) (htables : TablesOnly data) :
    RaisesOnly P (sys.configFromDict data) ↔ sys.Printable data := by
  obtain ⟨clusterData, hcluster⟩ := htables "cluster" (by simp)
  obtain ⟨keypairData, hkeypair⟩ := htables "keypair" (by simp)
  obtain ⟨auditorData, hauditor⟩ := htables "auditor" (by simp)
  obtain ⟨uiData, hui⟩ := htables "ui" (by simp)
  have hsections : RaisesOnly P (sys.configFromDict data) ↔
      sys.Prints clusterData "name" ∧
      (∀ value ∈ clusterData.lookup "name", ∀ s, sys.text value = .ok s → Recognized s) ∧
      sys.Prints clusterData "rpc_url" ∧ sys.Prints clusterData "ws_url" ∧
      sys.Prints clusterData "commitment" ∧ sys.Prints keypairData "path" ∧
      sys.Prints keypairData "elgamal_seed_path" ∧ sys.Prints auditorData "public_key" ∧
      sys.Prints auditorData "secret_key_path" ∧ sys.Prints uiData "color" ∧
      sys.Prints uiData "timestamp_format" ∧ True := by
    unfold configFromDict
    rw [hcluster, hkeypair, hauditor, hui]
    refine raisesOnly_name_bind hP fun name => ?_
    refine raisesOnly_textOf_bind hP fun rpcUrl => raisesOnly_textOf_bind hP fun wsUrl => ?_
    refine raisesOnly_textOf_bind hP fun commitment => raisesOnly_textOf_bind hP fun path => ?_
    refine raisesOnly_textOf_bind hP fun seedPath => raisesOnly_textOf_bind hP fun publicKey => ?_
    refine raisesOnly_textOf_bind hP fun secretPath => raisesOnly_textOf_bind hP fun color => ?_
    refine raisesOnly_textOf_bind hP fun timestampFormat => ?_
    exact iff_of_true raisesOnly_pure trivial
  rw [hsections]
  constructor
  · rintro ⟨hname, hknown, hprints⟩
    refine ⟨?_, ?_⟩
    · simp [textKeys, hcluster, hkeypair, hauditor, hui, hname, hprints]
    · simpa [hcluster] using hknown
  · rintro ⟨hprints, hknown⟩
    simp only [textKeys, List.forall_mem_cons, hcluster, hkeypair, hauditor, hui,
      Except.ok.injEq, forall_eq'] at hprints
    refine ⟨hprints.1, hknown _ hcluster, ?_⟩
    simpa using hprints.2

theorem tablesOnly_of_configFromDict {cfg : Config} (h : sys.configFromDict data = .ok cfg) :
    TablesOnly data := by
  simp only [configFromDict, except_bind_eq_ok, mapError_eq_ok] at h
  obtain ⟨clusterData, hcluster, keypairData, hkeypair, auditorData, hauditor, uiData, hui, -⟩ := h
  intro name hname
  simp only [List.mem_cons, List.not_mem_nil, or_false] at hname
  rcases hname with rfl | rfl | rfl | rfl
  · exact ⟨_, hcluster⟩
  · exact ⟨_, hkeypair⟩
  · exact ⟨_, hauditor⟩
  · exact ⟨_, hui⟩

theorem exists_configFromDict_iff :
    (∃ cfg, sys.configFromDict data = .ok cfg) ↔ TablesOnly data ∧ sys.Printable data := by
  have hreturns : TablesOnly data →
      (RaisesOnly (fun _ => False) (sys.configFromDict data) ↔ sys.Printable data) :=
    raisesOnly_configFromDict fun _ => id
  rw [raisesOnly_iff_exists fun _ => id] at hreturns
  constructor
  · rintro ⟨cfg, hcfg⟩
    have htables := tablesOnly_of_configFromDict hcfg
    exact ⟨htables, (hreturns htables).1 ⟨cfg, hcfg⟩⟩
  · rintro ⟨htables, hprintable⟩
    exact (hreturns htables).2 hprintable

theorem raisesOnly_sections (h : ¬ TablesOnly data) :
    RaisesOnly LoadError.IsConfigError (sys.configFromDict data) := by
  have hsection : ∀ name, RaisesOnly LoadError.IsConfigError
      ((section? data name).mapError .ofSettings) := by
    intro name
    simp only [raisesOnly_mapError, SettingsError.isConfigError_ofSettings]
    exact raisesOnly_section?
  unfold configFromDict
  refine raisesOnly_bind.2 ⟨hsection _, fun clusterData hcluster => ?_⟩
  refine raisesOnly_bind.2 ⟨hsection _, fun keypairData hkeypair => ?_⟩
  refine raisesOnly_bind.2 ⟨hsection _, fun auditorData hauditor => ?_⟩
  refine raisesOnly_bind.2 ⟨hsection _, fun uiData hui => ?_⟩
  refine absurd ?_ h
  simp only [mapError_eq_ok] at hcluster hkeypair hauditor hui
  simp [TablesOnly, hcluster, hkeypair, hauditor, hui]

theorem raisesOnly_configFromDict_iff :
    RaisesOnly LoadError.IsConfigError (sys.configFromDict data) ↔
      (TablesOnly data → sys.Printable data) := by
  by_cases htables : TablesOnly data
  · rw [raisesOnly_configFromDict (fun _ => id) htables]
    simp [htables]
  · exact iff_of_true (raisesOnly_sections htables) fun h => absurd h htables

section LoadConfig

variable {path : Option String} {env : Environment} {source : String}

theorem raisesOnly_mergeEnv_bind {x : Except LoadError Config} :
    RaisesOnly LoadError.IsConfigError (x >>= fun cfg => (cfg.mergeEnv env).mapError .ofSettings) ↔
      RaisesOnly LoadError.IsConfigError x ∧
        ((∃ cfg, x = .ok cfg) → ∀ val ∈ env "GHOS_CLUSTER_NAME", Recognized val) := by
  have hmerge : ∀ cfg : Config, RaisesOnly LoadError.IsConfigError
      ((cfg.mergeEnv env).mapError .ofSettings) ↔
        ∀ val ∈ env "GHOS_CLUSTER_NAME", Recognized val := by
    intro cfg
    simp only [raisesOnly_mapError, SettingsError.isConfigError_ofSettings]
    exact cfg.raisesOnly_mergeEnv
  rw [raisesOnly_bind]
  simp only [hmerge, forall_exists_index]

omit [PyText] in
theorem raisesOnly_readConfig :
    RaisesOnly LoadError.IsConfigError (sys.readConfig source) ↔
      ∀ exc, sys.parse source = .error exc → exc.caught := by
  unfold readConfig
  cases sys.parse source with
  | ok parsed => simp
  | error exc =>
    dsimp only
    split_ifs with hcaught
    · simp [hcaught, LoadError.IsConfigError]
    · simp [hcaught, LoadError.IsConfigError]

omit [PyText] in
theorem readConfig_eq_ok : sys.readConfig source = .ok data ↔ sys.parse source = .ok data := by
  unfold readConfig
  cases sys.parse source with
  | ok parsed => exact except_pure_eq_ok.trans (Except.ok.injEq ..).to_iff.symm
  | error exc =>
    dsimp only
    split_ifs <;> simp

theorem raisesOnly_fileConfig :
    RaisesOnly LoadError.IsConfigError (sys.fileConfig source) ↔
      ∃ isFile, sys.isFile source = .ok isFile ∧ (isFile = true →
        (∀ exc, sys.parse source = .error exc → exc.caught) ∧
          ∀ data, sys.parse source = .ok data → TablesOnly data → sys.Printable data) := by
  unfold fileConfig
  cases sys.isFile source with
  | error exc => simp [raisesOnly_bind, raisesOnly_mapError, LoadError.IsConfigError]
  | ok isFile =>
    cases isFile with
    | false => simp [raisesOnly_bind, raisesOnly_mapError]
    | true =>
      simp [raisesOnly_bind, raisesOnly_mapError, raisesOnly_readConfig, readConfig_eq_ok,
        raisesOnly_configFromDict_iff]

theorem exists_fileConfig_iff :
    (∃ cfg, sys.fileConfig source = .ok cfg) ↔
      ∃ isFile, sys.isFile source = .ok isFile ∧ (isFile = true →
        ∃ data, sys.parse source = .ok data ∧ TablesOnly data ∧ sys.Printable data) := by
  unfold fileConfig
  cases sys.isFile source with
  | error exc => simp [except_bind_eq_ok]
  | ok isFile =>
    cases isFile with
    | false => simp [except_bind_eq_ok, pure, Except.pure]
    | true =>
      simp only [except_bind_eq_ok, mapError_eq_ok, Except.ok.injEq, exists_eq_left', if_true,
        readConfig_eq_ok, true_imp_iff, ← exists_configFromDict_iff]
      constructor
      · rintro ⟨cfg, data, hdata, hcfg⟩
        exact ⟨data, hdata, cfg, hcfg⟩
      · rintro ⟨data, hdata, cfg, hcfg⟩
        exact ⟨cfg, data, hdata, hcfg⟩

/-- The loader raises nothing but a `ConfigError` exactly on the inputs that are loadable. -/
theorem raisesOnly_loadConfig :
    RaisesOnly LoadError.IsConfigError (sys.loadConfig path env) ↔ sys.Loadable path env := by
  unfold loadConfig
  cases hsource : sys.sourceOf path env with
  | error exc =>
    refine iff_of_false (fun h => raisesOnly_error.1 h) ?_
    rintro ⟨⟨source, isFile, hfound, -⟩, -⟩
    rw [hsource] at hfound
    cases hfound
  | ok source =>
    have hparses : ∀ result, sys.Parses path env result ↔
        sys.isFile source = .ok true ∧ sys.parse source = result := by
      simp [Parses, hsource]
    refine raisesOnly_mergeEnv_bind.trans ?_
    rw [raisesOnly_fileConfig, exists_fileConfig_iff]
    constructor
    · rintro ⟨⟨isFile, hfile, hread⟩, hmerge⟩
      refine ⟨⟨source, isFile, hsource, hfile⟩, ?_, ?_, fun htables => hmerge ⟨isFile, hfile, ?_⟩⟩
      · intro exc hexc
        obtain ⟨htrue, hparse⟩ := (hparses _).1 hexc
        exact (hread (Except.ok.inj (hfile.symm.trans htrue))).1 exc hparse
      · intro data hdata
        obtain ⟨htrue, hparse⟩ := (hparses _).1 hdata
        exact (hread (Except.ok.inj (hfile.symm.trans htrue))).2 data hparse
      · rintro rfl
        obtain ⟨data, hparse, htables⟩ := htables _ ((hparses _).2 ⟨hfile, rfl⟩)
        exact ⟨data, hparse, htables, (hread rfl).2 data hparse htables⟩
    · intro h
      obtain ⟨source', isFile, hfound, hfile⟩ := h.found
      obtain rfl := Except.ok.inj (hsource.symm.trans hfound)
      refine ⟨⟨isFile, hfile, ?_⟩, ?_⟩
      · rintro rfl
        exact ⟨fun exc hparse => h.caught exc ((hparses _).2 ⟨hfile, hparse⟩),
          fun data hparse => h.printable data ((hparses _).2 ⟨hfile, hparse⟩)⟩
      · rintro ⟨isFile', hfile', hread⟩
        refine h.environment fun result hresult => ?_
        obtain ⟨htrue, rfl⟩ := (hparses _).1 hresult
        obtain ⟨data, hparse, htables, -⟩ := hread (Except.ok.inj (hfile'.symm.trans htrue))
        exact ⟨data, hparse, htables⟩

end LoadConfig

end Raised

end PySystem

/-! ### Loading and setting -/

/-- A configuration with a canonical cluster, or a `ConfigError`. -/
def LoadsOrConfigError (result : Except LoadError Config) : Prop :=
  (∃ cfg, result = .ok cfg ∧ cfg.cluster.name.name ∈ Cluster.aliases.map fun p => p.2.name) ∨
    ∃ message, result = .error (.configError message)

theorem loadsOrConfigError_iff {result : Except LoadError Config} :
    LoadsOrConfigError result ↔ RaisesOnly LoadError.IsConfigError result := by
  have hcanonical : ∀ c : Cluster, c.name ∈ Cluster.aliases.map fun p => p.2.name := by
    intro c
    cases c <;> decide
  unfold LoadsOrConfigError
  cases result with
  | ok cfg => simp [hcanonical]
  | error e => cases e <;> simp [LoadError.IsConfigError]

/-- A name of a cluster that is not known ends in a `ValueError`, in the file, in the environment
and as a value; and so does a value that cannot be printed. -/
theorem loadConfig_configError_iff [PyText] {File : Type} (sys : PySystem File) :
    (∀ path env, LoadsOrConfigError (sys.loadConfig path env) ↔ sys.Loadable path env) ∧
    ∀ cfg key value, LoadsOrConfigError ((setValue cfg key value).mapError .ofSettings) ↔
      (splitKey key = .ok ("cluster", "name") → Recognized value) := by
  refine ⟨fun path env => ?_, fun cfg key value => ?_⟩
  · rw [loadsOrConfigError_iff, PySystem.raisesOnly_loadConfig]
  · rw [loadsOrConfigError_iff, raisesOnly_mapError]
    simp only [SettingsError.isConfigError_ofSettings]
    exact raisesOnly_setValue

/-- A system with at most one file. -/
def Sample.systemWith (file : Option TomlTable) : PySystem TomlTable where
  home := .ok "/home/user"
  expanduser path := .ok path
  isFile _ := .ok file.isSome
  readBytes source :=
    match file with
    | some content => .ok content
    | none => .error (.osError s!"no such file: {source}")
  loads content := .ok content
  str value := .ok (PyText.str value)

/-- The unknown name in each of the three places. -/
theorem not_loadConfig_configError :
    (Sample.systemWith (some [("cluster", .table [("name", .string "foo")])])).loadConfig none
        (fun _ => none) = .error (.python (.valueError "unknown cluster: 'foo'")) ∧
      (Sample.systemWith none).loadConfig none
        (fun name => if name = "GHOS_CLUSTER_NAME" then some "foo" else none) =
          .error (.python (.valueError "unknown cluster: 'foo'")) ∧
      setValue {} "cluster.name" "foo" = .error (.valueError "unknown cluster: 'foo'") ∧
      ¬ LoadsOrConfigError (.error (.python (.valueError "unknown cluster: 'foo'"))) := by
  refine ⟨by decide +kernel, by decide +kernel, by decide +kernel, ?_⟩
  rw [loadsOrConfigError_iff, raisesOnly_error]
  exact id

end Ghos.Cli
