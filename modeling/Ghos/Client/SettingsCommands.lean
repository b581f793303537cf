import Ghos.Client.Settings

/-!
# The commands that write the configuration

`ghos config set` (`cli/ghos_cli/commands/config_cmd.py`) loads the configuration with the overrides
of the environment, sets one value, and saves all of it.  `ghos init` (`commands/init.py`) sets the
cluster section, and the path of the keypair even if it is not asked to.

* `configSet_frame_iff`: a single setting is changed if the environment overrides no other one;
* `initCommand_frame_iff`: the other sections are preserved if the path is the default one.
-/

namespace Ghos.Cli

section Commands

variable [PyText] {File : Type} [TomlFile File]

/-! ### `ghos config set` -/

/-- Set a single configuration key and save. -/
def configSet (source : String) (env : Environment) (file : Option File) (key value : String) :
    Except SettingsError File := do
  let cfg ← loadConfig source env file
  let newCfg ← setValue cfg key value
  return saveConfig newCfg

section ConfigSet

variable {source key value : String} {env : Environment} {file : Option File}
  {cfg merged cfg' : Config}

/-- Two configurations become one if they differ only in what the key replaces. -/
theorem setValue_eq_iff {s : Setting} (htarget : targetSetting key = some s)
    (hset : setValue cfg key value = .ok cfg') :
    setValue merged key value = .ok cfg' ↔ ∀ t ∉ s.written, merged.get t = cfg.get t := by
  obtain ⟨s', hs', hspec⟩ := setValue_spec hset
  obtain rfl := Option.some.inj (htarget.symm.trans hs')
  obtain ⟨new, hnew, hreplaces⟩ := hspec merged
  obtain ⟨cfg'', hcfg'', hself⟩ := hspec cfg
  obtain rfl := Except.ok.inj (hset.symm.trans hcfg'')
  rw [hnew, Except.ok.injEq]
  constructor
  · rintro rfl t ht
    rw [← hself t |>.trans (if_neg ht), hreplaces t, if_neg ht]
  · intro h
    refine Config.ext_get fun t => ?_
    rw [hreplaces t]
    split_ifs with ht
    · rfl
    · rw [h t ht, hself t, if_neg ht]

/-- The command changes one setting of the file exactly if the environment cannot be read, or keeps
every setting that the key does not replace. -/
theorem configSet_frame_iff (hload : loadConfig source (fun _ => none) file = .ok cfg)
    (hset : setValue cfg key value = .ok cfg') :
    (∀ written, configSet source env file key value = .ok written →
        loadConfig source (fun _ => none) (some written) = .ok cfg') ↔
      (Readable env → ∀ s, targetSetting key = some s → ∀ t ∉ s.written, Keeps env cfg t) := by
  obtain ⟨s, htarget, hspec⟩ := setValue_spec hset
  have hsaved : ∀ written, configSet source env file key value = .ok written ↔
      ∃ merged, cfg.mergeEnv env = .ok merged ∧ ∃ new, setValue merged key value = .ok new ∧
        saveConfig new = written := by
    intro written
    simp only [configSet, loadConfig_eq_mergeEnv hload, except_bind_eq_ok, except_pure_eq_ok]
  simp only [hsaved, htarget, Option.some.injEq, forall_eq']
  constructor
  · intro h hreadable t ht
    obtain ⟨merged, hmerged⟩ := Config.exists_mergeEnv_iff.2 hreadable
    obtain ⟨new, hnew, -⟩ := hspec merged
    have hloaded := h _ ⟨merged, hmerged, new, hnew, rfl⟩
    rw [loadConfig_saved, Except.ok.injEq] at hloaded
    subst hloaded
    exact (Config.mergeEnv_get hmerged t).1 ((setValue_eq_iff htarget hset).1 hnew t ht)
  · rintro h _ ⟨merged, hmerged, new, hnew, rfl⟩
    have hkeeps := h (Config.exists_mergeEnv_iff.1 ⟨merged, hmerged⟩)
    have hsame : setValue merged key value = .ok cfg' :=
      (setValue_eq_iff htarget hset).2 fun t ht => (Config.mergeEnv_get hmerged t).2 (hkeeps t ht)
    rw [loadConfig_saved, ← hnew, hsame]

end ConfigSet

/-! ### `ghos init` -/

/-- The options of `init_command`. -/
structure InitOptions where
  cluster : String := "devnet"
  rpcUrl : String := ""
  wsUrl : String := ""
  keypairPath : String := "~/.config/solana/id.json"
  commitment : String := "confirmed"
  force : Bool := false

/-- `typer.BadParameter(str(exc))`. -/
def toBadParameter : SettingsError → SettingsError
  | .valueError message => .badParameter message
  | e => e

/-- Initialize the configuration file. -/
def initCommand (source : String) (env : Environment) (file : Option File)
    (options : InitOptions) : Except SettingsError File := do
  let canonical ← (canonicalCluster options.cluster).mapError toBadParameter
  let cfg : Config ←
    if file.isSome ∧ ¬ options.force then loadConfig source env file else pure {}
  let cfg ← setValue cfg "cluster.name" canonical.name
  let cfg ← setValue cfg "cluster.rpc_url"
    (if options.rpcUrl ≠ "" then options.rpcUrl else canonical.defaultRpc)
  let cfg ← setValue cfg "cluster.ws_url"
    (if options.wsUrl ≠ "" then options.wsUrl else canonical.defaultWs)
  let cfg ← setValue cfg "cluster.commitment" options.commitment
  let cfg ← setValue cfg "keypair.path" options.keypairPath
  return saveConfig cfg

section Init

variable {source value : String} {cfg : Config} {content : File}

omit [TomlFile File] in
theorem splitKey_eq {dottedKey sectionName key : String}
    (hspan : dottedKey.toList.span (· ≠ '.') = (sectionName.toList, '.' :: key.toList))
    (hsection : IsWord sectionName) (hkey : IsWord key) (hne : sectionName ≠ "" ∧ key ≠ "") :
    splitKey dottedKey = .ok (sectionName, key) := by
  simp only [splitKey, hspan, List.tail_cons, String.ofList_toList, normalize_eq_self hsection,
    normalize_eq_self hkey]
  exact throwUnless_bind_eq_ok.2 ⟨List.cons_ne_nil _ _, throwUnless_bind_eq_ok.2 ⟨hne, rfl⟩⟩

omit [TomlFile File] in
theorem setValue_cluster_name (canonical : Cluster) :
    setValue cfg "cluster.name" canonical.name =
      .ok { cfg with cluster := { cfg.cluster with
        name := canonical, rpcUrl := canonical.defaultRpc, wsUrl := canonical.defaultWs } } := by
  have hsplit : splitKey "cluster.name" = .ok ("cluster", "name") :=
    splitKey_eq (by decide +kernel) (by decide +kernel) (by decide +kernel) (by decide)
  simp [setValue, hsplit, setClusterValue, canonicalCluster_name, bind, Except.bind, pure,
    Except.pure]

omit [TomlFile File] in
theorem setValue_cluster_rpc_url :
    setValue cfg "cluster.rpc_url" value =
      .ok { cfg with cluster := { cfg.cluster with rpcUrl := value } } := by
  have hsplit : splitKey "cluster.rpc_url" = .ok ("cluster", "rpc_url") :=
    splitKey_eq (by decide +kernel) (by decide +kernel) (by decide +kernel) (by decide)
  simp [setValue, hsplit, setClusterValue, bind, Except.bind, pure, Except.pure]

omit [TomlFile File] in
theorem setValue_cluster_ws_url :
    setValue cfg "cluster.ws_url" value =
      .ok { cfg with cluster := { cfg.cluster with wsUrl := value } } := by
  have hsplit : splitKey "cluster.ws_url" = .ok ("cluster", "ws_url") :=
    splitKey_eq (by decide +kernel) (by decide +kernel) (by decide +kernel) (by decide)
  simp [setValue, hsplit, setClusterValue, bind, Except.bind, pure, Except.pure]

omit [TomlFile File] in
theorem setValue_cluster_commitment {cfg' : Config} :
    setValue cfg "cluster.commitment" value = .ok cfg' ↔
      value ∈ ["processed", "confirmed", "finalized"] ∧
        { cfg with cluster := { cfg.cluster with commitment := value } } = cfg' := by
  have hsplit : splitKey "cluster.commitment" = .ok ("cluster", "commitment") :=
    splitKey_eq (by decide +kernel) (by decide +kernel) (by decide +kernel) (by decide)
  have hset : setClusterValue cfg.cluster "commitment" value = (do
      throwUnless (value ∈ ["processed", "confirmed", "finalized"]) (.configError
        s!"commitment must be processed|confirmed|finalized, got {PyText.repr value}")
      return { cfg.cluster with commitment := value }) := by
    rw [setClusterValue, if_neg (by decide), if_neg (by decide), if_neg (by decide), if_pos rfl]
  simp only [setValue, hsplit, hset, except_bind_eq_ok, throwUnless_eq_ok, except_pure_eq_ok,
    Except.ok.injEq, exists_eq_left', if_true]
  constructor
  · rintro ⟨_, ⟨_, hvalue, rfl⟩, rfl⟩
    exact ⟨hvalue, rfl⟩
  · rintro ⟨hvalue, rfl⟩
    exact ⟨_, ⟨(), hvalue, rfl⟩, rfl⟩

omit [TomlFile File] in
theorem setValue_keypair_path :
    setValue cfg "keypair.path" value =
      .ok { cfg with keypair := { cfg.keypair with path := value } } := by
  have hsplit : splitKey "keypair.path" = .ok ("keypair", "path") :=
    splitKey_eq (by decide +kernel) (by decide +kernel) (by decide +kernel) (by decide)
  simp [setValue, hsplit, setKeypairValue, bind, Except.bind, pure, Except.pure]

/-- The configuration that the command writes over an existing one. -/
def initialized (cfg : Config) (canonical : Cluster) (options : InitOptions) : Config :=
  { cfg with
    cluster := {
      name := canonical
      rpcUrl := if options.rpcUrl ≠ "" then options.rpcUrl else canonical.defaultRpc
      wsUrl := if options.wsUrl ≠ "" then options.wsUrl else canonical.defaultWs
      commitment := options.commitment }
    keypair := { cfg.keypair with path := options.keypairPath } }

/-- The command writes over a file that loads, unless the cluster or the commitment is refused. -/
theorem initCommand_eq_ok {options : InitOptions} {written : File}
    (hload : loadConfig source (fun _ => none) (some content) = .ok cfg)
    (hforce : options.force = false) :
    initCommand source (fun _ => none) (some content) options = .ok written ↔
      ∃ canonical, canonicalCluster options.cluster = .ok canonical ∧
        options.commitment ∈ ["processed", "confirmed", "finalized"] ∧
        saveConfig (initialized cfg canonical options) = written := by
  have hmap : ∀ {canonical}, (canonicalCluster options.cluster).mapError toBadParameter =
      .ok canonical ↔ canonicalCluster options.cluster = .ok canonical := by
    intro canonical
    cases canonicalCluster options.cluster <;> simp [Except.mapError]
  simp only [initCommand, except_bind_eq_ok, hmap, hforce, hload, Option.isSome_some, true_and,
    Bool.false_eq_true, not_false_eq_true, if_true, setValue_cluster_name,
    setValue_cluster_rpc_url, setValue_cluster_ws_url, setValue_cluster_commitment,
    setValue_keypair_path, except_pure_eq_ok, Except.ok.injEq, exists_eq_left', and_assoc,
    exists_and_left]
  rfl

/-- The command preserves the sections besides the cluster's exactly if it is refused, or the file
has the default path of the keypair. -/
theorem initCommand_frame_iff
    (hload : loadConfig source (fun _ => none) (some content) = .ok cfg)
    (cluster rpcUrl wsUrl commitment : String) :
    (∀ (written : File) (cfg' : Config),
        initCommand source (fun _ => none) (some content)
          { cluster, rpcUrl, wsUrl, commitment } = .ok written →
        loadConfig source (fun _ => none) (some written) = .ok cfg' →
        cfg'.keypair = cfg.keypair ∧ cfg'.auditor = cfg.auditor ∧ cfg'.ui = cfg.ui) ↔
      (∀ canonical, canonicalCluster cluster ≠ .ok canonical) ∨
        commitment ∉ ["processed", "confirmed", "finalized"] ∨
        cfg.keypair.path = "~/.config/solana/id.json" := by
  constructor
  · intro h
    by_contra hnot
    push Not at hnot
    obtain ⟨⟨canonical, hcanonical⟩, hcommitment, hpath⟩ := hnot
    obtain ⟨hkeypair, -, -⟩ := h _ _
      ((initCommand_eq_ok hload rfl).2 ⟨canonical, hcanonical, hcommitment, rfl⟩)
      (loadConfig_saved source _)
    exact hpath (congrArg KeypairConfig.path hkeypair).symm
  · intro h written cfg' hinit hwritten
    obtain ⟨canonical, hcanonical, hcommitment, rfl⟩ := (initCommand_eq_ok hload rfl).1 hinit
    obtain rfl := Except.ok.inj ((loadConfig_saved source _).symm.trans hwritten)
    rcases h with h | h | hpath
    · exact absurd hcanonical (h canonical)
    · exact absurd hcommitment h
    · refine ⟨?_, rfl, rfl⟩
      rw [initialized, ← hpath]

end Init

end Commands

/-! ### A concrete file -/

namespace Sample

/-- Text in ASCII. -/
instance : PyText where
  lower s := .ofList (s.toList.map Char.toLower)
  lower_ascii _ _ := rfl
  repr s := "'" ++ s ++ "'"
  str
    | .string s => s
    | .integer n => toString n
    | .boolean b => if b then "True" else "False"
    | .float text _ => text
    | .datetime _ text => text
    | .array _ => "[...]"
    | .table _ => "\x7b...\x7d"

/-- Files that hold their documents. -/
instance : TomlFile TomlTable where
  loads document := .ok document
  dumps document := document
  loads_dumps _ := rfl

/-- A shell that targets another cluster. -/
def mainnetShell : Environment := fun name =>
  if name = "GHOS_CLUSTER_NAME" then some "mainnet" else none

/-- A file with a keypair of its own. -/
def customKeypair : TomlTable := [("keypair", .table [("path", .string "~/keys/main.json")])]

end Sample

theorem configSet_frame_iff_sample :
    (∀ written : TomlTable,
        configSet "config.toml" Sample.mainnetShell (some []) "ui.compact" "true" = .ok written →
        loadConfig "config.toml" (fun _ => none) (some written) =
          .ok { ui := { compact := true } }) ↔
      (Readable Sample.mainnetShell → ∀ s, targetSetting "ui.compact" = some s →
        ∀ t ∉ s.written, Keeps Sample.mainnetShell {} t) :=
  configSet_frame_iff (by decide +kernel) (by decide +kernel)

/-- The cluster of the shell ends up in the file. -/
theorem not_configSet_frame :
    loadConfig "config.toml" (fun _ => none) (some ([] : TomlTable)) = .ok {} ∧
      setValue {} "ui.compact" "true" = .ok { ui := { compact := true } } ∧
      ∃ written : TomlTable,
        configSet "config.toml" Sample.mainnetShell (some []) "ui.compact" "true" = .ok written ∧
        loadConfig "config.toml" (fun _ => none) (some written) ≠
          .ok { ui := { compact := true } } := by
  refine ⟨by decide +kernel, by decide +kernel, ?_⟩
  have hloaded : (do
      let written : TomlTable ←
        configSet "config.toml" Sample.mainnetShell (some []) "ui.compact" "true"
      loadConfig "config.toml" (fun _ => none) (some written)) = .ok
        { cluster :=
            { name := .mainnetBeta
              rpcUrl := "https://api.mainnet-beta.solana.com"
              wsUrl := "wss://api.mainnet-beta.solana.com" }
          ui := { compact := true } } := by decide +kernel
  obtain ⟨written, hwritten, hload⟩ := except_bind_eq_ok.1 hloaded
  refine ⟨written, hwritten, ?_⟩
  rw [hload]
  decide

theorem initCommand_frame_iff_sample :
    (∀ (written : TomlTable) (cfg' : Config),
        initCommand "config.toml" (fun _ => none) (some Sample.customKeypair)
          { cluster := "devnet", rpcUrl := "", wsUrl := "", commitment := "confirmed" } =
            .ok written →
        loadConfig "config.toml" (fun _ => none) (some written) = .ok cfg' →
        cfg'.keypair = { path := "~/keys/main.json" } ∧ cfg'.auditor = {} ∧ cfg'.ui = {}) ↔
      (∀ canonical, canonicalCluster "devnet" ≠ .ok canonical) ∨
        "confirmed" ∉ ["processed", "confirmed", "finalized"] ∨
        "~/keys/main.json" = "~/.config/solana/id.json" := by
  have hload : loadConfig "config.toml" (fun _ => none) (some Sample.customKeypair) =
      .ok { keypair := { path := "~/keys/main.json" } } := by decide +kernel
  exact initCommand_frame_iff hload "devnet" "" "" "confirmed"

/-- The path of the keypair is lost. -/
theorem not_initCommand_frame :
    loadConfig "config.toml" (fun _ => none) (some Sample.customKeypair) =
        .ok { keypair := { path := "~/keys/main.json" } } ∧
      ∃ written : TomlTable, initCommand "config.toml" (fun _ => none)
          (some Sample.customKeypair) {} = .ok written ∧
        loadConfig "config.toml" (fun _ => none) (some written) = .ok {} := by
  refine ⟨by decide +kernel, ?_⟩
  have hloaded : (do
      let written : TomlTable ←
        initCommand "config.toml" (fun _ => none) (some Sample.customKeypair) {}
      loadConfig "config.toml" (fun _ => none) (some written)) = .ok {} := by decide +kernel
  obtain ⟨written, hwritten, hload⟩ := except_bind_eq_ok.1 hloaded
  exact ⟨written, hwritten, hload⟩

end Ghos.Cli
