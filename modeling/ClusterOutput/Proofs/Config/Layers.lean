/-
What the settings are made of. Each source supplies some of them, setting by
setting, as a layer over what was supplied before. However the sources are put
together, a setting comes from the last one that supplies it, whatever they supply
for the others (`settings_layered`). For a run of the program the layers are
the file, the environment and the command line, from the lowest to the highest.
-/
import ClusterOutput.Cli.Program
import ClusterOutput.Proofs.Result

namespace ClusterOutput

/-! ## Settings one by one -/

/-- A setting that sources supply. -/
inductive SettingName where
  | hosts
  | username
  | password
  | skipVerify
  | timeout
  | connectTimeout
  | maxRetries
  | retryBackoff
  | index
  deriving DecidableEq, Repr

namespace SettingName

/-- What a setting may be. -/
abbrev Value : SettingName → Type
  | hosts => List String
  | username | index => String
  | password => Secret
  | skipVerify => Bool
  | timeout | connectTimeout | retryBackoff => Duration
  | maxRetries => Nat

/-- What a setting is that no source supplies. There is no name and no password then. -/
def default? : (k : SettingName) → Option k.Value
  | hosts => some [defaultHost]
  | username | password => none
  | skipVerify => some ConnectionSettings.default.skipVerify
  | timeout => some ConnectionSettings.default.timeout
  | connectTimeout => some ConnectionSettings.default.connectTimeout
  | maxRetries => some ConnectionSettings.default.maxRetries
  | retryBackoff => some ConnectionSettings.default.retryBackoff
  | index => some defaultIndex

/-- A setting as it is kept: hosts in their normal form, and all else as it was supplied. -/
def normal : (k : SettingName) → k.Value → Except ConfigError k.Value
  | hosts => Loader.checkHosts
  | username | password | skipVerify | timeout | connectTimeout | maxRetries | retryBackoff
  | index => .ok

end SettingName

/-- A setting of settings in full. -/
def Settings.value? (s : Settings) : (k : SettingName) → Option k.Value
  | .hosts => some s.connection.hosts
  | .username => s.auth.username
  | .password => s.auth.password
  | .skipVerify => some s.connection.skipVerify
  | .timeout => some s.connection.timeout
  | .connectTimeout => some s.connection.connectTimeout
  | .maxRetries => some s.connection.maxRetries
  | .retryBackoff => some s.connection.retryBackoff
  | .index => some s.index

/-! ## Layers -/

/-- Some of the settings. -/
abbrev Layer : Type := (k : SettingName) → Option k.Value

/-- No setting. -/
def Layer.nothing : Layer := fun _ => none

/-- Of each setting the last value that was supplied. -/
def Layer.last (layers : List Layer) : Layer := fun k => layers.reverse.findSome? (· k)

/-- The settings in a file: members that are `null` are left out. -/
def FileSettings.layer (f : FileSettings) : Layer
  | .hosts => f.hosts
  | .username => f.username
  | .password => f.password
  | .skipVerify => f.skipVerify
  | .timeout => f.timeoutSeconds.map .ofSeconds
  | .connectTimeout => f.connectTimeoutSeconds.map .ofSeconds
  | .maxRetries => f.maxRetries
  | .retryBackoff => f.retryBackoffMillis.map .ofMillis
  | .index => f.index

/-- The settings that variables give: those that are not blank, without white space around them. -/
def Environment.layer (env : Environment) : Layer
  | .hosts => (env.setting? "ES_OUTPUT_HOSTS").map parseHosts
  | .username => env.setting? "ES_OUTPUT_USERNAME"
  | .password => (env.setting? "ES_OUTPUT_PASSWORD").map (⟨·⟩)
  | .skipVerify => (env.setting? "ES_OUTPUT_SKIP_VERIFY").bind Loader.readBool?
  | .timeout => ((env.setting? "ES_OUTPUT_TIMEOUT").bind Loader.readWord?).map .ofSeconds
  | .connectTimeout =>
    ((env.setting? "ES_OUTPUT_CONNECT_TIMEOUT").bind Loader.readWord?).map .ofSeconds
  | .maxRetries => (env.setting? "ES_OUTPUT_MAX_RETRIES").bind Loader.readWord?
  | .retryBackoff =>
    ((env.setting? "ES_OUTPUT_RETRY_BACKOFF_MS").bind Loader.readWord?).map .ofMillis
  | .index => env.setting? "ES_OUTPUT_INDEX"

/-- The settings that a command line gives. A flag cannot say that certificates are checked, and the
index is named behind a command only. -/
def Cli.SharedArguments.layer (a : Cli.SharedArguments) : Layer
  | .hosts => a.hosts
  | .username => a.username
  | .password => a.password
  | .skipVerify => if a.skipVerify then some true else none
  | .timeout => a.timeoutSeconds.map .ofSeconds
  | .connectTimeout => a.connectTimeoutSeconds.map .ofSeconds
  | .maxRetries => a.maxRetries
  | .retryBackoff => a.retryBackoffMillis.map .ofMillis
  | .index => none

namespace Loader

/-- The settings supplied so far. -/
def layer (l : Loader) : Layer
  | .hosts => l.hosts
  | .username => l.username
  | .password => l.password
  | .skipVerify => l.skipVerify
  | .timeout => l.timeout
  | .connectTimeout => l.connectTimeout
  | .maxRetries => l.maxRetries
  | .retryBackoff => l.retryBackoff
  | .index => l.index

/-- What the caller gives for a setting. -/
def give (l : Loader) : (k : SettingName) → k.Value → Loader
  | .hosts => l.withHosts
  | .username => l.withUsername
  | .password => l.withPassword
  | .skipVerify => l.withSkipVerify
  | .timeout => l.withTimeout
  | .connectTimeout => l.withConnectTimeout
  | .maxRetries => l.withMaxRetries
  | .retryBackoff => l.withRetryBackoff
  | .index => l.withIndex

/-- The settings in the file that a loader reads: the one that was named, else the default one. If
there is none, none are. -/
def fileLayer (l : Loader) (s : Surroundings) : Layer :=
  match readFile s (l.configPath.getD s.defaultConfigPath) with
  | .ok f => f.layer
  | .error _ => .nothing

/-! ## Sources -/

/-- Something that is asked of a loader. -/
inductive Source where
  | file (s : Surroundings)
  | environment (env : Environment)
  | path (path : Path)
  | given (k : SettingName) (v : k.Value)

/-- A loader with what a source supplies. -/
def Source.load : Source → Loader → Except ConfigError Loader
  | file s, l => (l.fromFile s).map (·.1)
  | environment env, l => l.fromEnvironment env
  | path p, l => .ok (l.withConfigPath p)
  | given k v, l => .ok (l.give k v)

/-- What a source supplies to a loader, which says what file is read. -/
def Source.layer (l : Loader) : Source → Layer
  | file s => l.fileLayer s
  | environment env => env.layer
  | path _ => .nothing
  | given k v => fun j => if h : k = j then some (h ▸ v) else none

/-- A loader with what sources supply one after another. -/
def loadAll (l : Loader) : List Source → Except ConfigError Loader
  | [] => .ok l
  | source :: sources => do
    let l ← source.load l
    l.loadAll sources

/-- What sources supply one after another, as long as none of them fails. -/
def layers (l : Loader) : List Source → List Layer
  | [] => []
  | source :: sources =>
    source.layer l :: match source.load l with
      | .ok l => l.layers sources
      | .error _ => []

/-! ## One source -/

section

variable {l l' : Loader} {s : Surroundings} {env : Environment}

theorem withFile_layer (l : Loader) (f : FileSettings) (k : SettingName) :
    (l.withFile f).layer k = (f.layer k).or (l.layer k) := by
  cases k <;> rfl

/-- A file that is not there cannot be read. -/
theorem readFile_missing {path : Path} (h : ¬ (s.files path).isThere = true) :
    ∃ fault, readFile s path = .error (.fileRead path fault) := by
  simp only [readFile, Surroundings.readText]
  cases hstate : s.files path with
  | missing | belowFile => exact ⟨_, rfl⟩
  | directory | file content => simp [hstate, FileState.isThere] at h

theorem fromFile_layer {event : Event} (h : l.fromFile s = .ok (l', event)) (k : SettingName) :
    l'.layer k = (l.fileLayer s k).or (l.layer k) := by
  have hat {path : Path} (h : l.withFileAt s path = .ok (l', event)) :
      ∃ f, readFile s path = .ok f ∧ l' = l.withFile f := by
    simp only [withFileAt] at h
    split at h
    next f hread =>
      cases h
      exact ⟨f, hread, rfl⟩
    next => cases h
  simp only [fromFile] at h
  split at h
  next path hpath =>
    split at h
    next =>
      obtain ⟨f, hread, rfl⟩ := hat h
      rw [withFile_layer, fileLayer, hpath, Option.getD_some, hread]
    next => cases h
  next hpath =>
    split at h
    next =>
      obtain ⟨f, hread, rfl⟩ := hat h
      rw [withFile_layer, fileLayer, hpath, Option.getD_none, hread]
    next hmissing =>
      cases h
      obtain ⟨fault, hread⟩ := readFile_missing hmissing
      rw [fileLayer, hpath, Option.getD_none, hread]
      rfl

theorem settingOf?_eq {α : Type} {name message : String} {read : String → Option α}
    {a : Option α} (h : settingOf? env name message read = .ok a) :
    a = (env.setting? name).bind read := by
  simp only [settingOf?] at h
  split at h
  next hnone =>
    cases h
    rw [hnone]
    rfl
  next text hsome =>
    rw [hsome, Option.bind_some]
    split at h
    next hread =>
      cases h
      exact hread.symm
    next => cases h

theorem retriesVariable?_eq {n : Option Nat} (h : retriesVariable? env = .ok n) :
    n = (env.setting? "ES_OUTPUT_MAX_RETRIES").bind readWord? := by
  simp only [retriesVariable?, bind_eq_ok] at h
  obtain ⟨given, hgiven, h⟩ := h
  rw [← settingOf?_eq hgiven]
  cases given with
  | none =>
    cases h
    rfl
  | some m =>
    simp only [] at h
    split at h
    · cases h
    · cases h
      rfl

theorem fromEnvironment_layer (h : l.fromEnvironment env = .ok l') (k : SettingName) :
    l'.layer k = (env.layer k).or (l.layer k) := by
  simp only [fromEnvironment, bind_eq_ok] at h
  obtain ⟨skipVerify, hskip, timeout, htimeout, connectTimeout, hconnect, maxRetries, hretries,
    retryBackoff, hbackoff, h⟩ := h
  obtain rfl := settingOf?_eq hskip
  obtain rfl := settingOf?_eq htimeout
  obtain rfl := settingOf?_eq hconnect
  obtain rfl := retriesVariable?_eq hretries
  obtain rfl := settingOf?_eq hbackoff
  cases h
  cases k <;> rfl

theorem give_layer (l : Loader) (k : SettingName) (v : k.Value) (j : SettingName) :
    (l.give k v).layer j = ((Source.given k v).layer l j).or (l.layer j) := by
  cases k <;> cases j <;> rfl

/-- What a source supplies replaces what was supplied before. -/
theorem Source.load_layer {source : Source} (h : source.load l = .ok l') (k : SettingName) :
    l'.layer k = (source.layer l k).or (l.layer k) := by
  cases source with
  | file s =>
    simp only [load] at h
    cases hfile : l.fromFile s with
    | error e =>
      rw [hfile] at h
      cases h
    | ok made =>
      rw [hfile] at h
      cases h
      exact fromFile_layer hfile k
  | environment env => exact fromEnvironment_layer h k
  | path p =>
    cases h
    cases k <;> rfl
  | given j v =>
    cases h
    exact give_layer l j v k

end

/-! ## Sources one after another -/

section

variable {l l' : Loader} {sources : List Source}

theorem last_cons (layer : Layer) (layers : List Layer) (k : SettingName) :
    Layer.last (layer :: layers) k = (Layer.last layers k).or (layer k) := by
  simp [Layer.last, List.findSome?_append]

theorem loadAll_layer (h : l.loadAll sources = .ok l') (k : SettingName) :
    l'.layer k = (Layer.last (l.layers sources) k).or (l.layer k) := by
  induction sources generalizing l with
  | nil =>
    cases h
    rfl
  | cons source sources ih =>
    simp only [loadAll, bind_eq_ok] at h
    obtain ⟨l₁, hload, h⟩ := h
    simp only [layers, hload]
    rw [ih h, last_cons, source.load_layer hload, Option.or_assoc]

/-! ## The settings in full -/

/-- No source supplied anything yet. -/
theorem empty_layer (k : SettingName) : empty.layer k = none := by
  cases k <;> rfl

/-- The default host is in its normal form. -/
theorem checkHosts_default : checkHosts [defaultHost] = .ok [defaultHost] := by
  have h : (checkHosts [defaultHost]).toOption = some [defaultHost] := by decide +kernel
  exact ok_of_toOption h

/-- Only hosts have a normal form. -/
theorem mapM_normal {k : SettingName} (h : k ≠ .hosts) (v : Option k.Value) :
    v.mapM k.normal = .ok v := by
  cases k with
  | hosts => exact absurd rfl h
  | _ => cases v <;> rfl

theorem finalHosts_normal {hosts : List String} (h : l.finalHosts = .ok hosts) :
    ((l.layer .hosts).or SettingName.hosts.default?).mapM SettingName.hosts.normal =
      .ok (some hosts) := by
  have hone {given : List String} (h : checkHosts given = .ok hosts) :
      (some given).mapM (SettingName.normal .hosts) = .ok (some hosts) := by
    show (some <$> checkHosts given) = .ok (some hosts)
    rw [h]
    rfl
  simp only [finalHosts] at h
  simp only [layer, SettingName.default?]
  split at h
  next given hgiven =>
    rw [hgiven]
    exact hone h
  next hnone =>
    cases h
    rw [hnone]
    exact hone checkHosts_default

/-- Each setting is what was supplied for it, in its normal form, or its default. -/
theorem build_value {settings : Settings} {events : List Event}
    (h : l.build = .ok (settings, events)) (k : SettingName) :
    ((l.layer k).or k.default?).mapM k.normal = .ok (settings.value? k) := by
  simp only [build, bind_eq_ok] at h
  obtain ⟨hosts, hhosts, h⟩ := h
  split at h
  · cases h
  simp only [bind_eq_ok] at h
  obtain ⟨_, -, h⟩ := h
  cases h
  by_cases hk : k = .hosts
  · subst hk
    exact finalHosts_normal hhosts
  · rw [mapM_normal hk]
    cases k <;> simp [layer, SettingName.default?, Settings.value?, connection] at hk ⊢

end

end Loader

/-! ## A run of the program -/

namespace Cli

theorem SharedArguments.apply_layer (a : SharedArguments) (l : Loader) (k : SettingName) :
    (a.apply l).layer k = (a.layer k).or (l.layer k) := by
  cases k with
  | skipVerify =>
    simp only [Loader.layer, apply, layer]
    split <;> rfl
  | _ => rfl

/-- The loader that a run starts with: the command line may name the file. -/
def SharedArguments.loader (a : SharedArguments) : Loader :=
  { Loader.empty with configPath := a.namedFile? }

/-- Settings are made of the file first, then of the environment and of the command line. -/
theorem settings_ok {s : Surroundings} {a : SharedArguments} {settings : Settings}
    {events : List Event} (h : Cli.settings s a = (.ok settings, events)) :
    ∃ fromFile event fromEnvironment warnings, a.loader.fromFile s = .ok (fromFile, event) ∧
      fromFile.fromEnvironment s.environment = .ok fromEnvironment ∧
      (a.apply fromEnvironment).build = .ok (settings, warnings) := by
  unfold Cli.settings at h
  split at h
  · cases h
  next fromFile event hfile =>
    split at h
    · cases h
    next fromEnvironment henvironment =>
      split at h
      · cases h
      next settings warnings hbuild =>
        cases h
        exact ⟨fromFile, event, fromEnvironment, warnings, hfile, henvironment, hbuild⟩

/-- The layers of a run, from the lowest to the highest. -/
theorem settings_layers {s : Surroundings} {a : SharedArguments} {settings : Settings}
    {events : List Event} (h : Cli.settings s a = (.ok settings, events)) (k : SettingName) :
    (((a.layer k).or ((s.environment.layer k).or (a.loader.fileLayer s k))).or k.default?).mapM
      k.normal = .ok (settings.value? k) := by
  obtain ⟨fromFile, event, fromEnvironment, warnings, hfile, henvironment, hbuild⟩ := settings_ok h
  have hvalue := Loader.build_value hbuild k
  rw [SharedArguments.apply_layer, Loader.fromEnvironment_layer henvironment,
    Loader.fromFile_layer hfile] at hvalue
  have hstart : a.loader.layer k = none := by
    cases k <;> rfl
  rw [hstart, Option.or_none] at hvalue
  exact hvalue

end Cli

/-- **Layers merge setting by setting.** Sources supply settings to a new loader, in any order and
any number, and settings in full are made of it. Then each setting is the last value that was
supplied for it, in its normal form, or its default if there was none. For a run of the program that
is the value of the command line, else that of the environment, else that of the file. -/
theorem settings_layered (sources : List Loader.Source) (l : Loader) (settings : Settings)
    (events : List Event) (hload : Loader.empty.loadAll sources = .ok l)
    (hbuild : l.build = .ok (settings, events)) :
    (∀ k : SettingName, ((Layer.last (Loader.empty.layers sources) k).or k.default?).mapM k.normal =
      .ok (settings.value? k)) ∧
    ∀ (s : Surroundings) (a : Cli.SharedArguments) (settings : Settings) (events : List Event),
      Cli.settings s a = (.ok settings, events) → ∀ k : SettingName,
        (((a.layer k).or ((s.environment.layer k).or (a.loader.fileLayer s k))).or k.default?).mapM
          k.normal = .ok (settings.value? k) := by
  constructor
  · intro k
    have hvalue := Loader.build_value hbuild k
    rw [Loader.loadAll_layer hload, Loader.empty_layer, Option.or_none] at hvalue
    exact hvalue
  · intro s a settings events h
    exact Cli.settings_layers h

/-- Of three timeouts that of the file stands, since the variable behind it is blank; of two names
the second does. -/
theorem settings_layered_mixed :
    let text :=
      "\x7b\"hosts\":[\" http://es1:9200/\"],\"username\":\"beats\",\"timeout_seconds\":20\x7d"
    let s : Surroundings := ⟨[], fun _ => .file (Utf8.encode text), Path.ofString "/", []⟩
    let env : Environment :=
      [("ES_OUTPUT_USERNAME", Utf8.encode " elastic "), ("ES_OUTPUT_TIMEOUT", Utf8.encode " ")]
    let sources : List Loader.Source :=
      [.given .timeout (.ofSeconds 5), .file s, .environment env, .given .index "logs"]
    ∃ l settings events, Loader.empty.loadAll sources = .ok l ∧ l.build = .ok (settings, events) ∧
      settings.value? .hosts = some ["http://es1:9200"] ∧
      settings.value? .timeout = some (.ofSeconds 20) ∧
      settings.value? .username = some "elastic" ∧ settings.value? .index = some "logs" := by
  intro text s env sources
  have hmade : ((Loader.empty.loadAll sources).toOption.bind (·.build.toOption)).isSome = true := by
    decide +kernel
  obtain ⟨⟨settings, events⟩, hmade⟩ := Option.isSome_iff_exists.mp hmade
  obtain ⟨l, hload, hbuild⟩ := Option.bind_eq_some_iff.mp hmade
  have hload := ok_of_toOption hload
  have hbuild := ok_of_toOption hbuild
  have hvalue := (settings_layered sources l settings events hload hbuild).1
  have hstands (k : SettingName) {v : Option k.Value}
      (h : (((Layer.last (Loader.empty.layers sources) k).or k.default?).mapM
        k.normal).toOption = some v) : settings.value? k = v := by
    rw [hvalue k] at h
    exact Option.some.inj h
  exact ⟨l, settings, events, hload, hbuild, hstands .hosts (by decide +kernel),
    hstands .timeout (by decide +kernel), hstands .username (by decide +kernel),
    hstands .index (by decide +kernel)⟩

end ClusterOutput
