/-
Making settings from a file, the environment and what the caller gives.

Each source supplies some of the settings. What it supplies replaces what an
earlier one did, and what it leaves out stays. What no source supplies has its
default; then all is checked.
-/
import ClusterOutput.Config.Dotenv
import ClusterOutput.Config.File
import ClusterOutput.Observation.Event
import ClusterOutput.Url.Parse

namespace ClusterOutput

/-- The settings supplied so far, and the file to read them from if one was named. -/
structure Loader where
  hosts : Option (List String)
  username : Option String
  password : Option Secret
  skipVerify : Option Bool
  timeout : Option Duration
  connectTimeout : Option Duration
  maxRetries : Option Nat
  retryBackoff : Option Duration
  index : Option String
  configPath : Option Path
  deriving DecidableEq

/-- The entries of a list of hosts, which commas separate. Blank entries are dropped. -/
def parseHosts (text : String) : List String :=
  (((Text.pieces ',' text.toList).map Text.trimChars).filter (!·.isEmpty)).map String.ofList

namespace Loader

/-- Nothing is supplied. -/
def empty : Loader := ⟨none, none, none, none, none, none, none, none, none, none⟩

/-! ## What the caller gives -/

def withConfigPath (l : Loader) (path : Path) : Loader := { l with configPath := some path }
def withHosts (l : Loader) (hosts : List String) : Loader := { l with hosts := some hosts }
def withUsername (l : Loader) (name : String) : Loader := { l with username := some name }
def withPassword (l : Loader) (password : Secret) : Loader := { l with password := some password }
def withSkipVerify (l : Loader) (skip : Bool) : Loader := { l with skipVerify := some skip }
def withTimeout (l : Loader) (d : Duration) : Loader := { l with timeout := some d }
def withConnectTimeout (l : Loader) (d : Duration) : Loader := { l with connectTimeout := some d }
def withMaxRetries (l : Loader) (n : Nat) : Loader := { l with maxRetries := some n }
def withRetryBackoff (l : Loader) (d : Duration) : Loader := { l with retryBackoff := some d }
def withIndex (l : Loader) (index : String) : Loader := { l with index := some index }

/-! ## The file -/

/-- What a file supplies. -/
def withFile (l : Loader) (f : FileSettings) : Loader where
  hosts := f.hosts.or l.hosts
  username := f.username.or l.username
  password := f.password.or l.password
  skipVerify := f.skipVerify.or l.skipVerify
  timeout := (f.timeoutSeconds.map .ofSeconds).or l.timeout
  connectTimeout := (f.connectTimeoutSeconds.map .ofSeconds).or l.connectTimeout
  maxRetries := f.maxRetries.or l.maxRetries
  retryBackoff := (f.retryBackoffMillis.map .ofMillis).or l.retryBackoff
  index := f.index.or l.index
  configPath := l.configPath

/-- The settings in a file. -/
def readFile (s : Surroundings) (path : Path) : Except ConfigError FileSettings :=
  match s.readText path with
  | .error fault => .error (.fileRead path fault)
  | .ok text =>
    match Json.decode FileSettings.read (Utf8.encode text) with
    | .ok settings => .ok settings
    | .error e => .error (.fileParse path e.line e.column)

/-- What an existing file supplies. -/
def withFileAt (l : Loader) (s : Surroundings) (path : Path) :
    Except ConfigError (Loader × Event) :=
  match readFile s path with
  | .ok settings => .ok (l.withFile settings, .fileLoaded (Path.shown path))
  | .error e => .error e

/-- What the configuration file supplies: the one that was named, which has to be there, else the
default one, which may be missing. -/
def fromFile (l : Loader) (s : Surroundings) : Except ConfigError (Loader × Event) :=
  match l.configPath with
  | some path =>
    if (s.files path).isThere then l.withFileAt s path else .error (.fileMissing path)
  | none =>
    let path := s.defaultConfigPath
    if (s.files path).isThere then l.withFileAt s path
    else .ok (l, .noDefaultFile (Path.shown path))

/-! ## The environment -/

/-- The value of a variable, read; nothing if the variable is not set. -/
def settingOf? {α : Type} (env : Environment) (name message : String) (read : String → Option α) :
    Except ConfigError (Option α) :=
  match env.setting? name with
  | none => .ok none
  | some text =>
    match read text with
    | some a => .ok (some a)
    | none => .error (.invalidValue name message)

/-- A boolean in full. -/
def readBool? (s : String) : Option Bool :=
  if s = "true" then some true else if s = "false" then some false else none

def readWord? (s : String) : Option Nat := (Text.readWord s).toOption

/-- The number of attempts that a variable gives. -/
def retriesVariable? (env : Environment) : Except ConfigError (Option Nat) := do
  match ← settingOf? env "ES_OUTPUT_MAX_RETRIES" "must be a non-negative integer" readWord? with
  | none => .ok none
  | some n => if mostRetries < n then .error (.invalidMaxRetries n) else .ok (some n)

/-- What the environment supplies. It names the configuration file only if no other was named. -/
def fromEnvironment (l : Loader) (env : Environment) : Except ConfigError Loader := do
  let skipVerify ← settingOf? env "ES_OUTPUT_SKIP_VERIFY" "must be true or false" readBool?
  let timeout ← settingOf? env "ES_OUTPUT_TIMEOUT" "must be a number" readWord?
  let connectTimeout ← settingOf? env "ES_OUTPUT_CONNECT_TIMEOUT" "must be a number" readWord?
  let maxRetries ← retriesVariable? env
  let retryBackoff ← settingOf? env "ES_OUTPUT_RETRY_BACKOFF_MS" "must be a number" readWord?
  .ok
    { hosts := ((env.setting? "ES_OUTPUT_HOSTS").map parseHosts).or l.hosts
      username := (env.setting? "ES_OUTPUT_USERNAME").or l.username
      password := ((env.setting? "ES_OUTPUT_PASSWORD").map (⟨·⟩)).or l.password
      skipVerify := skipVerify.or l.skipVerify
      timeout := (timeout.map .ofSeconds).or l.timeout
      connectTimeout := (connectTimeout.map .ofSeconds).or l.connectTimeout
      maxRetries := maxRetries.or l.maxRetries
      retryBackoff := (retryBackoff.map .ofMillis).or l.retryBackoff
      index := (env.setting? "ES_OUTPUT_INDEX").or l.index
      configPath := l.configPath.or ((env.setting? "ES_OUTPUT_CONFIG_PATH").map Path.ofString) }

/-! ## Checking -/

/-- The URL of a node in its normal form, without slashes at its end. -/
def checkHost (raw : String) : Except ConfigError String :=
  let host := Text.trim raw
  match Url.parse host with
  | .error fault =>
    .error (.invalidValue "hosts"
      ("'" ++ host ++
        "' must be an absolute http(s) URL with a host (e.g. http://localhost:9200): " ++
        fault.message))
  | .ok url =>
    if url.scheme ≠ Url.httpScheme ∧ url.scheme ≠ Url.httpsScheme then
      .error (.invalidValue "hosts"
        ("scheme must be http or https, got: " ++ String.ofList url.scheme))
    else if url.host?.isNone then .error (.invalidValue "hosts" ("'" ++ host ++ "' has no host"))
    else .ok (Text.trimSlashes url.text)

/-- The URLs of nodes; the first that is none is reported. -/
def checkHosts : List String → Except ConfigError (List String)
  | [] => .ok []
  | raw :: raws => do
    let host ← checkHost raw
    let hosts ← checkHosts raws
    .ok (host :: hosts)

/-- The hosts supplied, checked; the default one, if none were. -/
def finalHosts (l : Loader) : Except ConfigError (List String) :=
  match l.hosts with
  | some hosts => checkHosts hosts
  | none => .ok [defaultHost]

/-- Checks the bounds of connection settings. Timeouts are compared with their bound in whole
seconds, the pause in whole milliseconds. -/
def checkConnection (c : ConnectionSettings) : Except ConfigError Unit :=
  if c.timeout.seconds = 0 then .error (.invalidTimeout .zeroTimeout)
  else if longestTimeout < c.timeout.seconds then .error (.invalidTimeout .longTimeout)
  else if c.connectTimeout.isZero then .error (.invalidTimeout .zeroConnectTimeout)
  else if c.timeout.nanoseconds < c.connectTimeout.nanoseconds then
    .error (.invalidTimeout (.connectLonger c.connectTimeout c.timeout))
  else if mostRetries < c.maxRetries then .error (.invalidMaxRetries c.maxRetries)
  else if longestBackoff < c.retryBackoff.millis then .error .invalidRetryBackoff
  else .ok ()

/-- What is worth a warning in settings that are right. -/
def warnings (c : ConnectionSettings) : List Event :=
  (if c.hosts.isEmpty then [.noHosts] else []) ++ (if c.maxRetries = 0 then [.noAttempts] else [])

/-- The connection settings, with defaults for what was not supplied. -/
def connection (l : Loader) (hosts : List String) : ConnectionSettings :=
  let d := ConnectionSettings.default
  { hosts := hosts
    skipVerify := l.skipVerify.getD d.skipVerify
    timeout := l.timeout.getD d.timeout
    connectTimeout := l.connectTimeout.getD d.connectTimeout
    maxRetries := l.maxRetries.getD d.maxRetries
    retryBackoff := l.retryBackoff.getD d.retryBackoff }

/-- The settings, if all are right. -/
def build (l : Loader) : Except ConfigError (Settings × List Event) := do
  let hosts ← l.finalHosts
  if l.password.isSome ∧ l.username.isNone then .error .passwordWithoutUsername
  else
    let connection := l.connection hosts
    checkConnection connection
    .ok (⟨connection, ⟨l.username, l.password⟩, l.index.getD defaultIndex⟩, warnings connection)

end Loader

end ClusterOutput
