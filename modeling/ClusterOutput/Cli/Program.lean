/-
The program: from the command line and what surrounds the run to its output and
its exit code.

The file of variables is read first, since it may name the configuration file.
The command line wins over the environment, and the environment over the
configuration file.
-/
import ClusterOutput.Cli.Command

namespace ClusterOutput.Cli

/-- The loader with what the command line says. -/
def SharedArguments.apply (a : SharedArguments) (l : Loader) : Loader where
  hosts := a.hosts.or l.hosts
  username := a.username.or l.username
  password := a.password.or l.password
  skipVerify := if a.skipVerify then some true else l.skipVerify
  timeout := (a.timeoutSeconds.map .ofSeconds).or l.timeout
  connectTimeout := (a.connectTimeoutSeconds.map .ofSeconds).or l.connectTimeout
  maxRetries := a.maxRetries.or l.maxRetries
  retryBackoff := (a.retryBackoffMillis.map .ofMillis).or l.retryBackoff
  index := l.index
  configPath := l.configPath

/-- The configuration file that is named. A blank name counts as none. -/
def SharedArguments.namedFile? (a : SharedArguments) : Option Path :=
  a.configPath.filter fun path => !Text.isAllBlank (Path.shown path)

/-- The settings of a run, if all are right, and what is logged on the way to them. -/
def settings (s : Surroundings) (a : SharedArguments) : Except ConfigError Settings × List Event :=
  match { Loader.empty with configPath := a.namedFile? }.fromFile s with
  | .error e => (.error e, [])
  | .ok (fromFile, event) =>
    match fromFile.fromEnvironment s.environment with
    | .error e => (.error e, [event])
    | .ok fromEnvironment =>
      match (a.apply fromEnvironment).build with
      | .error e => (.error e, [event])
      | .ok (settings, warnings) => (.ok settings, event :: warnings)

/-- What a run comes to. -/
structure Report where
  code : ExitCode
  stdout : String
  stderr : String
  session : Session

/-- A run that ends before it has a client, with what it logged so far. -/
def Report.early (code : ExitCode) (stdout stderr : String) (events : List Event) : Report :=
  ⟨code, stdout, stderr, events.foldl .log .start⟩

def versionText : String := "es-output 0.1.0\n"

/-- What is told of words that ask for help or are no command line. The one variable that an option
stands for is shown with its value. How it is worded is up to what reads command lines. -/
abbrev Guidance := Stop → List String → (namedFile : Option Bytes) → String

/-- The least that can be told. -/
def Guidance.brief : Guidance := fun _ _ _ => "Usage: es-output [OPTIONS] <COMMAND>\n"

/-- A run without a command, with what is told of its words. -/
def Stop.report (stop : Stop) (told : String) : Report :=
  match stop with
  | usage => .early .usage "" told []
  | help => .early .success told "" []
  | version => .early .success versionText "" []

/-- What a command comes to, told. -/
def Printed.report (p : Printed) (s : Session) : Report :=
  match p.failure with
  | none => ⟨.success, p.output, "", s⟩
  | some f =>
    if f.isInterruption then ⟨.interrupted, p.output, "^C\nOperation cancelled by user\n", s⟩
    else ⟨f.code, p.output, f.message ++ "\n", s⟩

/-- A run that is ready to meet the network. -/
structure Prepared where
  files : Files
  settings : Settings
  events : List Event
  logsAsJson : Bool
  command : Command

/-- Reads the file of variables, the command line and the settings; what the run comes to if it
ends with them. -/
def prepare (surroundings : Surroundings) (words : List String)
    (guidance : Guidance := Guidance.brief) : Except Report Prepared :=
  match Dotenv.loadAround surroundings with
  | .error e =>
    .error (.early .generalError "" ("Failed to load environment: " ++ e.message ++ "\n") [])
  | .ok surroundings =>
    match parse surroundings.environment words with
    | .error stop =>
      let told := guidance stop words (surroundings.environment.value? configVariable)
      .error (stop.report told)
    | .ok arguments =>
      match settings surroundings arguments.shared with
      | (.error e, events) =>
        .error
          (.early .generalError "" ("Failed to build configuration: " ++ e.message ++ "\n") events)
      | (.ok settings, events) =>
        .ok ⟨surroundings.files, settings, events, arguments.shared.logJson, arguments.command⟩

/-- The client of a run and the session that it starts in. -/
def Prepared.client (p : Prepared) : Except Report (Client × Session) :=
  let start := p.events.foldl .log .start
  match { ClientOptions.default.ofSettings p.settings with carriesToken := true }.build start with
  | .error e => .error (Printed.report (.nothing (.request "Failed to create client" e)) start)
  | .ok made => .ok made

/-- Runs what was prepared. Only an exchange interrupts it. -/
def Prepared.run (p : Prepared) (network : Http.Network) (stdin : Bytes) : Report :=
  match p.client with
  | .error report => report
  | .ok (client, s) =>
    let setting : Setting := ⟨client, ⟨network, fun _ => false⟩⟩
    let (printed, s) := p.command.run setting p.settings.index p.files stdin s
    printed.report s

/-- Runs the program. -/
def run (surroundings : Surroundings) (network : Http.Network) (stdin : Bytes)
    (words : List String) (guidance : Guidance := Guidance.brief) : Report :=
  match prepare surroundings words guidance with
  | .error report => report
  | .ok p => p.run network stdin

/-! ## What a run reads -/

/-- The file that a command reads. -/
def Command.inputFile? : Command → Option Path
  | .index input .. => if input = "-" then none else some (Path.ofString input)
  | .delete .. | .createIndex .. | .refresh .. | .search .. => none

/-- The command reads what it is given on its standard input. -/
def Command.readsInput : Command → Bool
  | .index input .. => input == "-"
  | .delete .. | .createIndex .. | .refresh .. | .search .. => false

/-- The files that a run looks at behind the file of variables. -/
def filesRead (surroundings : Surroundings) (words : List String) : List Path :=
  match Dotenv.loadAround surroundings with
  | .error _ => []
  | .ok surroundings =>
    match parse surroundings.environment words with
    | .error _ => []
    | .ok a =>
      surroundings.defaultConfigPath :: a.shared.configPath.toList ++ a.command.inputFile?.toList

end ClusterOutput.Cli
