/-
What a run finds around it: the variables of its environment and the files.
-/
import ClusterOutput.Files.Path

namespace ClusterOutput

/-- The variables of an environment with their values, which need not be text. -/
abbrev Environment := List (String × Bytes)

namespace Environment

def value? (env : Environment) (name : String) : Option Bytes :=
  (env.find? (·.1 == name)).map (·.2)

/-- The value of a variable if it is text. -/
def text? (env : Environment) (name : String) : Option String :=
  (env.value? name).bind Utf8.decode?

/-- The value of a variable without white space around it; none if nothing remains, or if it is
no text. -/
def setting? (env : Environment) (name : String) : Option String :=
  (env.text? name).bind fun s => if Text.isAllBlank s then none else some (Text.trim s)

def set (env : Environment) (name : String) (value : Bytes) : Environment :=
  (name, value) :: env.filter (·.1 != name)

end Environment

/-- What a run finds around it. -/
structure Surroundings where
  environment : Environment
  files : Files
  workingDirectory : Path
  /-- The home directory of the account, for where the environment names none. -/
  accountHome : Path

namespace Surroundings

/-- The home directory: the one that the environment names, unless its name is empty. -/
def home (s : Surroundings) : Path :=
  match s.environment.value? "HOME" with
  | some (b :: bytes) => b :: bytes
  | _ => s.accountHome

/-- The directory of configurations: an absolute one that the environment names, else one in the
home directory. -/
def configDirectory (s : Surroundings) : Path :=
  let inHome := Path.join s.home ".config"
  match s.environment.value? "XDG_CONFIG_HOME" with
  | some path => if Path.isAbsolute path then path else inHome
  | none => inHome

/-- The configuration file that is read where none is named. -/
def defaultConfigPath (s : Surroundings) : Path :=
  Path.join (Path.join s.configDirectory "es-output") "config.json"

/-- The text of a file. -/
def readText (s : Surroundings) (path : Path) : Except FileFault String :=
  match s.files path with
  | .missing => .error .isMissing
  | .belowFile => .error .isBelowFile
  | .directory => .error .isDirectory
  | .file content =>
    match Utf8.decode? content with
    | some text => .ok text
    | none => .error .notText

end Surroundings

end ClusterOutput
