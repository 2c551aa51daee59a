/-
The words of a command line: which options and operands there are, and reading
them.

Options of the program may stand before or behind the name of the command;
behind it they win. A value follows its option as a word of its own, behind an
equals sign, or, behind a short option, at once. A word that starts with a dash
is an option and never a value, unless it is the dash alone; behind two dashes
all words are operands. An option may be given once, but lists add up.
-/
import ClusterOutput.Config.Loader
import ClusterOutput.Surroundings

namespace ClusterOutput.Cli

/-- How what was found is written. -/
inductive SearchFormat where
  | json
  | lines
  deriving DecidableEq, Repr

/-! ## The options -/

/-- What an option says. -/
inductive Key where
  | hosts
  | username
  | password
  | timeout
  | connectTimeout
  | maxRetries
  | retryBackoff
  | skipVerify
  | configPath
  | logJson
  | index
  | docType
  | idField
  | refresh
  | size
  | sort
  | output
  | help
  | version
  deriving DecidableEq, Repr

/-- What an option is followed by. -/
inductive Kind where
  | flag
  | text
  /-- Texts, separated by commas. -/
  | list
  | number
  | path
  | format
  deriving DecidableEq, Repr

/-- How an option is written: its names, and what follows it. -/
structure Switch where
  key : Key
  long : String
  short : Option Char
  kind : Kind

/-- The commands. -/
inductive Verb where
  | index
  | delete
  | createIndex
  | refresh
  | search
  deriving DecidableEq, Repr

def Verb.name : Verb → String
  | index => "index"
  | delete => "delete"
  | createIndex => "create-index"
  | refresh => "refresh"
  | search => "search"

def verbs : List Verb := [.index, .delete, .createIndex, .refresh, .search]

/-- The options that stand before a command or behind it. -/
def sharedSwitches : List Switch :=
  [⟨.hosts, "hosts", none, .list⟩, ⟨.username, "username", some 'u', .text⟩,
    ⟨.password, "password", some 'p', .text⟩, ⟨.timeout, "timeout", none, .number⟩,
    ⟨.connectTimeout, "connect-timeout", none, .number⟩,
    ⟨.maxRetries, "max-retries", none, .number⟩,
    ⟨.retryBackoff, "retry-backoff-ms", none, .number⟩,
    ⟨.skipVerify, "skip-verify", none, .flag⟩, ⟨.configPath, "config-path", none, .path⟩,
    ⟨.logJson, "log-json", none, .flag⟩, ⟨.help, "help", some 'h', .flag⟩]

def indexSwitch : Switch := ⟨.index, "index", some 'i', .text⟩

def docTypeSwitch : Switch := ⟨.docType, "doc-type", some 't', .text⟩

/-- The options of a command's own. -/
def Verb.switches : Verb → List Switch
  | index =>
    [indexSwitch, docTypeSwitch, ⟨.idField, "id-field", none, .text⟩,
      ⟨.refresh, "refresh", none, .flag⟩]
  | delete => [indexSwitch, docTypeSwitch]
  | createIndex => [indexSwitch]
  | refresh => [indexSwitch]
  | search =>
    [indexSwitch, docTypeSwitch, ⟨.size, "size", some 's', .number⟩,
      ⟨.sort, "sort", none, .text⟩, ⟨.output, "output", some 'o', .format⟩]

/-- How many operands a command may have. -/
def Verb.operands : Verb → Nat
  | index | delete | search => 1
  | createIndex | refresh => 0

/-- A place for options: before the command, or behind it. -/
structure Level where
  switches : List Switch
  /-- The commands that may be named here. -/
  verbs : List Verb
  operands : Nat

def outerLevel : Level :=
  ⟨sharedSwitches ++ [⟨.version, "version", some 'V', .flag⟩], verbs, 0⟩

def Verb.level (v : Verb) : Level := ⟨sharedSwitches ++ v.switches, [], v.operands⟩

/-! ## Reading words -/

/-- Why there is nothing to run. -/
inductive Stop where
  | usage
  | help
  | version
  deriving DecidableEq, Repr

/-- What was given at a level: options with their texts, and operands. -/
structure Given where
  options : List (Key × List String)
  operands : List String

namespace Given

def nothing : Given := ⟨[], []⟩

/-- The texts of an option, if it was given. -/
def texts? (g : Given) (key : Key) : Option (List String) :=
  (g.options.find? (·.1 == key)).map (·.2)

/-- The text of an option, if it was given. -/
def text? (g : Given) (key : Key) : Option String := (g.texts? key).bind (·.head?)

def number? (g : Given) (key : Key) : Option Nat := (g.text? key).bind Loader.readWord?

def has (g : Given) (key : Key) : Bool := (g.texts? key).isSome

/-- Adds texts to those of an option. -/
def add (g : Given) (key : Key) (texts : List String) : Given :=
  match g.texts? key with
  | none => { g with options := g.options ++ [(key, texts)] }
  | some before =>
    { g with options := g.options.map fun o => if o.1 = key then (key, before ++ texts) else o }

end Given

def formatOf? (s : String) : Option SearchFormat :=
  if s = "json" then some .json else if s = "ndjson" then some .lines else none

/-- The texts that a value stands for; none if the option cannot have it. -/
def Kind.texts? (k : Kind) (value : String) : Option (List String) :=
  match k with
  | .flag => none
  | .text => some [value]
  | .list => some ((Text.pieces ',' value.toList).map String.ofList)
  | .number => (Loader.readWord? value).map fun _ => [value]
  | .path => if value = "" then none else some [value]
  | .format => (formatOf? value).map fun _ => [value]

/-- Takes in an option with its value. -/
def Given.value (g : Given) (o : Switch) (value : String) : Except Stop Given :=
  if g.has o.key && o.kind != .list then .error .usage
  else
    match o.kind.texts? value with
    | some texts => .ok (g.add o.key texts)
    | none => .error .usage

/-- Takes in an option without a value. -/
def Given.flag (g : Given) (o : Switch) : Except Stop Given :=
  match o.key with
  | .help => .error .help
  | .version => .error .version
  | key => if g.has key then .error .usage else .ok (g.add key [])

/-- Reads the letters of a word behind one dash. The last option may still lack its value. -/
def readShort (switches : List Switch) :
    Given → List Char → Except Stop (Given × Option Switch)
  | g, [] => .ok (g, none)
  | g, c :: cs =>
    match switches.find? (·.short == some c) with
    | none => .error .usage
    | some o =>
      if o.kind = .flag then do
        let g ← g.flag o
        readShort switches g cs
      else
        match cs with
        | [] => .ok (g, some o)
        | '=' :: value => do .ok (← g.value o (String.ofList value), none)
        | value => do .ok (← g.value o (String.ofList value), none)

/-- Reads a word behind two dashes: a name, and perhaps a value behind an equals sign. -/
def readLong (switches : List Switch) (g : Given) (cs : List Char) :
    Except Stop (Given × Option Switch) :=
  let name := String.ofList (cs.takeWhile (· != '='))
  match switches.find? (·.long == name), cs.dropWhile (· != '=') with
  | none, _ => .error .usage
  | some o, [] =>
    if o.kind = .flag then do .ok (← g.flag o, none) else .ok (g, some o)
  | some o, _ :: value =>
    if o.kind = .flag then .error .usage else do .ok (← g.value o (String.ofList value), none)

/-- Takes in an operand. -/
def Given.operand (g : Given) (level : Level) (word : String) : Except Stop Given :=
  if g.operands.length < level.operands then .ok { g with operands := g.operands ++ [word] }
  else .error .usage

/-- Reads the words of a level. `awaiting` is an option whose value is the next word. It ends with
the words, or behind the name of a command. -/
def readWords (level : Level) :
    (awaiting : Option Switch) → Given → List String →
      Except Stop (Given × Option (Verb × List String))
  | none, g, [] => .ok (g, none)
  | some _, _, [] => .error .usage
  | awaiting, g, word :: words =>
    match awaiting, word.toList with
    | some _, ['-', '-'] => .error .usage
    | none, ['-', '-'] => do .ok (← words.foldlM (·.operand level ·) g, none)
    | some _, '-' :: _ :: _ => .error .usage
    | none, '-' :: '-' :: cs => do
      let (g, awaiting) ← readLong level.switches g cs
      readWords level awaiting g words
    | none, '-' :: c :: cs => do
      let (g, awaiting) ← readShort level.switches g (c :: cs)
      readWords level awaiting g words
    | some o, _ => do
      let g ← g.value o word
      readWords level none g words
    | none, _ =>
      match level.verbs.find? (·.name == word) with
      | some verb => .ok (g, some (verb, words))
      | none =>
        if !level.verbs.isEmpty && word == "help" then .error .help
        else do
          let g ← g.operand level word
          readWords level none g words

/-! ## The command line -/

/-- The options that concern all commands. -/
structure SharedArguments where
  hosts : Option (List String)
  username : Option String
  password : Option Secret
  timeoutSeconds : Option Nat
  connectTimeoutSeconds : Option Nat
  maxRetries : Option Nat
  retryBackoffMillis : Option Nat
  skipVerify : Bool
  configPath : Option Path
  logJson : Bool

/-- What is to be done. -/
inductive Command where
  /-- Stores the documents of an input, one a line. -/
  | index (input : String) (index : Option String) (docType : String) (idField : Option String)
      (refresh : Bool)
  | delete (id : String) (index : Option String) (docType : String)
  | createIndex (index : Option String)
  | refresh (index : Option String)
  | search (query : String) (index : Option String) (docType : String) (size : Option Nat)
      (sort : Option String) (format : SearchFormat)

/-- A command line. -/
structure Arguments where
  shared : SharedArguments
  command : Command

/-- The variable that names the configuration file where no option does. -/
def configVariable : String := "ES_OUTPUT_CONFIG_PATH"

/-- The variable is set, but names no file. -/
def namesNoFile (env : Environment) : Bool := env.value? configVariable == some []

/-- The options of both levels. Those behind the command win. -/
def shared (env : Environment) (outer inner : Given) : SharedArguments :=
  let text? (key : Key) : Option String := (inner.text? key).or (outer.text? key)
  let number? (key : Key) : Option Nat := (inner.number? key).or (outer.number? key)
  { hosts := (inner.texts? .hosts).or (outer.texts? .hosts)
    username := text? .username
    password := (text? .password).map (⟨·⟩)
    timeoutSeconds := number? .timeout
    connectTimeoutSeconds := number? .connectTimeout
    maxRetries := number? .maxRetries
    retryBackoffMillis := number? .retryBackoff
    skipVerify := inner.has .skipVerify || outer.has .skipVerify
    configPath := ((text? .configPath).map Path.ofString).or (env.value? configVariable)
    logJson := inner.has .logJson || outer.has .logJson }

/-- The command that was given; none if an operand is missing. -/
def commandOf? (verb : Verb) (g : Given) : Option Command :=
  let index := g.text? .index
  match verb, g.operands with
  | .index, operands =>
    some (.index (operands.headD "-") index ((g.text? .docType).getD "_doc") (g.text? .idField)
      (g.has .refresh))
  | .delete, id :: _ => some (.delete id index ((g.text? .docType).getD "_doc"))
  | .createIndex, _ => some (.createIndex index)
  | .refresh, _ => some (.refresh index)
  | .search, query :: _ =>
    some (.search query index ((g.text? .docType).getD "") (g.number? .size) (g.text? .sort)
      (((g.text? .output).bind formatOf?).getD .json))
  | _, [] => none

/-- Reads a command line. A variable that names no file is a fault at every level where no option
names one. -/
def parse (env : Environment) (words : List String) : Except Stop Arguments := do
  let (outer, rest) ← readWords outerLevel none .nothing words
  match rest with
  | none => .error .usage
  | some (verb, words) =>
    let (inner, _) ← readWords verb.level none .nothing words
    if namesNoFile env && !(outer.has .configPath && inner.has .configPath) then .error .usage
    else
      match commandOf? verb inner with
      | some command => .ok ⟨shared env outer inner, command⟩
      | none => .error .usage

end ClusterOutput.Cli
