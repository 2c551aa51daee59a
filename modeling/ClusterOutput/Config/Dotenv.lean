/-
Files of variables: lines of the form `NAME=value`, which add to an environment.

A value may be quoted and then run over several lines. In single quotes it
stands as it is; elsewhere a backslash escapes, and `$NAME` and `${NAME}` stand
for the values of variables. Blank lines are skipped, and so are comments,
behind a `#` that starts a line or follows white space.

Variables that the environment has as text already stay as they are. Lines
before a malformed one count.
-/
import ClusterOutput.Config.Error
import ClusterOutput.Surroundings
import ClusterOutput.Text.Lines

namespace ClusterOutput.Dotenv

/-! ## Lines -/

/-- Where a line stands: between words, inside quotes, behind a backslash, behind white space. -/
inductive LineState where
  | plain
  | escape
  | strong
  | strongEscape
  | weak
  | weakEscape
  | blank
  deriving DecidableEq

/-- One character of a line outside of quotes. -/
def LineState.outside (blankEnds : Bool) (c : Char) : LineState :=
  if c = '\\' then .escape
  else if c = '"' then .weak
  else if c = '\'' then .strong
  else if blankEnds && Text.isBlank c && c != '\n' && c != '\r' then .blank
  else .plain

/-- One character of a line. -/
def LineState.step (st : LineState) (c : Char) : LineState :=
  match st with
  | blank => outside false c
  | plain => outside true c
  | escape => .plain
  | weak => if c = '\\' then .weakEscape else if c = '"' then .plain else .weak
  | weakEscape => .weak
  | strong => if c = '\\' then .strongEscape else if c = '\'' then .plain else .strong
  | strongEscape => .strong

/-- How a line ends: in a state, or before a comment with the characters up to it. -/
inductive LineEnd where
  | unfinished (st : LineState)
  | comment (before : List Char)

/-- Where a line stands after characters. -/
def scan : LineState → List Char → LineEnd
  | st, [] => .unfinished st
  | st, c :: cs =>
    if st = .blank ∧ c = '#' then .comment []
    else
      match scan (st.step c) cs with
      | .comment before => .comment (c :: before)
      | .unfinished st => .unfinished st

/-- Whether a line is a comment from its start on. -/
def isComment (cs : List Char) : Bool := (cs.dropWhile Text.isBlank).head? == some '#'

/-- Joins a line that ends within quotes, or behind a backslash or white space, with those that
follow. `text` is what was read of it so far. The end of the file in such a line is a fault. -/
def joinLines : (text : List Char) → LineState → List Bytes → List (List Char) × Option ConfigError
  | text, st, [] =>
    if st = .plain then ([], none)
    else ([], some (.dotenvParse (Utf8.encodeChars text).length))
  | text, st, raw :: raws =>
    match Utf8.decodeChars? raw with
    | none => ([], some (.dotenvRead .notText))
    | some cs =>
      let followedBy (line : List Char) : List (List Char) × Option ConfigError :=
        let (lines, fault) := joinLines [] .plain raws
        (line :: lines, fault)
      if isComment (text ++ cs) then followedBy []
      else
        match scan st cs with
        | .comment before => followedBy (text ++ before)
        | .unfinished .plain => followedBy (Text.withoutNewline (text ++ cs))
        | .unfinished st => joinLines (text ++ cs) st raws

/-! ## Values -/

inductive Quotes where
  | unquoted
  | strong
  | weak
  deriving DecidableEq

/-- What the next character of a value is part of. -/
inductive Phase where
  | text
  /-- Behind a backslash. -/
  | escape
  /-- The name of a variable, behind a dollar. -/
  | name
  /-- The name of a variable in braces. -/
  | braces
  /-- White space behind the value. -/
  | ended
  deriving DecidableEq

/-- A value that is being read. -/
structure Value where
  quotes : Quotes
  phase : Phase
  name : List Char
  text : List Char

def Value.start : Value := ⟨.unquoted, .text, [], []⟩

/-- Puts a character at the end of the value. -/
def Value.push (v : Value) (c : Char) : Value := { v with text := v.text ++ [c] }

/-- Puts the value of the variable that was named at the end of the value. -/
def Value.substitute (v : Value) (lookup : String → String) : Value :=
  { v with text := v.text ++ (lookup (String.ofList v.name)).toList, name := [] }

/-- ASCII letters and digits. -/
def isNameChar (c : Char) : Bool :=
  ('a' ≤ c && c ≤ 'z') || ('A' ≤ c && c ≤ 'Z') || ('0' ≤ c && c ≤ '9')

/-- One character of a value that is neither escaped nor part of a name. -/
def Value.stepText (v : Value) (c : Char) : Value :=
  match v.quotes with
  | .strong => if c = '\'' then { v with quotes := .unquoted } else v.push c
  | .weak =>
    if c = '$' then { v with phase := .name }
    else if c = '"' then { v with quotes := .unquoted }
    else if c = '\\' then { v with phase := .escape }
    else v.push c
  | .unquoted =>
    if c = '$' then { v with phase := .name }
    else if c = '\'' then { v with quotes := .strong }
    else if c = '"' then { v with quotes := .weak }
    else if c = '\\' then { v with phase := .escape }
    else if c = ' ' ∨ c = '\t' then { v with phase := .ended }
    else v.push c

/-- One character of the name of a variable. The character behind a name stands for itself, a
quote too, unless it starts the next name. -/
def Value.stepName (v : Value) (lookup : String → String) (c : Char) : Value :=
  if isNameChar c then { v with name := v.name ++ [c] }
  else if c = '\x7b' ∧ v.name = [] then { v with phase := .braces }
  else
    let v := v.substitute lookup
    if c = '$' then v else { v.push c with phase := .text }

/-- One character of the name of a variable in braces. -/
def Value.stepBraces (v : Value) (lookup : String → String) (c : Char) : Value :=
  if c = '\x7d' then { v.substitute lookup with phase := .text }
  else { v with name := v.name ++ [c] }

/-- What a backslash makes of a character. -/
def escaped? (c : Char) : Option Char :=
  if c = '\\' ∨ c = '\'' ∨ c = '"' ∨ c = '$' ∨ c = ' ' then some c
  else if c = 'n' then some '\n'
  else none

/-- The value of characters from the `index`-th on. The fault is the place of the character that
is wrong, or none where the value has no end. -/
def readValue (lookup : String → String) :
    (index : Nat) → Value → List Char → Except (Option Nat) (List Char)
  | _, v, [] =>
    if v.quotes ≠ .unquoted ∨ v.phase = .braces then .error none
    else .ok (v.substitute lookup).text
  | index, v, c :: cs =>
    match v.phase with
    | .ended =>
      if c = ' ' ∨ c = '\t' then readValue lookup (index + 1) v cs
      else if c = '#' then .ok v.text
      else .error (some index)
    | .escape =>
      match escaped? c with
      | some d => readValue lookup (index + 1) { v.push d with phase := .text } cs
      | none => .error (some index)
    | .text => readValue lookup (index + 1) (v.stepText c) cs
    | .name => readValue lookup (index + 1) (v.stepName lookup c) cs
    | .braces => readValue lookup (index + 1) (v.stepBraces lookup c) cs

/-! ## Assignments -/

/-- How many bytes some characters have. -/
def size (cs : List Char) : Nat := (Utf8.encodeChars cs).length

/-- The rest of a line, and how many bytes of the line precede it. -/
structure Rest where
  position : Nat
  chars : List Char

def Rest.skipBlank (r : Rest) : Rest :=
  ⟨r.position + size (r.chars.takeWhile Text.isBlank), r.chars.dropWhile Text.isBlank⟩

def isKeyStart (c : Char) : Bool :=
  ('a' ≤ c && c ≤ 'z') || ('A' ≤ c && c ≤ 'Z') || c == '_'

def isKeyChar (c : Char) : Bool := isNameChar c || c == '_' || c == '.'

/-- The name of a variable, and white space behind it. -/
def Rest.key (r : Rest) : Except Nat (String × Rest) :=
  if r.chars.head?.any isKeyStart then
    let key := r.chars.takeWhile isKeyChar
    .ok (String.ofList key,
      Rest.skipBlank ⟨r.position + key.length, r.chars.dropWhile isKeyChar⟩)
  else .error r.position

/-- An equals sign, and white space behind it. -/
def Rest.equals (r : Rest) : Except Nat Rest :=
  match r.chars with
  | '=' :: cs => .ok (Rest.skipBlank ⟨r.position + 1, cs⟩)
  | _ => .error r.position

/-- The name of a variable and an equals sign, behind the word `export` or not. -/
def Rest.assigned (r : Rest) : Except Nat (String × Rest) := do
  let (key, r) ← r.key
  if key = "export" then
    match r.equals with
    | .ok r => .ok (key, r)
    | .error _ =>
      let (key, r) ← r.key
      .ok (key, ← r.equals)
  else .ok (key, ← r.equals)

/-- What a line assigns: nothing if it is blank or a comment. The fault is a place in the line, or
in the value of it. -/
def assignment? (lookup : String → String) (line : List Char) :
    Except Nat (Option (String × String)) :=
  let r := Rest.skipBlank ⟨0, Text.trimEndBy Text.isBlank line⟩
  if r.chars = [] ∨ r.chars.head? = some '#' then .ok none
  else do
    let (key, r) ← r.assigned
    if r.chars = [] ∨ r.chars.head? = some '#' then .ok (some (key, ""))
    else
      match readValue lookup 0 .start r.chars with
      | .ok value => .ok (some (key, String.ofList value))
      | .error (some index) => .error index
      | .error none => .error (size r.chars - 1)

/-- The value of a variable: that of the environment, else what a line before assigned. -/
def lookupIn (env : Environment) (assigned : List (String × String)) (name : String) : String :=
  match env.text? name with
  | some value => value
  | none => (assigned.find? (·.1 == name)).elim "" (·.2)

/-- Adds what lines assign to an environment, up to the first malformed one. -/
def apply (fault : Option ConfigError) :
    Environment → List (String × String) → List (List Char) → Environment × Option ConfigError
  | env, _, [] => (env, fault)
  | env, assigned, line :: lines =>
    match assignment? (lookupIn env assigned) line with
    | .error position => (env, some (.dotenvParse position))
    | .ok none => apply fault env assigned lines
    | .ok (some (key, value)) =>
      apply fault
        (if (env.text? key).isSome then env else env.set key (Utf8.encode value))
        ((key, value) :: assigned) lines

/-- The three bytes that may precede the text of a file. -/
def byteOrderMark : Bytes := [0xef, 0xbb, 0xbf]

def withoutMark (content : Bytes) : Bytes :=
  if byteOrderMark.isPrefixOf content then content.drop 3 else content

/-- Adds what a file assigns to an environment; the fault that ended it, if there was one. -/
def load (env : Environment) (content : Bytes) : Environment × Option ConfigError :=
  let (lines, fault) := joinLines [] .plain (Text.rawLines (withoutMark content))
  apply fault env [] lines

/-- Where a file of variables may be: in the working directory or above it. -/
def places (s : Surroundings) : List Path :=
  (Path.upwards s.workingDirectory).map fun directory => Path.join directory ".env"

/-- The file of variables: the nearest that is there. -/
def find? (s : Surroundings) : Option Bytes :=
  (places s).findSome? fun path =>
    match s.files path with
    | .file content => some content
    | _ => none

/-- The environment asks not to read a file of variables. -/
def isDisabled (env : Environment) : Bool :=
  let value := env.text? "DOTENV_DISABLED"
  value == some "true" || value == some "1"

/-- The surroundings with what their file of variables adds. -/
def loadAround (s : Surroundings) : Except ConfigError Surroundings :=
  if isDisabled s.environment then .ok s
  else
    match find? s with
    | none => .ok s
    | some content =>
      match load s.environment content with
      | (env, none) => .ok { s with environment := env }
      | (_, some fault) => .error fault

end ClusterOutput.Dotenv
