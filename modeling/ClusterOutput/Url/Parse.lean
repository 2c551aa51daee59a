/-
Reading URLs, alone or relative to another.

Controls and spaces at the ends are dropped, and tabs and newlines anywhere.
Behind the scheme come the authority, up to a slash, the path, up to a question
mark, the query, up to a number sign, and the fragment; each is percent-encoded
by a rule of its own. The special schemes always have a host and a path, take
backslashes for slashes, and need no slashes before the host. A segment that is
one dot or two, encoded or not, moves through the path; a drive letter is not
left by two dots.
-/
import ClusterOutput.Url.Basic

namespace ClusterOutput.Url

/-! ## Which bytes a part encodes -/

def inFragment : UInt8 → Bool := inChars " \"<>\x60"
def inQuery : UInt8 → Bool := inChars " \"#<>"
def inSpecialQuery : UInt8 → Bool := inChars " \"#<>'"
def inPath : UInt8 → Bool := inChars " \"<>\x60#?\x7b\x7d"
def inUserinfo : UInt8 → Bool := inChars " \"<>\x60#?\x7b\x7d/:;=@[\\]^|"

/-! ## Schemes -/

/-- How the text behind a scheme is read. -/
inductive SchemeKind where
  | special
  | file
  | other
  deriving DecidableEq

def fileScheme : List Char := ['f', 'i', 'l', 'e']

def kindOf (scheme : List Char) : SchemeKind :=
  if (defaultPort? scheme).isSome then .special
  else if scheme = fileScheme then .file
  else .other

def isAsciiLetter (c : Char) : Bool :=
  (0x41 ≤ c.toNat && c.toNat ≤ 0x5a) || (0x61 ≤ c.toNat && c.toNat ≤ 0x7a)

def isAsciiDigit (c : Char) : Bool := 0x30 ≤ c.toNat && c.toNat ≤ 0x39

def isSchemeChar (c : Char) : Bool :=
  isAsciiLetter c || isAsciiDigit c || c == '+' || c == '-' || c == '.'

def lowerAscii (c : Char) : Char :=
  if 0x41 ≤ c.toNat && c.toNat ≤ 0x5a then Char.ofNat (c.toNat + 0x20) else c

/-- The scheme, in small letters, and the text behind its colon. -/
def splitScheme? (cs : List Char) : Option (List Char × List Char) :=
  match cs with
  | [] => none
  | c :: _ =>
    if isAsciiLetter c then
      match cs.dropWhile isSchemeChar with
      | ':' :: rest => some ((cs.takeWhile isSchemeChar).map lowerAscii, rest)
      | _ => none
    else none

/-! ## Text that is dropped -/

def isControlOrSpace (c : Char) : Bool := c.toNat ≤ 0x20

def isTabOrNewline (c : Char) : Bool := c == '\t' || c == '\n' || c == '\r'

/-- The text that counts. -/
def cleaned (cs : List Char) : List Char :=
  (Text.trimEndBy isControlOrSpace (cs.dropWhile isControlOrSpace)).filter (!isTabOrNewline ·)

/-! ## Authority -/

/-- A slash, and for some schemes a backslash too. -/
def isSlash (kind : SchemeKind) (c : Char) : Bool := c == '/' || (kind != .other && c == '\\')

/-- Where an authority ends. -/
def endsAuthority (kind : SchemeKind) (c : Char) : Bool := isSlash kind c || c == '?' || c == '#'

/-- The text before the last at sign and the text after it. -/
def splitUserinfo? (cs : List Char) : Option (List Char × List Char) :=
  match cs.reverse.dropWhile (· != '@') with
  | [] => none
  | _ :: front => some (front.reverse, cs.drop (front.length + 1))

/-- The host and, behind a colon outside brackets, the port. -/
def splitPort (inBrackets : Bool) : List Char → List Char × Option (List Char)
  | [] => ([], none)
  | c :: cs =>
    if c = ':' ∧ inBrackets = false then ([], some cs)
    else
      let inBrackets := if c = '[' then true else if c = ']' then false else inBrackets
      let (host, port) := splitPort inBrackets cs
      (c :: host, port)

/-- A port below `2 ^ 16`, none if there are no digits or it is the one the scheme stands for. -/
def parsePort (scheme : List Char) (cs : List Char) : Except Fault (Option Nat) :=
  let rec value (acc : Nat) : List Char → Except Fault Nat
    | [] => .ok acc
    | c :: cs =>
      match Text.digit? c with
      | none => .error .invalidPort
      | some d => if acc * 10 + d < 65536 then value (acc * 10 + d) cs else .error .invalidPort
  match cs with
  | [] => .ok none
  | _ =>
    match value 0 cs with
    | .error fault => .error fault
    | .ok port => .ok (if some port = defaultPort? scheme then none else some port)

/-- The host of a text; none where it is empty, which a special scheme does not allow. -/
def parseHost (kind : SchemeKind) (cs : List Char) : Except Fault (Option Host) :=
  if cs.isEmpty then
    if kind = .special then .error .emptyHost else .ok none
  else
    let host := if kind = .other then Host.parseOpaque cs else Host.parse cs
    match host with
    | .ok h => .ok (some h)
    | .error fault => .error fault

/-- User name and password, encoded; none for a password that is empty. -/
def parseUserinfo (cs : List Char) : List Char × Option (List Char) :=
  let name := cs.takeWhile (· != ':')
  let password := (cs.dropWhile (· != ':')).drop 1
  (encodeText inUserinfo name,
    if password.isEmpty then none else some (encodeText inUserinfo password))

/-- The authority of a text that ends before its first slash. -/
def parseAuthority (scheme : List Char) (cs : List Char) (isLast : Bool) :
    Except Fault Authority := do
  let kind := kindOf scheme
  let (userinfo, hostport) := match splitUserinfo? cs with
    | some (front, back) => (some front, back)
    | none => (none, cs)
  let (username, password) := parseUserinfo (userinfo.getD [])
  let (hostText, portText) := splitPort false hostport
  if userinfo == some [] && hostport.isEmpty && !isLast then throw .emptyHost
  let host ← parseHost kind hostText
  if host.isNone && (portText.isSome || !username.isEmpty || password.isSome) then
    throw .emptyHost
  let port ← match portText with
    | some p => parsePort scheme p
    | none => pure none
  return ⟨username, password, host, port⟩

/-! ## Path -/

/-- One dot, encoded or not. -/
def isSingleDot (seg : List Char) : Bool :=
  seg == ['.'] || seg == ['%', '2', 'e'] || seg == ['%', '2', 'E']

/-- Two dots, encoded or not. -/
def isDoubleDot (seg : List Char) : Bool :=
  match seg with
  | '.' :: rest => isSingleDot rest
  | '%' :: '2' :: e :: rest => (e == 'e' || e == 'E') && isSingleDot rest
  | _ => false

/-- A letter and a colon or a bar. -/
def isDriveLetter (seg : List Char) : Bool :=
  match seg with
  | [a, b] => isAsciiLetter a && (b == ':' || b == '|')
  | _ => false

/-- The path without its last segment, unless that is a drive letter. -/
def shorten (path : List (List Char)) : List (List Char) :=
  match path.reverse with
  | [] => []
  | last :: front => if isDriveLetter last then path else front.reverse

/-- Walks a path by its segments. Dots at its end leave an empty segment there. -/
def walk (path : List (List Char)) : List (List Char) → List (List Char)
  | [] => path
  | seg :: segs =>
    let path :=
      if isDoubleDot seg then
        let shorter := shorten path
        if segs.isEmpty then shorter ++ [[]] else shorter
      else if isSingleDot seg then
        if segs.isEmpty then path ++ [[]] else path
      else path ++ [encodeText inPath seg]
    walk path segs

/-- The segments between slashes. -/
def splitSegments (kind : SchemeKind) : List Char → List (List Char)
  | [] => [[]]
  | c :: cs =>
    if isSlash kind c then [] :: splitSegments kind cs
    else match splitSegments kind cs with
      | [] => [[c]]
      | seg :: segs => (c :: seg) :: segs

/-- A path, read onto the segments of another. -/
def parsePathOnto (kind : SchemeKind) (base : List (List Char)) (cs : List Char) :
    List (List Char) :=
  walk base (splitSegments kind cs)

/-- The path behind an authority; its first slash may be missing. -/
def parsePath (kind : SchemeKind) (cs : List Char) : List (List Char) :=
  match cs with
  | [] => if kind = .other then [] else [[]]
  | c :: rest => parsePathOnto kind [] (if isSlash kind c then rest else c :: rest)

/-! ## Query and fragment -/

/-- The text before the question mark or number sign. -/
def beforeQuery (cs : List Char) : List Char := cs.takeWhile fun c => c != '?' && c != '#'

/-- The query and the fragment of a text. -/
def parseTail (kind : SchemeKind) (cs : List Char) : Option (List Char) × Option (List Char) :=
  let rest := cs.dropWhile fun c => c != '?' && c != '#'
  let query := match rest with
    | '?' :: q =>
      some (encodeText (if kind = .other then inQuery else inSpecialQuery) (q.takeWhile (· != '#')))
    | _ => none
  let fragment := match rest.dropWhile (· != '#') with
    | '#' :: f => some (encodeText inFragment f)
    | _ => none
  (query, fragment)

/-! ## Whole URLs -/

/-- A URL behind its scheme and the slashes before its host. -/
def parseAfterSlashes (scheme : List Char) (cs : List Char) : Except Fault Url := do
  let kind := kindOf scheme
  let front := cs.takeWhile (!endsAuthority kind ·)
  let back := cs.dropWhile (!endsAuthority kind ·)
  let authority ← parseAuthority scheme front back.isEmpty
  let (query, fragment) := parseTail kind back
  return ⟨scheme, some authority, .segments (parsePath kind (beforeQuery back)), query, fragment⟩

/-- A URL of the scheme for files. -/
def parseFile (cs : List Char) : Except Fault Url := do
  let (query, fragment) := parseTail .file cs
  let plain (host : Option Host) (path : List Char) : Url :=
    ⟨fileScheme, some ⟨[], none, host, none⟩, .segments (parsePath .file path), query, fragment⟩
  let body := beforeQuery cs
  match body with
  | a :: b :: rest =>
    if isSlash .file a && isSlash .file b then
      let hostText := rest.takeWhile (!isSlash .file ·)
      if hostText.isEmpty || isDriveLetter hostText then return plain none rest
      else
        let host ← Host.parse hostText
        let host := if host = .domain "localhost".toList then none else some host
        return plain host (rest.dropWhile (!isSlash .file ·))
    else return plain none body
  | _ => return plain none body

/-- A URL of another scheme, behind its colon. -/
def parseOther (scheme : List Char) (cs : List Char) : Except Fault Url :=
  match cs with
  | '/' :: '/' :: rest => parseAfterSlashes scheme rest
  | '/' :: rest =>
    let (query, fragment) := parseTail .other rest
    .ok ⟨scheme, none, .segments (parsePathOnto .other [] (beforeQuery rest)), query, fragment⟩
  | _ =>
    let (query, fragment) := parseTail .other cs
    .ok ⟨scheme, none, .rootless (encodeText (fun _ => false) (beforeQuery cs)), query, fragment⟩

/-- A URL behind its scheme. -/
def parseAfterScheme (scheme : List Char) (cs : List Char) : Except Fault Url :=
  match kindOf scheme with
  | .special => parseAfterSlashes scheme (cs.dropWhile (isSlash .special ·))
  | .file => parseFile cs
  | .other => parseOther scheme cs

/-- The URL of a text. -/
def parseChars (cs : List Char) : Except Fault Url :=
  match splitScheme? (cleaned cs) with
  | some (scheme, rest) => parseAfterScheme scheme rest
  | none => .error .relativeWithoutBase

/-- The URL of a text. -/
def parse (s : String) : Except Fault Url := parseChars s.toList

/-! ## Relative references -/

/-- The segments of a path without the last. -/
def Path.parent : Path → List (List Char)
  | .segments list => list.dropLast
  | .rootless _ => []

/-- A reference without a scheme, relative to a URL of a special scheme. -/
def resolveRelative (base : Url) (cs : List Char) : Except Fault Url :=
  let (query, fragment) := parseTail .special cs
  match cs with
  | [] => .ok base.withoutFragment
  | c :: rest =>
    if c = '#' then .ok { base with fragment := fragment }
    else if c = '?' then .ok { base with query := query, fragment := fragment }
    else if isSlash .special c then
      match rest with
      | d :: _ =>
        if isSlash .special d then
          if c = '/' ∧ d = '/' then parseAfterSlashes base.scheme (cs.drop 2)
          else parseAfterSlashes base.scheme (cs.dropWhile (isSlash .special ·))
        else
          .ok { base with
            path := .segments (parsePathOnto .special [] (beforeQuery rest)),
            query := query, fragment := fragment }
      | [] =>
        .ok { base with path := .segments [[]], query := query, fragment := fragment }
    else
      .ok { base with
        path := .segments (parsePathOnto .special base.path.parent (beforeQuery cs)),
        query := query, fragment := fragment }

/-- The URL that a reference within an http or https URL stands for. -/
def resolve (base : Url) (reference : String) : Except Fault Url :=
  let cs := cleaned reference.toList
  match splitScheme? cs with
  | none => resolveRelative base cs
  | some (scheme, rest) =>
    if scheme = base.scheme ∧ (rest.takeWhile (isSlash .special ·)).length < 2 then
      resolveRelative base rest
    else parseAfterScheme scheme rest

end ClusterOutput.Url
