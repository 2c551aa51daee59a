/-
URLs in their parts, and their text.

The parts hold what stands in the text: they are percent-encoded already. A
path is a list of segments, each behind a slash, or opaque text where there is
no authority and no slash.
-/
import ClusterOutput.Url.Host
import ClusterOutput.Text.Decimal

namespace ClusterOutput

namespace Url

/-- What stands between the two slashes and the path. -/
structure Authority where
  username : List Char
  password : Option (List Char)
  /-- None for the empty host, which the special schemes do not allow. -/
  host : Option Host
  port : Option Nat
  deriving DecidableEq, Repr

/-- What stands behind the authority. -/
inductive Path where
  | segments (list : List (List Char))
  | rootless (text : List Char)
  deriving DecidableEq, Repr

end Url

/-- A URL. -/
structure Url where
  scheme : List Char
  authority : Option Url.Authority
  path : Url.Path
  query : Option (List Char)
  fragment : Option (List Char)
  deriving DecidableEq, Repr

namespace Url

def httpScheme : List Char := ['h', 't', 't', 'p']
def httpsScheme : List Char := ['h', 't', 't', 'p', 's']

/-- The port that a scheme stands for, for the schemes that have a host and a path always. -/
def defaultPort? (scheme : List Char) : Option Nat :=
  if scheme = httpScheme ∨ scheme = ['w', 's'] then some 80
  else if scheme = httpsScheme ∨ scheme = ['w', 's', 's'] then some 443
  else if scheme = ['f', 't', 'p'] then some 21
  else none

/-- The port of a URL, that of its scheme if none is given. -/
def effectivePort (u : Url) : Option Nat :=
  (u.authority.bind (·.port)).or (defaultPort? u.scheme)

def host? (u : Url) : Option Host := u.authority.bind (·.host)

/-- An http or https URL with a host. -/
def isWeb (u : Url) : Bool :=
  (u.scheme == httpScheme || u.scheme == httpsScheme) && u.host?.isSome

/-- User name and password before the host. -/
def Authority.userinfoChars (a : Authority) : List Char :=
  if a.username.isEmpty && a.password.isNone then []
  else
    a.username ++ (match a.password with | some p => ':' :: p | none => []) ++ ['@']

/-- Host and port. -/
def Authority.hostChars (a : Authority) : List Char :=
  (match a.host with | some h => h.chars | none => []) ++
    (match a.port with | some p => ':' :: Text.digits p | none => [])

def Authority.chars (a : Authority) : List Char := a.userinfoChars ++ a.hostChars

def Path.chars : Path → List Char
  | .segments list => list.flatMap ('/' :: ·)
  | .rootless text => text

/-- The scheme, the colon and the authority. -/
def originChars (u : Url) : List Char :=
  u.scheme ++ ':' :: (match u.authority with | some a => '/' :: '/' :: a.chars | none => [])

/-- A query behind its question mark. -/
def queryChars (u : Url) : List Char :=
  match u.query with
  | some q => '?' :: q
  | none => []

/-- A fragment behind its mark. -/
def fragmentChars (u : Url) : List Char :=
  match u.fragment with
  | some f => '#' :: f
  | none => []

/-- The text of a URL. -/
def chars (u : Url) : List Char :=
  u.originChars ++ u.path.chars ++ u.queryChars ++ u.fragmentChars

/-- The text of a URL. -/
def text (u : Url) : String := String.ofList u.chars

/-- The URL without its fragment. -/
def withoutFragment (u : Url) : Url := { u with fragment := none }

/-- The URL without user name and password. -/
def withoutUserinfo (u : Url) : Url :=
  { u with authority := u.authority.map fun a => { a with username := [], password := none } }

end Url

end ClusterOutput
