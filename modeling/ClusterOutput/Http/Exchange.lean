/-
Requests as they are handed to the transport, what one exchange with a host can
come to, and why there may be no answer.
-/
import ClusterOutput.Credentials
import ClusterOutput.Url.Parse

namespace ClusterOutput.Http

/-- The headers that a request carries, each with its values in order. -/
structure Headers where
  accept : List String
  contentType : List String
  authorization : List String
  deriving DecidableEq

/-- A request. -/
structure Request where
  method : String
  url : Url
  headers : Headers
  body : Option Bytes
  deriving DecidableEq

/-- The media type of every request and body. -/
def jsonType : String := "application/json"

/-- The user name and the password that a URL carries, decoded; none if the name is not UTF-8 or
neither is there. -/
def userinfo? (url : Url) : Option (String × Option String) :=
  match url.authority with
  | none => none
  | some a =>
    match Utf8.decode? (Url.decodeText a.username) with
    | none => none
    | some username =>
      let password := a.password.bind fun p => Utf8.decode? (Url.decodeText p)
      if username = "" ∧ password = none then none else some (username, password)

/-- A request to a URL. What the URL carries before its host becomes a header of its own, in
front of the one for the connection's credentials. -/
def Request.make (method : String) (url : Url) (credentials : Option Credentials)
    (body : Option Bytes) : Request :=
  let fromUrl := userinfo? url
  { method := method
    url := match fromUrl with | some _ => url.withoutUserinfo | none => url
    headers :=
      { accept := [jsonType]
        contentType := match body with | some _ => [jsonType] | none => []
        authorization :=
          (match fromUrl with | some (u, p) => [basicAuthorization u (p.getD "")] | none => []) ++
          (match credentials with | some c => [c.authorization] | none => []) }
    body := body }

/-- Why an exchange gave no answer, or no whole one. -/
inductive Failure where
  /-- The URL has a host that cannot be addressed, or a scheme that is not spoken. -/
  | unaddressable (url : Url)
  | unsent (url : Url)
  | tooManyRedirects (url : Url)
  | brokenBody (url : Url)

def Failure.url : Failure → Url
  | .unaddressable url | .unsent url | .tooManyRedirects url | .brokenBody url => url

def Failure.kind : Failure → String
  | .unaddressable _ => "builder error"
  | .unsent _ => "error sending request"
  | .tooManyRedirects _ => "error following redirect"
  | .brokenBody _ => "error decoding response body"

def Failure.message (f : Failure) : String := f.kind ++ " for url (" ++ f.url.text ++ ")"

/-- What one exchange comes to. -/
inductive Outcome where
  /-- An answer, whose body may break off. -/
  | answer (status : Nat) (body : Bytes) (location : Option String) (whole : Bool)
  /-- The connection closes without an answer. -/
  | drop
  /-- No answer comes; the run is interrupted meanwhile. -/
  | interrupted
  /-- The head of an answer comes, and not the end of its body; the run is interrupted meanwhile. -/
  | cut (status : Nat) (location : Option String)

/-- The status of an answer and where it sends the request on to, if there is an answer. -/
def Outcome.head? : Outcome → Option (Nat × Option String)
  | .answer status _ location _ | .cut status location => some (status, location)
  | .drop | .interrupted => none

/-- What requests meet: which URLs lead to a host at all, and what the n-th exchange comes to. -/
structure Network where
  reaches : Url → Bool
  reply : Nat → Request → Outcome

/-- A network in which no host can be reached. -/
def Network.dead : Network := ⟨fun _ => false, fun _ _ => .drop⟩

/-- A network that answers over plain connections by a script, and closes them once the script
is used up. -/
def Network.scripted (script : List Outcome) : Network where
  reaches url := url.scheme == Url.httpScheme
  reply n _ := script.getD n .drop

end ClusterOutput.Http
