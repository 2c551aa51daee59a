/-
Clients, and what they carry with their requests.

Clients of one session share its pool. A client that carries the token of its
run gives up once the run is cancelled; one without does not notice.
-/
import ClusterOutput.Duration
import ClusterOutput.Json.Write
import ClusterOutput.Session

namespace ClusterOutput

/-- The settings of a client. -/
structure Client where
  /-- The most attempts for one request. -/
  maxRetries : Nat
  /-- The pause between two attempts. -/
  backoff : Duration
  collector : Option Collector
  carriesToken : Bool
  deriving DecidableEq, Repr

/-- What a request carries: a JSON value, or a map with names that are no texts, which has no
encoding. -/
inductive Body where
  | json (v : Json)
  | oddNames

/-- The bytes of a body. -/
def Body.encode : Body → Except Json.Error Bytes
  | json v => .ok (Utf8.encodeChars v.write)
  | oddNames => .error ⟨.keyMustBeString, 0, 0⟩

namespace Client

/-- The client has to give up. -/
def givesUp (c : Client) (s : Session) : Bool := c.carriesToken && s.isCancelled

/-- Sets the number of attempts. -/
def setMaxRetries (c : Client) (n : Nat) (s : Session) : Client × Session :=
  ({ c with maxRetries := n }, if n = 0 then s.log .attemptsSetToNone else s)

/-- Counts an error, and measures it. -/
def noteError (c : Client) (world : World) (op : Operation) (method : String) (e : RequestError)
    (s : Session) : Session :=
  let s := s.record c.collector [.error op method (.of e)]
  let n := s.journal.errors + 1
  { s with journal := { s.journal with errors := n } }.pass world (.error n)

/-- Counts an attempt after a failed one, and measures it. -/
def noteRetry (c : Client) (world : World) (op : Operation) (method : String) (number : Nat)
    (s : Session) : Session :=
  let s := s.record c.collector [.retry op method number]
  let n := s.journal.retries + 1
  { s with journal := { s.journal with retries := n } }.pass world (.pause n)

end Client

end ClusterOutput
