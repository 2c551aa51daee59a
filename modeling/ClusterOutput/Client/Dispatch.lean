/-
Requests: a request is tried on one connection after another until a node
answers it.

An attempt ends in a failure of the node, which marks its connection dead and
calls for another, or in an answer with a status below 500, whatever it says,
which marks it live. What is wrong with the request itself ends it before any
attempt or at once. An attempt that is cancelled marks nothing.
-/
import ClusterOutput.Client.Basic
import ClusterOutput.Url.Form

namespace ClusterOutput.Client

/-- Where an attempt goes: the connection's URL, the path, and the query if there is one. -/
def target (base path : String) (query : Option String) : Except RequestError Url :=
  let text := base ++ path ++ (match query with | some q => "?" ++ q | none => "")
  match Url.parse text with
  | .ok url => .ok url
  | .error fault => .error (.invalidUrl (text ++ ": " ++ fault.message))

/-- What comes after an answer has its status: one above 499 is a failure of the node, and so is
a body that breaks off. -/
def answered (c : Client) (conn : Connection) (url final : Url) (status : Nat)
    (body : Option Bytes) (s : Session) : Except RequestError Bytes × Session :=
  if isUnhealthyStatus status then
    (.error (.serverError status url.text (Utf8.decodeLossy (body.getD []))),
      s.markDead c.collector conn)
  else
    match body with
    | some bytes => (.ok bytes, s.markLive c.collector conn)
    | none => (.error (.transport url.text (.brokenBody final)), s.markDead c.collector conn)

/-- No answer came. -/
def unanswered (c : Client) (op : Operation) (method : String) (conn : Connection) (url : Url)
    (failure : Http.Failure) (s : Session) : Except RequestError Bytes × Session :=
  (.error (.transport url.text failure),
    (s.record c.collector [.duration op method none]).markDead c.collector conn)

/-- One attempt on a connection. An attempt that is `watched` ends when the run is cancelled
while it waits for its answer or for the rest of it; any other waits until it fails. -/
def attempt (c : Client) (world : World) (watched : Bool) (op : Operation) (conn : Connection)
    (method : String) (url : Url) (payload : Option Bytes) (s : Session) :
    Except RequestError Bytes × Session :=
  let s := s.record c.collector [.attempt op method]
  let request := Http.Request.make method url conn.credentials payload
  let (reply, wire) := Http.send world.network s.journal.wire request
  let s := { s with journal :=
    { s.journal with
      sent := s.journal.sent ++ [⟨conn, url, request, reply⟩]
      wire := wire } }
  match reply with
  | .interrupted =>
    let s := { s with isCancelled := true }
    if watched then (.error .cancelled, s)
    else c.unanswered op method conn url (.unsent request.url) s
  | .failed failure => c.unanswered op method conn url failure s
  | .answered status final body =>
    c.answered conn url final status body (s.record c.collector [.duration op method (some status)])
  | .cut status final =>
    let s := { s with isCancelled := true }.record c.collector [.duration op method (some status)]
    if watched then (.error .cancelled, s) else c.answered conn url final status none s

/-- One attempt on a connection of the caller's choice, on behalf of no other request. -/
def perform (c : Client) (world : World) (conn : Connection) (method : String) (url : Url)
    (payload : Option Bytes) (s : Session) : Except RequestError Bytes × Session :=
  c.attempt world false .request conn method url payload s

/-- A request whose body is encoded. -/
structure Call where
  operation : Operation
  method : String
  path : String
  query : Option String
  payload : Option Bytes

/-- The attempt of this number comes after a failed one. -/
def isRetry (number : Nat) : Bool := decide (1 < number)

/-- What comes before the exchange of an attempt: the pause before a retry, a connection, and the
URL there. -/
def prepare (c : Client) (world : World) (call : Call) (number : Nat) (s : Session) :
    Except RequestError (Connection × Url) × Session :=
  if c.givesUp s then (.error .cancelled, s)
  else
    let s := if isRetry number then c.noteRetry world call.operation call.method number s else s
    if isRetry number && !c.backoff.isZero && c.givesUp s then (.error .cancelled, s)
    else
      match s.take? with
      | none => (.error .noConnections, s)
      | some (conn, s) =>
        match target conn.url call.path call.query with
        | .error e => (.error e, s)
        | .ok url =>
          let s := s.log (.sending number c.maxRetries call.method url.text)
          if c.givesUp s then (.error .cancelled, s) else (.ok (conn, url), s)

/-- The exchange of an attempt, and what is noted of its end. A failure is counted. -/
def tryOn (c : Client) (world : World) (call : Call) (number : Nat) (conn : Connection) (url : Url)
    (s : Session) : Except RequestError Bytes × Session :=
  match
    c.attempt world c.carriesToken call.operation conn call.method url call.payload s
  with
  | (.ok bytes, s) => (.ok bytes, if isRetry number then s.log (.succeededAfterRetry number) else s)
  | (.error .cancelled, s) => (.error .cancelled, s)
  | (.error e, s) =>
    let s := s.log (.attemptFailed number c.maxRetries conn.url e)
    (.error e, c.noteError world call.operation call.method e s)

/-- The end of a request for which no attempt is left. -/
def giveUp (c : Client) (call : Call) (last : Option RequestError) (s : Session) :
    Except RequestError Bytes × Session :=
  (.error (.retriesExhausted c.maxRetries last), s.log (.givenUp c.maxRetries call.method call.path))

/-- The attempts of a request from the `number`-th on, `left` of which may still be made. -/
def attempts (c : Client) (world : World) (call : Call) :
    (left number : Nat) → Option RequestError → Session →
      Except RequestError Bytes × Session
  | 0, _, last, s => c.giveUp call last s
  | left + 1, number, _, s =>
    match c.prepare world call number s with
    | (.error e, s) => (.error e, s)
    | (.ok (conn, url), s) =>
      match c.tryOn world call number conn url s with
      | (.ok bytes, s) => (.ok bytes, s)
      | (.error .cancelled, s) => (.error .cancelled, s)
      | (.error e, s) => c.attempts world call left (number + 1) (some e) s

/-- The query of parameters: none where there are no parameters. -/
def queryOf (params : Option Url.Params) : Option String :=
  match params with
  | none | some [] => none
  | some params => some params.encode

/-- The bytes of what a request carries, if it carries anything. -/
def payloadOf (body : Option Body) : Except Json.Error (Option Bytes) :=
  match body with
  | none => .ok none
  | some body => body.encode.map some

/-- A request from the encoding of its body on. -/
def dispatch (c : Client) (world : World) (op : Operation) (method path : String)
    (params : Option Url.Params) (body : Option Body) (s : Session) :
    Except RequestError Bytes × Session :=
  match payloadOf body with
  | .error e => (.error (.serialization e), s)
  | .ok payload =>
    c.attempts world ⟨op, method, path, queryOf params, payload⟩ c.maxRetries 1 none s

/-- What is noted of the end of a request. Errors of attempts are counted as they happen; here the
error that ends the request is, unless it only says that all attempts failed. -/
def conclude (c : Client) (world : World) (op : Operation) (method : String) :
    Except RequestError Bytes × Session → Except RequestError Bytes × Session
  | (.error e, s) => (.error e, if e.isExhaustion then s else c.noteError world op method e s)
  | (.ok bytes, s) => (.ok bytes, s)

/-- A request on behalf of an operation. -/
def requestAs (c : Client) (world : World) (op : Operation) (method path : String)
    (params : Option Url.Params) (body : Option Body) (s : Session) :
    Except RequestError Bytes × Session :=
  c.conclude world op method (c.dispatch world op method path params body s)

/-- A request: the bytes of an answer with a status below 500. -/
def request (c : Client) (world : World) (method path : String) (params : Option Url.Params)
    (body : Option Body) (s : Session) : Except RequestError Bytes × Session :=
  c.requestAs world .request method path params body s

end ClusterOutput.Client
