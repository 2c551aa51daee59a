/-
Sending a request: one exchange with a host, and more where the answer is a
redirect.

At most five redirects are followed. A redirect that says so turns the method
into GET and drops the body; authorization is left out of a hop to another host
or port than the one before. Answers to HEAD, 204 and 304 have no body.
-/
import ClusterOutput.Http.Exchange

namespace ClusterOutput.Http

/-- The longest URL that can be sent. -/
def longestUrl : Nat := 65534

/-- Characters that a domain name of a URL may hold but a request may not. -/
def isUnsendable (c : Char) : Bool := c == '"' || c == '\x60' || c == '\x7b' || c == '\x7d'

/-- A request can be made to the URL. -/
def isSendable (url : Url) : Bool :=
  url.isWeb && !(url.host?.any fun h => h.chars.any isUnsendable) && url.chars.length ≤ longestUrl

/-- How many redirects are followed. -/
def redirectLimit : Nat := 5

/-- What the answers to a request come to in the end. -/
inductive Reply where
  | failed (failure : Failure)
  | interrupted
  /-- An answer that is no redirect, with the URL that gave it and its body if that was whole. -/
  | answered (status : Nat) (url : Url) (body : Option Bytes)
  /-- An answer that is no redirect; the run was interrupted before the end of its body. -/
  | cut (status : Nat) (url : Url)

/-- The answer has no body whatever it says. -/
def isBodiless (method : String) (status : Nat) : Bool :=
  method == "HEAD" || status == 204 || status == 304

/-- Methods that a redirect of this status turns into GET, the body being dropped. -/
def turnsToGet (status : Nat) (method : String) : Bool :=
  (status == 301 || status == 302) && method == "POST" || status == 303

def isRedirect (status : Nat) : Bool :=
  status == 301 || status == 302 || status == 303 || status == 307 || status == 308

/-- The request of the next hop, before headers are left out of it. -/
def redirected (status : Nat) (target : Url) (r : Request) : Request :=
  if turnsToGet status r.method then
    { r with
      method := if status = 303 ∧ r.method = "HEAD" then "HEAD" else "GET"
      url := target
      headers := { r.headers with contentType := [] }
      body := none }
  else { r with url := target }

/-- Both URLs lead to one host and port. -/
def sameHost (a b : Url) : Bool := a.host? == b.host? && a.effectivePort == b.effectivePort

/-- The request as it goes from one URL to another: authorization stays with the host. -/
def Request.leaving (r : Request) (previous : Url) : Request :=
  if sameHost r.url previous then r
  else { r with headers := { r.headers with authorization := [] } }

/-- Characters of a reference without authority that still counts as an address. -/
def isAddressChar (c : Char) : Bool :=
  Url.isAsciiLetter c || Url.isAsciiDigit c || "!$&'()*+,-.:;=@_~".toList.contains c

/-- A redirect to a target of a scheme that is not spoken fails, unless the target is no address
at all: then the answer stands as it is. -/
def isForeignAddress (target : Url) : Bool :=
  match target.authority with
  | some a => a.host.isSome
  | none => target.chars.all isAddressChar && (target.chars.filter (· == ':')).length ≤ 1

/-- One exchange: what it comes to, and the exchanges so far with it. A URL that leads to no host
takes none. -/
def exchange (net : Network) (wire : List Request) (r : Request) : Outcome × List Request :=
  if net.reaches r.url then (net.reply wire.length r, wire ++ [r]) else (.drop, wire)

/-- The target of a redirect. -/
inductive Target where
  /-- The answer is no redirect that can be followed. -/
  | stays
  /-- An address of a scheme that is not spoken. -/
  | foreign (url : Url)
  | web (url : Url)

/-- Where an answer sends a request on to. -/
def targetOf (r : Request) (status : Nat) (location : Option String) : Target :=
  if isRedirect status then
    match location with
    | none => .stays
    | some l =>
      match Url.resolve r.url.withoutFragment l with
      | .error _ => .stays
      | .ok target =>
        let target := target.withoutFragment
        if target.isWeb then
          if isSendable target then .web target else .stays
        else if isForeignAddress target then .foreign target
        else .stays
  else .stays

/-- What one exchange answers to a request that was first sent to `origin`, if it is not sent on. -/
def Outcome.reply (origin : Url) (current : Request) : Outcome → Reply
  | .drop => .failed (.unsent origin)
  | .interrupted => .interrupted
  | .answer status body _ whole =>
    .answered status current.url.withoutFragment
      (if isBodiless current.method status then some [] else if whole then some body else none)
  | .cut status _ =>
    if isBodiless current.method status then
      .answered status current.url.withoutFragment (some [])
    else .cut status current.url.withoutFragment

/-- Follows a request through its redirects, `left` of which may still come. `held` is the request
with all its headers. -/
def follow (net : Network) (origin : Url) :
    (left : Nat) → (held current : Request) → (wire : List Request) → Reply × List Request
  | left, held, current, wire =>
    let (outcome, wire) := exchange net wire current
    let final := (outcome.reply origin current, wire)
    match outcome.head? with
    | none => final
    | some (status, location) =>
      match targetOf current status location with
      | .stays => final
      | .foreign target =>
        match left with
        | 0 => (.failed (.tooManyRedirects current.url.withoutFragment), wire)
        | _ + 1 => (.failed (.unaddressable target), wire)
      | .web target =>
        match left with
        | 0 => (.failed (.tooManyRedirects current.url.withoutFragment), wire)
        | left + 1 =>
          let held := redirected status target held
          follow net origin left held (held.leaving current.url) wire

/-- Sends a request, given the exchanges so far. -/
def send (net : Network) (wire : List Request) (r : Request) : Reply × List Request :=
  if isSendable r.url then follow net r.url redirectLimit r r wire
  else (.failed (.unaddressable r.url), wire)

end ClusterOutput.Http
