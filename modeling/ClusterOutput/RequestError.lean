/-
The ways in which a request to a cluster ends without its answer.

Two of them are failures of one node, and the request is tried again on
another: no answer came, or one with a status above 499. The others end the
request at once, or say that all attempts failed.
-/
import ClusterOutput.Http.Exchange
import ClusterOutput.Json.Fault

namespace ClusterOutput

/-- Why a request did not succeed. -/
inductive RequestError where
  /-- The pool is empty. -/
  | noConnections
  /-- No answer came from a node, or not the whole of it. -/
  | transport (url : String) (failure : Http.Failure)
  /-- A node answered with a status above 499. -/
  | serverError (status : Nat) (url : String) (message : String)
  /-- The body of the request has no encoding. -/
  | serialization (error : Json.Error)
  /-- The answer is not what was asked for. -/
  | decode (target : String) (error : Json.Error)
  /-- All attempts failed, the last one with `last`. -/
  | retriesExhausted (attempts : Nat) (last : Option RequestError)
  | invalidUrl (message : String)
  | cancelled

namespace RequestError

def message : RequestError → String
  | noConnections => "No connections configured"
  | transport url failure => "Transport error for " ++ url ++ ": " ++ failure.message
  | serverError status url message =>
    "Server error (" ++ Text.ofNat status ++ ") at " ++ url ++ ": " ++ message
  | serialization error => "Failed to serialize request body: " ++ error.message
  | decode target error => "Failed to decode " ++ target ++ ": " ++ error.message
  | retriesExhausted attempts none => exhausted attempts
  | retriesExhausted attempts (some last) => exhausted attempts ++ ": " ++ last.message
  | invalidUrl message => "Invalid URL: " ++ message
  | cancelled => "Request cancelled"
where
  exhausted (attempts : Nat) : String :=
    "Request fails to be sent after " ++ Text.ofNat attempts ++ " retries"

/-- A failure of one node: another may do. -/
def isTransient : RequestError → Bool
  | transport .. | serverError .. => true
  | _ => false

/-- The status that a node answered with, if one did. -/
def status? : RequestError → Option Nat
  | serverError status _ _ => some status
  | retriesExhausted _ (some last) => last.status?
  | _ => none

/-- All attempts failed. -/
def isExhaustion : RequestError → Bool
  | retriesExhausted .. => true
  | _ => false

end RequestError

/-- A status that says the node itself failed. Lower ones are answers, whatever they say. -/
def isUnhealthyStatus (status : Nat) : Bool := 499 < status

end ClusterOutput
