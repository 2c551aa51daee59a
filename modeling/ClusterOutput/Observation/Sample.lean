/-
What is measured: attempts, their durations, retries, errors, and connections
that turn live or dead.

Labels come from small fixed sets, apart from the method: paths and the names in
them are never labels.
-/
import ClusterOutput.Pool.Basic
import ClusterOutput.RequestError

namespace ClusterOutput

/-- What a request is for. -/
inductive Operation where
  | request
  | index
  | delete
  | createIndex
  | refresh
  | search
  deriving DecidableEq, Repr

def Operation.label : Operation → String
  | request => "request"
  | index => "index"
  | delete => "delete"
  | createIndex => "create_index"
  | refresh => "refresh"
  | search => "search"

/-- The kinds of errors that are counted apart. -/
inductive ErrorCategory where
  | transport
  | unhealthyAnswer
  | serialization
  | decode
  | configuration
  | cancelled
  | unknown
  deriving DecidableEq, Repr

namespace ErrorCategory

def label : ErrorCategory → String
  | transport => "transport"
  | unhealthyAnswer => "http_5xx"
  | serialization => "serialization"
  | decode => "decode"
  | configuration => "configuration"
  | cancelled => "cancelled"
  | unknown => "unknown"

/-- All categories, in their order. -/
def all : List ErrorCategory :=
  [transport, unhealthyAnswer, serialization, decode, configuration, cancelled, unknown]

/-- The category of an error. That all attempts failed counts as the last failure. -/
def of : RequestError → ErrorCategory
  | .transport .. => transport
  | .serverError .. => unhealthyAnswer
  | .serialization _ => serialization
  | .decode .. => decode
  | .noConnections | .invalidUrl _ => configuration
  | .cancelled => cancelled
  | .retriesExhausted _ (some last) => of last
  | .retriesExhausted _ none => unknown

end ErrorCategory

/-- One measurement. -/
inductive Sample where
  /-- An attempt starts. -/
  | attempt (operation : Operation) (method : String)
  /-- An attempt had a status, or failed without one. -/
  | duration (operation : Operation) (method : String) (status : Option Nat)
  /-- An attempt of this number is to start, after another failed. -/
  | retry (operation : Operation) (method : String) (number : Nat)
  | error (operation : Operation) (method : String) (category : ErrorCategory)
  | transition (status : HealthStatus)
  deriving DecidableEq, Repr

namespace Sample

/-- The text of a measurement under a name: labels in braces. -/
def labelled (name : String) (labels : List (String × String)) : String :=
  name ++ "\x7b" ++ ",".intercalate (labels.map fun l => l.1 ++ "=" ++ l.2) ++ "\x7d"

/-- A measurement with its labels. Those that count go up by one; durations have no value here. -/
def text : Sample → String
  | attempt op method =>
    labelled "es_output_requests_total" [("operation", op.label), ("method", method)] ++ " +1"
  | duration op method status =>
    labelled "es_output_request_duration_seconds"
      [("operation", op.label), ("method", method),
        ("status", match status with | some n => Text.ofNat n | none => "error")]
  | retry op method number =>
    labelled "es_output_retries_total"
      [("operation", op.label), ("method", method), ("attempt", Text.ofNat number)] ++ " +1"
  | error op method category =>
    labelled "es_output_errors_total"
      [("operation", op.label), ("method", method), ("error_category", category.label)] ++ " +1"
  | transition status =>
    labelled "es_output_connection_health_transitions_total" [("to", status.label)] ++ " +1"

end Sample

/-- Takes measurements, if it is enabled. -/
structure Collector where
  isEnabled : Bool
  deriving DecidableEq, Repr

def Collector.enabled : Collector := ⟨true⟩

def Collector.disabled : Collector := ⟨false⟩

/-- The collector that is used where none is chosen takes no measurements. -/
instance : Inhabited Collector := ⟨.disabled⟩

/-- The measurements that a collector, if there is one, keeps of some. -/
def Collector.keep (collector : Option Collector) (samples : List Sample) : List Sample :=
  if collector.any (·.isEnabled) then samples else []

end ClusterOutput
