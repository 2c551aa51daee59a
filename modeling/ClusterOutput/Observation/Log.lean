/-
The log: a line for each event that concerns the user, as text or as JSON.
-/
import ClusterOutput.Json.Write
import ClusterOutput.Observation.Event

namespace ClusterOutput

namespace Event

/-- Warnings are shown, and what is less is not. -/
def isShown (e : Event) : Bool := e.level == .warn

/-- The event as a line of text: its level, its message and its fields. -/
def line (e : Event) : String :=
  e.level.label ++ " " ++ e.message ++
    String.join (e.fields.map fun f => " " ++ f.1 ++ "=" ++ f.2) ++ "\n"

/-- The event as a line of JSON. -/
def jsonLine (e : Event) : String :=
  let fields := ("message", e.message) :: e.fields
  let members := fields.map fun f => (f.1, Json.str f.2)
  (Json.obj [("level", .str e.level.label), ("fields", .obj members)]).compact ++ "\n"

/-- The log of events. -/
def log (asJson : Bool) (events : List Event) : String :=
  String.join ((events.filter isShown).map (if asJson then jsonLine else line))

end Event

end ClusterOutput
