/-
What a cluster answers to a search. Hits and aggregations stay plain JSON.

The number of hits comes as a whole number, as a text of one, or within an
object as its member `value`; `null` stands for none.
-/
import ClusterOutput.Json.Record
import ClusterOutput.Json.Write

namespace ClusterOutput

/-- The part of an answer that holds the hits. -/
structure Hits where
  total : Nat
  maxScore : Option Binary64
  hits : List Json

/-- The answer to a search. -/
structure SearchAnswer where
  took : Nat
  timedOut : Bool
  shards : Json
  hits : Hits
  aggregations : List (String × Json)

namespace Hits

/-- No hits. -/
def nothing : Hits := ⟨0, none, []⟩

/-- The members seen so far. -/
structure Draft where
  total : Option Nat := none
  maxScore : Option (Option Binary64) := none
  hits : Option (List Json) := none

/-- A whole number of 64 bits. -/
def count? : Json → Option Nat
  | .int (.ofNat n) => some n
  | _ => none

/-- The number that the members of an object give: `value` occurs once and is a number. -/
def totalOfMembers? (members : List (String × Json)) : Option Nat :=
  match members.filter (·.1 == "value") with
  | [(_, v)] => count? v
  | _ => none

/-- The number that a value gives which is no object. -/
def totalOf (v : Json) : Except Json.Cause Nat :=
  match v with
  | .null => .ok 0
  | .int (.ofNat n) => .ok n
  | .str s =>
    match Text.readWord s with
    | .ok n => .ok n
    | .error fault => .error (.badNumber fault)
  | _ => .error (.noVariant "TotalHits")

/-- A member and its value, put before those read so far. -/
def pairInto (value : Bytes → Except Json.Fault (Json × Bytes)) (members : List (String × Json))
    (name : String) (bytes : Bytes) : Except Json.Fault (List (String × Json) × Bytes) := do
  let bytes ← Json.readColon bytes
  let (v, rest) ← value bytes
  .ok ((name, v) :: members, rest)

/-- The number of hits. That a value is none is noticed after it was read. -/
def readTotal : Json.Reader Nat := fun nesting bytes =>
  let plain : Except Json.Fault (Nat × Bytes) := do
    let (v, rest) ← Json.readValue nesting bytes
    match totalOf v with
    | .ok n => .ok (n, rest)
    | .error cause => .error (.late cause rest)
  match Json.skipSpace bytes, nesting with
  | b :: rest, nesting + 1 =>
    if b = Json.openCurly then do
      let (members, rest) ←
        Json.readMembers (pairInto (Json.readValue nesting)) rest true [] rest
      match totalOfMembers? members with
      | some n => .ok (n, rest)
      | none => .error (.late (.noVariant "TotalHits") rest)
    else plain
  | _, _ => plain

def layout : Json.Layout Draft where
  name := "Hits"
  blank := {}
  closed := false
  fields :=
    [ .of "total" false readTotal (·.total) fun v d => { d with total := some v },
      .of "max_score" false (Json.readOptional Json.readFloat) (·.maxScore)
        fun v d => { d with maxScore := some v },
      .of "hits" false (Json.readList Json.readValue) (·.hits)
        fun v d => { d with hits := some v } ]

def Draft.complete (d : Draft) : Hits where
  total := d.total.getD 0
  maxScore := d.maxScore.getD none
  hits := d.hits.getD []

def toJson (h : Hits) : Json :=
  .obj
    [("total", .int h.total),
      ("max_score", match h.maxScore with | some x => .float x | none => .null),
      ("hits", .arr h.hits)]

end Hits

namespace SearchAnswer

/-- The members seen so far. -/
structure Draft where
  took : Option Nat := none
  timedOut : Option Bool := none
  shards : Option Json := none
  hits : Option Hits := none
  aggregations : Option (List (String × Json)) := none

def layout : Json.Layout Draft where
  name := "SearchResults"
  blank := {}
  closed := false
  fields :=
    [ .of "took" false (Json.readUnsigned "u64") (·.took) fun v d => { d with took := some v },
      .of "timed_out" false Json.readBool (·.timedOut) fun v d => { d with timedOut := some v },
      .of "_shards" false Json.readValue (·.shards) fun v d => { d with shards := some v },
      .of "hits" false (Json.readAs Hits.layout Hits.Draft.complete) (·.hits)
        fun v d => { d with hits := some v },
      .of "aggregations" false Json.readMap (·.aggregations)
        fun v d => { d with aggregations := some v } ]

/-- Members that were not given are zero, false, `null` or empty. -/
def Draft.complete (d : Draft) : SearchAnswer where
  took := d.took.getD 0
  timedOut := d.timedOut.getD false
  shards := d.shards.getD .null
  hits := d.hits.getD Hits.nothing
  aggregations := d.aggregations.getD []

/-- Reads an answer. -/
def decode (body : Bytes) : Except Json.Error SearchAnswer :=
  Json.decode (Json.readAs layout Draft.complete) body

/-- The answer as a value. -/
def toJson (a : SearchAnswer) : Json :=
  .obj
    [("took", .int a.took), ("timed_out", .bool a.timedOut), ("_shards", a.shards),
      ("hits", a.hits.toJson), ("aggregations", .obj a.aggregations)]

/-- What a hit was found in: its member `_source`, or the hit itself where it has none. -/
def documentOf (hit : Json) : Json := (hit.member? "_source").getD hit

end SearchAnswer

end ClusterOutput
