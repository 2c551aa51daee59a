/-
What a cluster answers to writing, deleting, creating and refreshing: a record
of which every member has a default, so that any object is one.

An id may come as a string or as a whole number of 64 bits; `null` is the empty
id.
-/
import ClusterOutput.Json.Record
import ClusterOutput.Json.Write

namespace ClusterOutput

/-- The answer to an operation on one document or one index. -/
structure Acknowledgement where
  ok : Bool
  acknowledged : Bool
  index : String
  docType : String
  id : String
  source : Option Json
  version : Int
  isFound : Bool
  isThere : Bool
  isCreated : Bool
  result : Option String
  matched : List String

namespace Acknowledgement

/-- The members seen so far. -/
structure Draft where
  ok : Option Bool := none
  acknowledged : Option Bool := none
  index : Option String := none
  docType : Option String := none
  id : Option String := none
  source : Option (Option Json) := none
  version : Option Int := none
  isFound : Option Bool := none
  isThere : Option Bool := none
  isCreated : Option Bool := none
  result : Option (Option String) := none
  matched : Option (List String) := none

/-- The id that a value gives: its text, the digits of a whole number, nothing for `null`. -/
def idOf? : Json → Option String
  | .null => some ""
  | .str s => some s
  | .int i => some (Text.ofInt i)
  | _ => none

/-- An id. That a value is none is noticed after it was read. -/
def readId : Json.Reader String := fun nesting bytes => do
  let (v, rest) ← Json.readValue nesting bytes
  match idOf? v with
  | some id => .ok (id, rest)
  | none => .error (.late (.noVariant "StringOrNumber") rest)

def layout : Json.Layout Draft where
  name := "QueryResult"
  blank := {}
  closed := false
  fields :=
    [ .of "ok" false Json.readBool (·.ok) fun v d => { d with ok := some v },
      .of "acknowledged" false Json.readBool (·.acknowledged)
        fun v d => { d with acknowledged := some v },
      .of "_index" false Json.readText (·.index) fun v d => { d with index := some v },
      .of "_type" false Json.readText (·.docType) fun v d => { d with docType := some v },
      .of "_id" false readId (·.id) fun v d => { d with id := some v },
      .of "_source" false (Json.readOptional Json.readValue) (·.source)
        fun v d => { d with source := some v },
      .of "_version" false Json.readSigned (·.version) fun v d => { d with version := some v },
      .of "found" false Json.readBool (·.isFound) fun v d => { d with isFound := some v },
      .of "exists" false Json.readBool (·.isThere) fun v d => { d with isThere := some v },
      .of "created" false Json.readBool (·.isCreated) fun v d => { d with isCreated := some v },
      .of "result" false (Json.readOptional Json.readText) (·.result)
        fun v d => { d with result := some v },
      .of "matches" false (Json.readList Json.readText) (·.matched)
        fun v d => { d with matched := some v } ]

/-- Members that were not given are false, zero or empty. -/
def Draft.complete (d : Draft) : Acknowledgement where
  ok := d.ok.getD false
  acknowledged := d.acknowledged.getD false
  index := d.index.getD ""
  docType := d.docType.getD ""
  id := d.id.getD ""
  source := d.source.getD none
  version := d.version.getD 0
  isFound := d.isFound.getD false
  isThere := d.isThere.getD false
  isCreated := d.isCreated.getD false
  result := d.result.getD none
  matched := d.matched.getD []

/-- Reads an answer. -/
def decode (body : Bytes) : Except Json.Error Acknowledgement :=
  Json.decode (Json.readAs layout Draft.complete) body

/-- The answer as a value. A source and a result are left out where there is none. -/
def toJson (a : Acknowledgement) : Json :=
  .obj <|
    [("ok", .bool a.ok), ("acknowledged", .bool a.acknowledged), ("_index", .str a.index),
      ("_type", .str a.docType), ("_id", .str a.id)] ++
    (match a.source with | some v => [("_source", v)] | none => []) ++
    [("_version", .int a.version), ("found", .bool a.isFound), ("exists", .bool a.isThere),
      ("created", .bool a.isCreated)] ++
    (match a.result with | some s => [("result", .str s)] | none => []) ++
    [("matches", .arr (a.matched.map .str))]

/-- The answer as compact JSON text. -/
def text (a : Acknowledgement) : String := a.toJson.compact

end Acknowledgement

end ClusterOutput
