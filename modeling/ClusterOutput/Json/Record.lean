/-
Reading records: from a map, by the names of their members in any order, or
from a sequence, by their places.

A member may occur once. Members of unknown names are passed over, or refused.
What a record lacks is a fault unless it has a default; a sequence may leave
out members with defaults at its end, and may not have more items than the
record has members.

Faults without a place of their own are placed here (`settle`): behind the
white space that follows, and behind the closing bracket if it comes next.
-/
import ClusterOutput.Json.Read
import ClusterOutput.Json.Skip

namespace ClusterOutput.Json

/-- A member of a record that is being filled in. -/
structure Field (σ : Type) where
  name : String
  /-- A record without it is a fault. -/
  required : Bool
  isSet : σ → Bool
  read : Reader (σ → σ)

/-- How a record is read: the draft it starts from, its members in their order, and whether
members of other names are refused. -/
structure Layout (σ : Type) where
  name : String
  blank : σ
  fields : List (Field σ)
  closed : Bool

/-- A field that reads a value and puts it where `get` finds it. -/
def Field.of {σ α : Type} (name : String) (required : Bool) (read : Reader α)
    (get : σ → Option α) (put : α → σ → σ) : Field σ where
  name := name
  required := required
  isSet s := (get s).isSome
  read := fun nesting bytes => do
    let (v, rest) ← read nesting bytes
    .ok (put v, rest)

/-- Places a fault that has no place, behind an opening bracket. -/
def settle (bracket : Bracket) : Fault → Fault
  | .placed cause unread => .placed cause unread
  | .late cause rest =>
    match bracket, skipSpace rest with
    | _, [] => .placed cause 0
    | .curly, b :: rest =>
      .placed cause (if b = closeCurly then rest.length else rest.length + 1)
    | .square, b :: rest =>
      .placed cause
        (if b = closeSquare then rest.length
        else if b = commaByte then (skipSpace rest).length
        else rest.length + 1)

/-- What a reader gives, with its fault placed. -/
def settled {α : Type} (bracket : Bracket) : Except Fault α → Except Fault α
  | .ok a => .ok a
  | .error fault => .error (settle bracket fault)

/-- Takes in a member: passes over it if its name is unknown, and else fills in the draft. -/
def Layout.member {σ : Type} (layout : Layout σ) (nesting : Nat) (draft : σ) (name : String)
    (bytes : Bytes) : Except Fault (σ × Bytes) :=
  match layout.fields.find? (·.name == name) with
  | none =>
    if layout.closed then .error (.late (.unknownField name (layout.fields.map (·.name))) bytes)
    else do
      let bytes ← readColon bytes
      .ok (draft, ← skipValue bytes)
  | some field =>
    if field.isSet draft then .error (.late (.duplicateField name) bytes)
    else do
      let bytes ← readColon bytes
      let (fill, rest) ← field.read nesting bytes
      .ok (fill draft, rest)

/-- The first member that is required and was not given. -/
def Layout.missing? {σ : Type} (layout : Layout σ) (draft : σ) : Option String :=
  (layout.fields.find? fun f => f.required && !f.isSet draft).map (·.name)

/-- Fills in a draft from the items of a sequence, `index` of which were read. The end of the
items leaves the rest to defaults. -/
def Layout.fillItems {σ : Type} (layout : Layout σ) (nesting index : Nat) (draft : σ) :
    List (Field σ) → Bytes → Except Fault (σ × Bytes)
  | [], bytes =>
    match skipSpace bytes with
    | [] => stopAtNext .eofList []
    | b :: rest =>
      if b = closeSquare then .ok (draft, rest)
      else if b = commaByte then
        match skipSpace rest with
        | [] => stopAtNext .trailingCharacters []
        | c :: rest =>
          if c = closeSquare then stopAtNext .trailingComma (c :: rest)
          else stopAtNext .trailingCharacters (c :: rest)
      else stopAtNext .trailingCharacters (b :: rest)
  | field :: fields, bytes => do
    match ← nextItem (index == 0) bytes with
    | .close rest =>
      match (field :: fields).findIdx? (·.required) with
      | none => .ok (draft, rest)
      | some k => stop (.invalidLength (index + k) layout.name layout.fields.length) rest
    | .item bytes =>
      let (fill, rest) ← field.read nesting bytes
      layout.fillItems nesting (index + 1) (fill draft) fields rest

/-- A draft of the record, filled in from a map or a sequence. -/
def readRecord {σ : Type} (layout : Layout σ) : Reader σ := fun nesting bytes =>
  match skipSpace bytes with
  | [] => stopAtNext .eofValue []
  | b :: rest =>
    if b = openSquare then
      match nesting with
      | 0 => stopAtNext .recursionLimit (b :: rest)
      | nesting + 1 =>
        settled .square (layout.fillItems nesting 0 layout.blank layout.fields rest)
    else if b = openCurly then
      match nesting with
      | 0 => stopAtNext .recursionLimit (b :: rest)
      | nesting + 1 =>
        settled .curly do
          let (draft, rest) ← readMembers (layout.member nesting) rest true layout.blank rest
          match layout.missing? draft with
          | some name => stop (.missingField name) rest
          | none => .ok (draft, rest)
    else wrongKind ("struct " ++ layout.name) (b :: rest)

/-- A record, read as a draft and then completed by its defaults. -/
def readAs {σ α : Type} (layout : Layout σ) (complete : σ → α) : Reader α := fun nesting bytes => do
  let (draft, rest) ← readRecord layout nesting bytes
  .ok (complete draft, rest)

end ClusterOutput.Json
