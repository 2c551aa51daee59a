/-
Reading JSON values from bytes: any value, or one of a wanted kind.

A reader takes the nesting it may still open. The outermost value may open 127
brackets, one within another; the next is a fault. Loops over the items of a
sequence and the members of a map take one turn for each byte that was there
when they began, which is enough: each turn reads one at least.
-/
import ClusterOutput.Json.Lexeme

namespace ClusterOutput.Json

/-- Reads a value, given the nesting it may open. -/
abbrev Reader (α : Type) := Nat → Bytes → Except Fault (α × Bytes)

/-- The nesting that a whole text may open. -/
def nestingLimit : Nat := 127

def openSquare : UInt8 := 0x5b
def closeSquare : UInt8 := 0x5d
def openCurly : UInt8 := 0x7b
def closeCurly : UInt8 := 0x7d
def commaByte : UInt8 := 0x2c
def colonByte : UInt8 := 0x3a

/-! ## Sequences and maps -/

/-- Where a sequence stands: at its end, or before an item. -/
inductive NextItem where
  | close (rest : Bytes)
  | item (bytes : Bytes)

/-- Looks for the next item, behind a comma unless it is the first. -/
def nextItem (first : Bool) (bytes : Bytes) : Except Fault NextItem :=
  match skipSpace bytes with
  | [] => stopAtNext .eofList []
  | b :: rest =>
    if b = closeSquare then .ok (.close rest)
    else if first then .ok (.item (b :: rest))
    else if b = commaByte then
      match skipSpace rest with
      | [] => stopAtNext .eofValue []
      | c :: rest =>
        if c = closeSquare then stopAtNext .trailingComma (c :: rest) else .ok (.item (c :: rest))
    else stopAtNext .expectedListCommaOrEnd (b :: rest)

/-- The items up to the closing bracket. -/
def readItems {α : Type} (item : Bytes → Except Fault (α × Bytes)) :
    (turns : Bytes) → (first : Bool) → Bytes → Except Fault (List α × Bytes)
  | [], _, bytes => stopAtNext .eofList bytes
  | _ :: turns, first, bytes => do
    match ← nextItem first bytes with
    | .close rest => .ok ([], rest)
    | .item bytes =>
      let (v, rest) ← item bytes
      let (vs, rest) ← readItems item turns false rest
      .ok (v :: vs, rest)

/-- Where a map stands: at its end, or behind the opening quote of a name. -/
inductive NextName where
  | close (rest : Bytes)
  | name (bytes : Bytes)

/-- Looks for the next name, behind a comma unless it is the first. -/
def nextName (first : Bool) (bytes : Bytes) : Except Fault NextName :=
  match skipSpace bytes with
  | [] => stopAtNext .eofObject []
  | b :: rest =>
    if b = closeCurly then .ok (.close rest)
    else if first then
      if b = quoteByte then .ok (.name rest) else stopAtNext .keyMustBeString (b :: rest)
    else if b = commaByte then
      match skipSpace rest with
      | [] => stopAtNext .eofValue []
      | c :: rest =>
        if c = quoteByte then .ok (.name rest)
        else if c = closeCurly then stopAtNext .trailingComma (c :: rest)
        else stopAtNext .keyMustBeString (c :: rest)
    else stopAtNext .expectedObjectCommaOrEnd (b :: rest)

/-- The colon behind a name. -/
def readColon (bytes : Bytes) : Except Fault Bytes :=
  match skipSpace bytes with
  | [] => stopAtNext .eofObject []
  | b :: rest => if b = colonByte then .ok rest else stopAtNext .expectedColon (b :: rest)

/-- Takes in the members up to the closing bracket, one after another. `member` is given the
name and the bytes behind it. -/
def readMembers {σ : Type} (member : σ → String → Bytes → Except Fault (σ × Bytes)) :
    (turns : Bytes) → (first : Bool) → σ → Bytes → Except Fault (σ × Bytes)
  | [], _, _, bytes => stopAtNext .eofObject bytes
  | _ :: turns, first, state, bytes => do
    match ← nextName first bytes with
    | .close rest => .ok (state, rest)
    | .name bytes =>
      let (name, rest) ← readString bytes
      let (state, rest) ← member state name rest
      readMembers member turns false state rest

/-! ## Any value -/

/-- The value behind a name and its colon, put among the members read so far. -/
def memberInto (value : Bytes → Except Fault (Json × Bytes)) (members : List (String × Json))
    (name : String) (bytes : Bytes) : Except Fault (List (String × Json) × Bytes) := do
  let bytes ← readColon bytes
  let (v, rest) ← value bytes
  .ok (insertMember name v members, rest)

/-- Any value that opens no bracket, given what to do with one. -/
def readScalarOr (opened : Bracket → Bytes → Except Fault (Json × Bytes)) (bytes : Bytes) :
    Except Fault (Json × Bytes) :=
  match skipSpace bytes with
  | [] => stopAtNext .eofValue []
  | b :: rest =>
    if b = 0x6e then do return (.null, ← readIdent nullTail rest)
    else if b = 0x74 then do return (.bool true, ← readIdent trueTail rest)
    else if b = 0x66 then do return (.bool false, ← readIdent falseTail rest)
    else if b = 0x2d then do
      let (n, rest) ← readNumeral true rest
      return (n.toJson, rest)
    else if isDigit b then do
      let (n, rest) ← readNumeral false (b :: rest)
      return (n.toJson, rest)
    else if b = quoteByte then do
      let (s, rest) ← readString rest
      return (.str s, rest)
    else if b = openSquare then opened .square rest
    else if b = openCurly then opened .curly rest
    else stopAtNext .expectedValue (b :: rest)

/-- Any value. Of members with one name the last is kept. -/
def readValue : Reader Json
  | 0 => readScalarOr fun _ rest => stop .recursionLimit rest
  | nesting + 1 => readScalarOr fun b rest =>
    match b with
    | .square => do
      let (items, rest) ← readItems (readValue nesting) rest true rest
      return (.arr items, rest)
    | .curly => do
      let (members, rest) ←
        readMembers (memberInto (readValue nesting)) rest true [] rest
      return (.obj members, rest)

/-! ## Values of a wanted kind -/

/-- Stops because the next value is of another kind than expected. A scalar is read first, and
the fault stands behind it; before a bracket it stands in front of it. -/
def wrongKind {α : Type} (expected : String) (bytes : Bytes) : Except Fault α :=
  match bytes with
  | [] => stopAtNext .eofValue []
  | b :: rest =>
    let found (f : Found) (rest : Bytes) : Except Fault α := stop (.invalidType f expected) rest
    if b = 0x6e then do found .null (← readIdent nullTail rest)
    else if b = 0x74 then do found (.bool true) (← readIdent trueTail rest)
    else if b = 0x66 then do found (.bool false) (← readIdent falseTail rest)
    else if b = 0x2d then do
      let (n, rest) ← readNumeral true rest
      found n.found rest
    else if isDigit b then do
      let (n, rest) ← readNumeral false bytes
      found n.found rest
    else if b = quoteByte then do
      let (s, rest) ← readString rest
      found (.str s) rest
    else if b = openSquare then found .sequence bytes
    else if b = openCurly then found .map bytes
    else stopAtNext .expectedValue bytes

/-- A boolean. -/
def readBool : Reader Bool := fun _ bytes =>
  match skipSpace bytes with
  | [] => stopAtNext .eofValue []
  | b :: rest =>
    if b = 0x74 then do return (true, ← readIdent trueTail rest)
    else if b = 0x66 then do return (false, ← readIdent falseTail rest)
    else wrongKind "a boolean" (b :: rest)

/-- A string. -/
def readText : Reader String := fun _ bytes =>
  match skipSpace bytes with
  | [] => stopAtNext .eofValue []
  | b :: rest => if b = quoteByte then readString rest else wrongKind "a string" (b :: rest)

/-- A number, given which numerals are right. -/
def readNumber {α : Type} (expected : String) (take : Numeral → Except Cause α) :
    Reader α := fun _ bytes =>
  let taken (numeral : Except Fault (Numeral × Bytes)) : Except Fault (α × Bytes) := do
    let (n, rest) ← numeral
    match take n with
    | .ok a => .ok (a, rest)
    | .error cause => stop cause rest
  match skipSpace bytes with
  | [] => stopAtNext .eofValue []
  | b :: rest =>
    if b = 0x2d then taken (readNumeral true rest)
    else if isDigit b then taken (readNumeral false (b :: rest))
    else wrongKind expected (b :: rest)

/-- A whole number of 64 bits, named so in faults. -/
def readUnsigned (expected : String) : Reader Nat :=
  readNumber expected fun
    | .int (.ofNat n) => .ok n
    | .int i => .error (.invalidValue (.int i) expected)
    | .float x => .error (.invalidType (.float x) expected)

/-- A whole number of 64 bits with its sign. -/
def readSigned : Reader Int :=
  readNumber "i64" fun
    | .int i => if i < 0x8000000000000000 then .ok i else .error (.invalidValue (.int i) "i64")
    | .float x => .error (.invalidType (.float x) "i64")

/-- A binary64 number; a whole one is rounded to it. -/
def readFloat : Reader Binary64 :=
  readNumber "f64" fun
    | .int (.ofNat n) => .ok (Binary64.ofNat false n)
    | .int (.negSucc n) => .ok (Binary64.ofNat true (n + 1))
    | .float x => .ok x

/-- Nothing for `null`, else a value. -/
def readOptional {α : Type} (value : Reader α) : Reader (Option α) := fun nesting bytes =>
  match skipSpace bytes with
  | b :: rest =>
    if b = 0x6e then do return (none, ← readIdent nullTail rest)
    else do
      let (v, rest) ← value nesting (b :: rest)
      return (some v, rest)
  | [] => do
    let (v, rest) ← value nesting []
    return (some v, rest)

/-- Items of one kind. -/
def readList {α : Type} (item : Reader α) : Reader (List α) := fun nesting bytes =>
  match skipSpace bytes with
  | [] => stopAtNext .eofValue []
  | b :: rest =>
    if b = openSquare then
      match nesting with
      | 0 => stopAtNext .recursionLimit (b :: rest)
      | nesting + 1 => readItems (item nesting) rest true rest
    else wrongKind "a sequence" (b :: rest)

/-- Members of any names, sorted; of one name the last is kept. -/
def readMap : Reader (List (String × Json)) := fun nesting bytes =>
  match skipSpace bytes with
  | [] => stopAtNext .eofValue []
  | b :: rest =>
    if b = openCurly then
      match nesting with
      | 0 => stopAtNext .recursionLimit (b :: rest)
      | nesting + 1 => readMembers (memberInto (readValue nesting)) rest true [] rest
    else wrongKind "a map" (b :: rest)

/-! ## Whole texts -/

/-- Reads a value that has to be the whole text, white space around it apart. -/
def decode {α : Type} (reader : Reader α) (text : Bytes) : Except Error α :=
  match reader nestingLimit text with
  | .error fault => .error (fault.locate text)
  | .ok (v, rest) =>
    match skipSpace rest with
    | [] => .ok v
    | rest => .error (Fault.locate text (.placed .trailingCharacters (rest.length - 1)))

/-- Any value as a whole text. -/
def parse (text : Bytes) : Except Error Json := decode readValue text

end ClusterOutput.Json
