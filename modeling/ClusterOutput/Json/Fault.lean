/-
What is wrong with a JSON text, and where.

A reader that stops says how many bytes it had left unread (`Fault.placed`);
the line and the column follow from that and the whole text. A fault that a
structure finds in a value already read has no place of its own
(`Fault.late`): it is placed where the reader of the structure then stands,
after white space and, if it comes next, the closing bracket.
-/
import ClusterOutput.Json.Basic
import ClusterOutput.Number.Shortest
import ClusterOutput.Text.Quoted
import ClusterOutput.Text.Utf8

namespace ClusterOutput.Json

/-- What was found where something else was expected. -/
inductive Found where
  | null
  | bool (b : Bool)
  | int (i : Int)
  | float (x : Binary64)
  | str (s : String)
  | sequence
  | map

def Found.message : Found → String
  | .null => "null"
  | .bool true => "boolean \x60true\x60"
  | .bool false => "boolean \x60false\x60"
  | .int i => "integer \x60" ++ Text.ofInt i ++ "\x60"
  | .float x => "floating point \x60" ++ String.ofList x.text ++ "\x60"
  | .str s => "string " ++ Text.quoted s
  | .sequence => "sequence"
  | .map => "map"

/-- What is wrong. -/
inductive Cause where
  | eofValue
  | eofString
  | eofList
  | eofObject
  | expectedColon
  | expectedListCommaOrEnd
  | expectedObjectCommaOrEnd
  | expectedIdent
  | expectedValue
  | invalidEscape
  | invalidNumber
  | numberOutOfRange
  | invalidCodePoint
  | controlCharacter
  | keyMustBeString
  | loneSurrogate
  | unexpectedEndOfHexEscape
  | trailingComma
  | trailingCharacters
  | recursionLimit
  | invalidType (found : Found) (expected : String)
  | invalidValue (found : Found) (expected : String)
  | invalidLength (length : Nat) (whole : String) (fields : Nat)
  | missingField (name : String)
  | unknownField (name : String) (known : List String)
  | duplicateField (name : String)
  | noVariant (name : String)
  | badNumber (fault : Text.NumberFault)

/-- A name between backquotes. -/
def ticked (name : String) : String := "\x60" ++ name ++ "\x60"

def Cause.message : Cause → String
  | .eofValue => "EOF while parsing a value"
  | .eofString => "EOF while parsing a string"
  | .eofList => "EOF while parsing a list"
  | .eofObject => "EOF while parsing an object"
  | .expectedColon => "expected " ++ ticked ":"
  | .expectedListCommaOrEnd => "expected " ++ ticked "," ++ " or " ++ ticked "]"
  | .expectedObjectCommaOrEnd => "expected " ++ ticked "," ++ " or " ++ ticked "\x7d"
  | .expectedIdent => "expected ident"
  | .expectedValue => "expected value"
  | .invalidEscape => "invalid escape"
  | .invalidNumber => "invalid number"
  | .numberOutOfRange => "number out of range"
  | .invalidCodePoint => "invalid unicode code point"
  | .controlCharacter => "control character (\\u0000-\\u001F) found while parsing a string"
  | .keyMustBeString => "key must be a string"
  | .loneSurrogate => "lone leading surrogate in hex escape"
  | .unexpectedEndOfHexEscape => "unexpected end of hex escape"
  | .trailingComma => "trailing comma"
  | .trailingCharacters => "trailing characters"
  | .recursionLimit => "recursion limit exceeded"
  | .invalidType found expected => "invalid type: " ++ found.message ++ ", expected " ++ expected
  | .invalidValue found expected => "invalid value: " ++ found.message ++ ", expected " ++ expected
  | .invalidLength n name fields =>
    "invalid length " ++ Text.ofNat n ++ ", expected struct " ++ name ++ " with " ++
      Text.ofNat fields ++ " elements"
  | .missingField name => "missing field " ++ ticked name
  | .unknownField name known =>
    "unknown field " ++ ticked name ++ ", expected one of " ++
      ", ".intercalate (known.map ticked)
  | .duplicateField name => "duplicate field " ++ ticked name
  | .noVariant name => "data did not match any variant of untagged enum " ++ name
  | .badNumber fault => fault.message

/-- Why a reader stopped: with so many bytes unread, or with a fault still to be placed and the
bytes where it stood. -/
inductive Fault where
  | placed (cause : Cause) (unread : Nat)
  | late (cause : Cause) (rest : Bytes)

/-- What a reader gives: a value and the bytes after it, or why it stopped. -/
abbrev Reading (α : Type) := Except Fault (α × Bytes)

/-- Stops behind the bytes read so far. -/
def stop {α : Type} (cause : Cause) (rest : Bytes) : Except Fault α :=
  .error (.placed cause rest.length)

/-- Stops at the next byte, or at the end where there is none. -/
def stopAtNext {α : Type} (cause : Cause) (rest : Bytes) : Except Fault α :=
  .error (.placed cause (rest.length - 1))

/-- A fault of a whole text. Line zero is a fault of no text in particular. -/
structure Error where
  cause : Cause
  line : Nat
  column : Nat

def Error.message (e : Error) : String :=
  if e.line = 0 then e.cause.message
  else
    e.cause.message ++ " at line " ++ Text.ofNat e.line ++ " column " ++ Text.ofNat e.column

def newlineByte : UInt8 := 0x0a

/-- The line and the column behind some bytes: lines count from one, columns are the bytes since
the last newline. -/
def placeAfter (behind : Bytes) : Nat × Nat :=
  behind.foldl (fun p b => if b = newlineByte then (p.1 + 1, 0) else (p.1, p.2 + 1)) (1, 0)

/-- A fault as an error of the text it was found in. -/
def Fault.locate (text : Bytes) : Fault → Error
  | .placed cause unread =>
    let p := placeAfter (text.take (text.length - unread))
    ⟨cause, p.1, p.2⟩
  | .late cause rest =>
    let p := placeAfter (text.take (text.length - rest.length))
    ⟨cause, p.1, p.2⟩

end ClusterOutput.Json
