/-
JSON text of a value: compact, and indented by two spaces a level.

Text is written as it is but for quotes, backslashes and the characters below
U+0020, which have short escapes or four hexadecimal digits.
-/
import ClusterOutput.Json.Basic
import ClusterOutput.Number.Shortest
import ClusterOutput.Text.Quoted

namespace ClusterOutput.Json

/-- One character inside a JSON string. -/
def escapeChar (c : Char) : List Char :=
  if c = '"' ∨ c = '\\' then ['\\', c]
  else if c = '\x08' then ['\\', 'b']
  else if c = '\x0c' then ['\\', 'f']
  else if c = '\n' then ['\\', 'n']
  else if c = '\r' then ['\\', 'r']
  else if c = '\t' then ['\\', 't']
  else if c.toNat < 0x20 then
    ['\\', 'u', '0', '0', Nat.digitChar (c.toNat / 16), Nat.digitChar (c.toNat % 16)]
  else [c]

/-- A JSON string. -/
def writeString (s : String) : List Char := '"' :: s.toList.flatMap escapeChar ++ ['"']

def nullChars : List Char := ['n', 'u', 'l', 'l']

def boolChars : Bool → List Char
  | true => ['t', 'r', 'u', 'e']
  | false => ['f', 'a', 'l', 's', 'e']

/-- A whole number. -/
def intChars : Int → List Char
  | .ofNat n => Text.digits n
  | .negSucc n => '-' :: Text.digits (n + 1)

mutual

/-- Compact text. -/
def write : Json → List Char
  | null => nullChars
  | bool b => boolChars b
  | int i => intChars i
  | float x => x.text
  | str s => writeString s
  | arr [] => ['[', ']']
  | arr (v :: items) => '[' :: write v ++ writeItems items
  | obj [] => ['\x7b', '\x7d']
  | obj ((k, v) :: members) =>
    '\x7b' :: writeString k ++ ':' :: write v ++ writeMembers members

/-- The items after the first, and the bracket. -/
def writeItems : List Json → List Char
  | [] => [']']
  | v :: items => ',' :: write v ++ writeItems items

/-- The members after the first, and the brace. -/
def writeMembers : List (String × Json) → List Char
  | [] => ['\x7d']
  | (k, v) :: members => ',' :: writeString k ++ ':' :: write v ++ writeMembers members

end

/-- Compact text. -/
def compact (v : Json) : String := String.ofList v.write

/-- The start of a line at a level of indentation. -/
def newline (level : Nat) : List Char := '\n' :: List.replicate (2 * level) ' '

mutual

/-- Indented text of a value that stands at a level. -/
def writeIndented (level : Nat) : Json → List Char
  | null => nullChars
  | bool b => boolChars b
  | int i => intChars i
  | float x => x.text
  | str s => writeString s
  | arr [] => ['[', ']']
  | arr (v :: items) =>
    '[' :: newline (level + 1) ++ writeIndented (level + 1) v ++ writeIndentedItems level items
  | obj [] => ['\x7b', '\x7d']
  | obj ((k, v) :: members) =>
    '\x7b' :: newline (level + 1) ++ writeString k ++ ':' :: ' ' :: writeIndented (level + 1) v ++
      writeIndentedMembers level members

/-- The items after the first, and the bracket on a line of its own. -/
def writeIndentedItems (level : Nat) : List Json → List Char
  | [] => newline level ++ [']']
  | v :: items =>
    ',' :: newline (level + 1) ++ writeIndented (level + 1) v ++ writeIndentedItems level items

/-- The members after the first, and the brace on a line of its own. -/
def writeIndentedMembers (level : Nat) : List (String × Json) → List Char
  | [] => newline level ++ ['\x7d']
  | (k, v) :: members =>
    ',' :: newline (level + 1) ++ writeString k ++ ':' :: ' ' :: writeIndented (level + 1) v ++
      writeIndentedMembers level members

end

/-- Indented text. -/
def pretty (v : Json) : String := String.ofList (v.writeIndented 0)

end ClusterOutput.Json
