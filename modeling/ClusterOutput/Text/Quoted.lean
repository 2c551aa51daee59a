/-
A text in double quotes, as diagnostics show it: a backslash before quotes and
backslashes, short escapes for the common controls, and the number in braces of
any other character that is not shown as itself.
-/
import ClusterOutput.Text.Shown

namespace ClusterOutput.Text

/-- Hexadecimal digits of a number, lower case, most significant first. -/
def hexDigits (n : Nat) : List Char := Nat.toDigits 16 n

/-- One character inside quotes. -/
def quoteChar (c : Char) : List Char :=
  if c = '\x00' then ['\\', '0']
  else if c = '\t' then ['\\', 't']
  else if c = '\r' then ['\\', 'r']
  else if c = '\n' then ['\\', 'n']
  else if c = '\\' ∨ c = '"' then ['\\', c]
  else if isShown c then [c]
  else ['\\', 'u', '\x7b'] ++ hexDigits c.toNat ++ ['\x7d']

/-- A text in double quotes. -/
def quoted (s : String) : String := String.ofList ('"' :: s.toList.flatMap quoteChar ++ ['"'])

/-- A boolean, as diagnostics show it. -/
def ofBool (b : Bool) : String := if b then "true" else "false"

end ClusterOutput.Text
