/-
Whole numbers in decimal: reading with an optional plus sign under a bound, and
writing.
-/

namespace ClusterOutput.Text

/-- The value of an ASCII digit. -/
def digit? (c : Char) : Option Nat :=
  if '0' ≤ c ∧ c ≤ '9' then some (c.toNat - '0'.toNat) else none

/-- Why a text is not a whole number of the wanted width. -/
inductive NumberFault where
  | empty
  | badDigit
  | tooLarge
  deriving DecidableEq, Repr

def NumberFault.message : NumberFault → String
  | .empty => "cannot parse integer from empty string"
  | .badDigit => "invalid digit found in string"
  | .tooLarge => "number too large to fit in target type"

/-- Digits after a value already read. The first fault from the left is the one reported. -/
def readDigits (limit : Nat) (acc : Nat) : List Char → Except NumberFault Nat
  | [] => .ok acc
  | c :: cs =>
    match digit? c with
    | none => .error .badDigit
    | some d =>
      if acc * 10 + d < limit then readDigits limit (acc * 10 + d) cs else .error .tooLarge

/-- A whole number below `limit`: ASCII digits, at least one, after an optional plus sign. -/
def readNumber (limit : Nat) (cs : List Char) : Except NumberFault Nat :=
  match cs with
  | [] => .error .empty
  | ['+'] => .error .badDigit
  | ['-'] => .error .badDigit
  | '+' :: ds => readDigits limit 0 ds
  | ds => readDigits limit 0 ds

/-- The numbers of a 64-bit word. -/
def wordLimit : Nat := 0x10000000000000000

/-- A whole number of 64 bits. -/
def readWord (s : String) : Except NumberFault Nat := readNumber wordLimit s.toList

/-- The decimal digits of a number, most significant first. -/
def digits (n : Nat) : List Char := Nat.toDigits 10 n

/-- A number in decimal. -/
def ofNat (n : Nat) : String := String.ofList (digits n)

/-- A number in decimal, with a minus sign where it is negative. -/
def ofInt (i : Int) : String :=
  match i with
  | .ofNat n => ofNat n
  | .negSucc n => "-" ++ ofNat (n + 1)

end ClusterOutput.Text
