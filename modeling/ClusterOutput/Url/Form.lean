/-
Query parameters: names with values, sorted by name, and their form encoding.

Letters, digits and `*-._` stand for themselves, a space is a plus sign, every
other byte is percent-encoded; pairs are joined by `&`, a name and its value by
`=`.
-/
import ClusterOutput.Url.Percent

namespace ClusterOutput.Url

/-- Names with values. -/
abbrev Params := List (String × String)

/-- The pair in place of an earlier one of that name, else at its place in the order of names. -/
def Params.insert (name value : String) : Params → Params
  | [] => [(name, value)]
  | (k, v) :: params =>
    if name = k then (name, value) :: params
    else if name < k then (name, value) :: (k, v) :: params
    else (k, v) :: Params.insert name value params

/-- Sorted parameters, the last of each name. -/
def Params.ofList (pairs : List (String × String)) : Params :=
  pairs.foldl (fun params p => Params.insert p.1 p.2 params) []

def isAlphanumericByte (b : UInt8) : Bool :=
  (0x30 ≤ b && b ≤ 0x39) || (0x41 ≤ b && b ≤ 0x5a) || (0x61 ≤ b && b ≤ 0x7a)

/-- A byte within a form. -/
def formByte (b : UInt8) : List Char :=
  if b = 0x20 then ['+']
  else if isAlphanumericByte b || inChars "*-._" b then [Char.ofNat b.toNat]
  else percentByte b

/-- A name or a value within a form. -/
def formText (s : String) : List Char := (Utf8.encode s).flatMap formByte

/-- A name and its value within a form. -/
def formPair (p : String × String) : List Char := formText p.1 ++ '=' :: formText p.2

/-- The form encoding of parameters, in their order. -/
def Params.encodeChars : Params → List Char
  | [] => []
  | [p] => formPair p
  | p :: params => formPair p ++ '&' :: Params.encodeChars params

/-- The form encoding of parameters, in their order. -/
def Params.encode (params : Params) : String := String.ofList params.encodeChars

end ClusterOutput.Url
