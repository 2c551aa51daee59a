/-
White space as Unicode's property White_Space counts it, and trimming by it.

The property has twenty-five characters: U+0085, U+00A0 and U+3000 are among
them, U+200B, U+FEFF, U+180E and U+001C are not.
-/

namespace ClusterOutput.Text

/-- The characters with the property White_Space. -/
def isBlank (c : Char) : Bool :=
  let n := c.toNat
  (0x09 ≤ n && n ≤ 0x0d) || n == 0x20 || n == 0x85 || n == 0xa0 || n == 0x1680 ||
  (0x2000 ≤ n && n ≤ 0x200a) || n == 0x2028 || n == 0x2029 || n == 0x202f ||
  n == 0x205f || n == 0x3000

/-- Without the characters of `drop` at the end. -/
def trimEndBy (drop : Char → Bool) (cs : List Char) : List Char :=
  (cs.reverse.dropWhile drop).reverse

/-- Without white space at either end. -/
def trimChars (cs : List Char) : List Char :=
  trimEndBy isBlank (cs.dropWhile isBlank)

/-- Without white space at either end. -/
def trim (s : String) : String := String.ofList (trimChars s.toList)

/-- Nothing but white space, or nothing at all. -/
def isAllBlank (s : String) : Bool := s.toList.all isBlank

/-- Without slashes at the end. -/
def trimSlashes (s : String) : String := String.ofList (trimEndBy (· == '/') s.toList)

/-- The pieces between the separators: one more than there are separators. -/
def pieces {α : Type} [DecidableEq α] (sep : α) : List α → List (List α)
  | [] => [[]]
  | c :: cs =>
    if c = sep then [] :: pieces sep cs
    else match pieces sep cs with
      | [] => [[c]]
      | piece :: rest => (c :: piece) :: rest

end ClusterOutput.Text
