/-
Decimal text of a binary64 number: the fewest digits that read back to it.

The decimals that round to a number are those between the halfway points to its
two neighbours, the ends included when its significand is even. The search
looks at the two decimals of n digits next to the number, for n = 1, 2, …, and
takes the first that lies there, the nearer of two, the even one of a tie.

Positional notation is used while the leading digit stands for a power of ten
from -5 to 15, with one digit after the point at least; otherwise one digit
stands before the point, and the exponent has its sign.
-/
import ClusterOutput.Text.Decimal
import ClusterOutput.Number.Binary64

namespace ClusterOutput.Binary64

/-- `digits * 10 ^ power`. -/
structure Decimal where
  digits : Nat
  power : Int
  deriving DecidableEq, Repr

/-- Compares `a * 10 ^ p` with `n * 2 ^ e`. -/
def compareScaled (a : Nat) (p : Int) (n : Nat) (e : Int) : Ordering :=
  compare ((a * powTen p.toNat) <<< (-e).toNat) ((n * powTen (-p).toNat) <<< e.toNat)

/-- The number below is half as far away as the number above. -/
def narrowBelow (x : Binary64) : Bool :=
  x.significand == leastFull && decide (leastExponent < x.exponent)

/-- A decimal lies between the halfway points to the neighbours of `|x|`. -/
def readsBack (x : Binary64) (d : Decimal) : Bool :=
  let low := if x.narrowBelow then 4 * x.significand - 1 else 4 * x.significand - 2
  let high := 4 * x.significand + 2
  let closed := x.significand % 2 == 0
  let below := compareScaled d.digits d.power low (x.exponent - 2)
  let above := compareScaled d.digits d.power high (x.exponent - 2)
  (below == .gt || (closed && below == .eq)) && (above == .lt || (closed && above == .eq))

/-- The first of the next four powers of ten that is above `|x|`. -/
def powerAbove (x : Binary64) : Int :=
  let guess : Int := ((x.significand.log2 : Int) + x.exponent) * 30103 / 100000 - 1
  let above (k : Int) : Bool := compareScaled 1 k x.significand x.exponent == .gt
  if above guess then guess
  else if above (guess + 1) then guess + 1
  else if above (guess + 2) then guess + 2
  else guess + 3

/-- The whole part of `|x| / 10 ^ power`. -/
def floorAt (x : Binary64) (power : Int) : Nat :=
  ((x.significand * powTen (-power).toNat) <<< x.exponent.toNat) /
    (powTen power.toNat <<< (-x.exponent).toNat)

/-- The decimal to take of the two around `|x|` at a power of ten, if one reads back. -/
def candidateAt (x : Binary64) (power : Int) : Option Decimal :=
  let low : Decimal := ⟨floorAt x power, power⟩
  let high : Decimal := ⟨low.digits + 1, power⟩
  match readsBack x low, readsBack x high with
  | false, false => none
  | true, false => some low
  | false, true => some high
  | true, true =>
    match compareScaled (low.digits + high.digits) power (2 * x.significand) x.exponent with
    | .gt => some low
    | .lt => some high
    | .eq => some (if low.digits % 2 = 0 then low else high)

/-- The exact value, which is taken if nothing shorter reads back. -/
def exactDecimal (x : Binary64) : Decimal :=
  if 0 ≤ x.exponent then ⟨x.significand <<< x.exponent.toNat, 0⟩
  else ⟨x.significand * Nat.pow 5 (-x.exponent).toNat, x.exponent⟩

/-- The shortest decimal of `|x|`, tried with one digit, two digits and so on to seventeen. -/
def shortest (x : Binary64) : Decimal :=
  let top := powerAbove x
  (((List.range 17).findSome? fun n => candidateAt x (top - (n + 1 : Nat)))).getD (exactDecimal x)

/-- Without the zeros at the end, the power raised by as many. -/
def stripZeros (digits : List Char) (power : Int) : List Char × Int :=
  let kept := (digits.reverse.dropWhile (· == '0')).reverse
  (kept, power + ((digits.length - kept.length : Nat) : Int))

/-- Digits with the leading one at a power of ten, laid out. -/
def layOut (digits : List Char) (lead : Int) : List Char :=
  if -5 ≤ lead ∧ lead ≤ 15 then
    if lead < 0 then '0' :: '.' :: List.replicate (-lead - 1).toNat '0' ++ digits
    else
      let whole := lead.toNat + 1
      if digits.length ≤ whole then
        digits ++ List.replicate (whole - digits.length) '0' ++ ['.', '0']
      else digits.take whole ++ '.' :: digits.drop whole
  else
    let mantissa := match digits with
      | [d] => [d]
      | d :: ds => d :: '.' :: ds
      | [] => []
    mantissa ++ 'e' :: (if lead < 0 then '-' else '+') :: Text.digits lead.natAbs

/-- The text of a number. -/
def text (x : Binary64) : List Char :=
  let magnitude :=
    if x.isZero then ['0', '.', '0']
    else
      let d := shortest x
      let (digits, power) := stripZeros (Text.digits d.digits) d.power
      layOut digits (power + digits.length - 1)
  if x.negative then '-' :: magnitude else magnitude

end ClusterOutput.Binary64
