/-
Finite binary64 numbers over exact naturals: rounding a fraction to the nearest
one, and multiplying and dividing by correctly rounded powers of ten.

A number is `± significand * 2 ^ exponent` with the significand below `2 ^ 53`
and the exponent at least -1074; the exponent is as small as that allows. The
two zeros differ in their sign. There is no infinity: what would round to one
is `none`.
-/

namespace ClusterOutput

/-- A finite binary64 number, `± significand * 2 ^ exponent`. -/
structure Binary64 where
  negative : Bool
  significand : Nat
  exponent : Int
  deriving DecidableEq, Repr

namespace Binary64

/-- The exponent of the least positive number. -/
def leastExponent : Int := -1074

/-- The exponent of the greatest number. -/
def greatestExponent : Int := 971

def zero (negative : Bool) : Binary64 := ⟨negative, 0, leastExponent⟩

/-- The least significand of 53 bits. -/
def leastFull : Nat := 1 <<< 52

/-- The `k`-th power of ten. -/
def powTen (k : Nat) : Nat := Nat.pow 10 k

/-- The exponent at which `num / den` has a significand of 53 bits, or the least one. -/
def exponentOf (num den : Nat) : Int :=
  let e : Int := (num.log2 : Int) - (den.log2 : Int) - 52
  let e := if num <<< (-e).toNat < leastFull * (den <<< e.toNat) then e - 1 else e
  max e leastExponent

/-- The nearest whole number to `num / den`, a half going to the even one. -/
def roundQuotient (num den : Nat) : Nat :=
  let q := num / den
  let r := num % den
  if 2 * r < den then q
  else if den < 2 * r then q + 1
  else if q % 2 = 0 then q else q + 1

/-- The number nearest to `± num / den`, a tie going to the even significand; none beyond the
greatest number. -/
def ofFraction (negative : Bool) (num den : Nat) : Option Binary64 :=
  if num = 0 then some (zero negative)
  else
    let e := exponentOf num den
    let m := roundQuotient (num <<< (-e).toNat) (den <<< e.toNat)
    let (m, e) := if m = 2 * leastFull then (leastFull, e + 1) else (m, e)
    if greatestExponent < e then none else some ⟨negative, m, e⟩

/-- The number nearest to a whole number of at most 64 bits; zero beyond the greatest number,
which no such number reaches. -/
def ofNat (negative : Bool) (n : Nat) : Binary64 :=
  (ofFraction negative n 1).getD (zero negative)

def isZero (x : Binary64) : Bool := x.significand == 0

/-- Product of `x` and the number nearest to `10 ^ k`. -/
def mulPowTen (x : Binary64) (k : Nat) : Option Binary64 := do
  let p ← ofFraction false (powTen k) 1
  let e := x.exponent + p.exponent
  ofFraction x.negative ((x.significand * p.significand) <<< e.toNat) (1 <<< (-e).toNat)

/-- Quotient of `x` and the number nearest to `10 ^ k`. -/
def divPowTen (x : Binary64) (k : Nat) : Option Binary64 := do
  let p ← ofFraction false (powTen k) 1
  let e := x.exponent - p.exponent
  ofFraction x.negative (x.significand <<< e.toNat) (p.significand <<< (-e).toNat)

/-- The greatest power of ten that one step multiplies or divides by. -/
def greatestPower : Nat := 308

/-- `x / 10 ^ k` in steps of at most `10 ^ 308`, each rounded; the steps end when nothing is
left of the number. -/
def scaleDown (x : Binary64) : Nat → Nat → Option Binary64
  | 0, k => x.divPowTen k
  | steps + 1, k =>
    if k ≤ greatestPower then x.divPowTen k
    else if x.isZero then some x
    else do
      let y ← x.divPowTen greatestPower
      scaleDown y steps (k - greatestPower)

/-- A decimal literal `± digits * 10 ^ power`, as its significand rounded and then scaled: two
roundings, or more for very small numbers. None beyond the greatest number. -/
def ofDecimal (negative : Bool) (digits : Nat) (power : Int) : Option Binary64 :=
  let x := ofNat negative digits
  if power < 0 then scaleDown x 3 (-power).toNat
  else if power.toNat ≤ greatestPower then x.mulPowTen power.toNat
  else if x.isZero then some x
  else none

end Binary64

end ClusterOutput
