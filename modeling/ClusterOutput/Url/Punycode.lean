/-
Punycode: a label of any characters as ASCII letters, digits and hyphens, and
back.

The ASCII characters stand first, then a hyphen if there are any. The others
follow as gaps in a walk over all pairs of a code point and a place to insert
it, each gap a number in base 36 whose digits end below a threshold; the
thresholds adapt to the gaps seen.
-/

namespace ClusterOutput.Url.Punycode

/-- The digit of a value below 36: letters before digits. -/
def digit (v : Nat) : Char := if v < 26 then Char.ofNat (0x61 + v) else Char.ofNat (0x30 + (v - 26))

/-- The value of a digit of either case. -/
def digitValue? (c : Char) : Option Nat :=
  let n := c.toNat
  if 0x61 ≤ n ∧ n ≤ 0x7a then some (n - 0x61)
  else if 0x41 ≤ n ∧ n ≤ 0x5a then some (n - 0x41)
  else if 0x30 ≤ n ∧ n ≤ 0x39 then some (n - 0x30 + 26)
  else none

/-- The least value that another digit may follow at place `k`. -/
def threshold (k bias : Nat) : Nat := max 1 (min 26 (k - bias))

/-- Scales a gap down to 455, with 36 for each time it is divided. -/
def scale (gap offset : Nat) : Nat × Nat :=
  if 455 < gap then scale (gap / 35) (offset + 36) else (gap, offset)
termination_by gap
decreasing_by exact Nat.div_lt_self (by omega) (by omega)

/-- The bias after a gap, given how many characters stand then. -/
def adapt (gap count : Nat) (first : Bool) : Nat :=
  let gap := if first then gap / 700 else gap / 2
  let (gap, offset) := scale (gap + gap / count) 0
  offset + 36 * gap / (gap + 38)

/-- The digits of a gap from place `k` on. -/
def gapDigits (bias k gap : Nat) : List Char :=
  let t := threshold k bias
  if gap < t then [digit gap]
  else digit (t + (gap - t) % (36 - t)) :: gapDigits bias (k + 36) ((gap - t) / (36 - t))
termination_by gap
decreasing_by
  have h : 1 ≤ threshold k bias := by unfold threshold; omega
  have := Nat.div_le_self (gap - threshold k bias) (36 - threshold k bias)
  omega

/-- The walk of an encoder: digits written, the gap since, the bias, the characters done. -/
structure Walk where
  written : List Char
  gap : Nat
  bias : Nat
  done : Nat

/-- One turn of the walk: places before characters already done are counted, and the code point
`m` is written where it stands. -/
def Walk.pass (basic m : Nat) (w : Walk) : List Nat → Walk
  | [] => w
  | c :: cs =>
    if c < m then Walk.pass basic m { w with gap := w.gap + 1 } cs
    else if c = m then
      Walk.pass basic m
        { written := w.written ++ gapDigits w.bias 36 w.gap, gap := 0,
          bias := adapt w.gap (w.done + 1) (w.done == basic), done := w.done + 1 } cs
    else Walk.pass basic m w cs

/-- The walk over code points in ascending order, from `n` on. -/
def Walk.over (basic : Nat) (label : List Nat) (n : Nat) (w : Walk) : List Nat → Walk
  | [] => w
  | m :: ms =>
    let w := { w with gap := w.gap + (m - n) * (w.done + 1) }
    let w := w.pass basic m label
    Walk.over basic label (m + 1) { w with gap := w.gap + 1 } ms

/-- Puts a number into an ascending list, once. -/
def insertAscending (x : Nat) : List Nat → List Nat
  | [] => [x]
  | y :: ys =>
    if x < y then x :: y :: ys else if x = y then y :: ys else y :: insertAscending x ys

/-- The encoded label. -/
def encode (label : List Char) : List Char :=
  let basic := label.filter (·.toNat < 0x80)
  let points := label.map (·.toNat)
  let others := (points.filter (0x80 ≤ ·)).foldr insertAscending []
  let walk := Walk.over basic.length points 0x80 ⟨[], 0, 72, basic.length⟩ others
  basic ++ (if basic.isEmpty then [] else ['-']) ++ walk.written

/-- A gap read digit by digit: its value, and the digits after it. -/
def readGap (bias : Nat) (k weight gap : Nat) : List Char → Option (Nat × List Char)
  | [] => none
  | c :: cs =>
    match digitValue? c with
    | none => none
    | some v =>
      let t := threshold k bias
      if v < t then some (gap + v * weight, cs)
      else readGap bias (k + 36) (weight * (36 - t)) (gap + v * weight) cs

/-- Inserts the characters that the gaps describe, at most `turns` of them. -/
def insertGaps (label : List Nat) (n place bias : Nat) (first : Bool) :
    Nat → List Char → Option (List Nat)
  | _, [] => some label
  | 0, _ => none
  | turns + 1, cs =>
    match readGap bias 36 1 0 cs with
    | none => none
    | some (gap, rest) =>
      let count := label.length + 1
      let n := n + (place + gap) / count
      let place := (place + gap) % count
      if 0x10ffff < n ∨ (0xd800 ≤ n ∧ n ≤ 0xdfff) then none
      else
        insertGaps (label.take place ++ n :: label.drop place) n (place + 1)
          (adapt gap count first) false turns rest

/-- The label that was encoded, if any was. -/
def decode? (text : List Char) : Option (List Char) :=
  let (basic, gaps) :=
    match text.reverse.dropWhile (· != '-') with
    | [] => ([], text)
    | _ :: front => (front.reverse, text.drop (front.length + 1))
  if basic.any (0x80 ≤ ·.toNat) then none
  else
    (insertGaps (basic.map (·.toNat)) 0x80 0 72 true text.length gaps).map (·.map Char.ofNat)

end ClusterOutput.Url.Punycode
