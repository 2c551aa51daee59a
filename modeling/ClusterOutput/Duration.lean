/-
Spans of time, exact to the nanosecond.
-/
import ClusterOutput.Text.Decimal

namespace ClusterOutput

/-- A span of time. -/
structure Duration where
  nanoseconds : Nat
  deriving DecidableEq, Repr

namespace Duration

def nanosPerSecond : Nat := 1000000000
def nanosPerMilli : Nat := 1000000
def nanosPerMicro : Nat := 1000

def zero : Duration := ⟨0⟩

def ofSeconds (n : Nat) : Duration := ⟨n * nanosPerSecond⟩

def ofMillis (n : Nat) : Duration := ⟨n * nanosPerMilli⟩

/-- Whole seconds. -/
def seconds (d : Duration) : Nat := d.nanoseconds / nanosPerSecond

/-- Whole milliseconds. -/
def millis (d : Duration) : Nat := d.nanoseconds / nanosPerMilli

def isZero (d : Duration) : Bool := d.nanoseconds == 0

/-- Without zeros at the end. -/
def trimZeros (ds : List Char) : List Char := (ds.reverse.dropWhile (· == '0')).reverse

/-- The digits behind the point of a part below `10 ^ places`, behind the point itself; nothing
for zero. -/
def fraction (places n : Nat) : List Char :=
  if n = 0 then []
  else
    let ds := Text.digits n
    '.' :: trimZeros (List.replicate (places - ds.length) '0' ++ ds)

/-- The length in the largest of the units s, ms, µs and ns that it reaches, exactly. -/
def text (d : Duration) : String :=
  let n := d.nanoseconds
  let inUnits (unit places : Nat) (name : String) : String :=
    String.ofList (Text.digits (n / unit) ++ fraction places (n % unit)) ++ name
  if nanosPerSecond ≤ n then inUnits nanosPerSecond 9 "s"
  else if nanosPerMilli ≤ n then inUnits nanosPerMilli 6 "ms"
  else if nanosPerMicro ≤ n then inUnits nanosPerMicro 3 "µs"
  else inUnits 1 0 "ns"

end Duration

end ClusterOutput
