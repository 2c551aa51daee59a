/-
The words of JSON text: white space, the three names, numbers and strings.

A number keeps its digits while they fit 64 bits; digits that no longer fit are
dropped, those before the point raising the power of ten. A string is decoded
once its closing quote is found.
-/
import ClusterOutput.Json.Fault

namespace ClusterOutput.Json

def quoteByte : UInt8 := 0x22
def backslashByte : UInt8 := 0x5c

def isSpaceByte (b : UInt8) : Bool := b == 0x20 || b == 0x0a || b == 0x09 || b == 0x0d

/-- The bytes after the white space. -/
def skipSpace : Bytes → Bytes := List.dropWhile isSpaceByte

/-- The rest of a name whose first letter was read. -/
def readIdent : Bytes → Bytes → Except Fault Bytes
  | [], rest => .ok rest
  | _ :: _, [] => stop .eofValue []
  | e :: expected, b :: rest =>
    if b = e then readIdent expected rest else stop .expectedIdent rest

def nullTail : Bytes := [0x75, 0x6c, 0x6c]
def trueTail : Bytes := [0x72, 0x75, 0x65]
def falseTail : Bytes := [0x61, 0x6c, 0x73, 0x65]

/-- The bracket of a sequence, or of a map. -/
inductive Bracket where
  | square
  | curly
  deriving DecidableEq

/-! ## Numbers -/

/-- A number as it was read. -/
inductive Numeral where
  | int (i : Int)
  | float (x : Binary64)

def Numeral.toJson : Numeral → Json
  | .int i => .int i
  | .float x => .float x

def Numeral.found : Numeral → Found
  | .int i => .int i
  | .float x => .float x

/-- The value of a digit. -/
def digitOf? (b : UInt8) : Option Nat :=
  if 0x30 ≤ b && b ≤ 0x39 then some (b.toNat - 0x30) else none

def isDigit (b : UInt8) : Bool := 0x30 ≤ b && b ≤ 0x39

/-- A run of digits appended to a significand: how many were taken, how many dropped. -/
structure DigitRun where
  significand : Nat
  taken : Nat
  dropped : Nat
  rest : Bytes

/-- Drops the digits of a run that no longer fit. -/
def dropDigits (significand taken dropped : Nat) : Bytes → DigitRun
  | [] => ⟨significand, taken, dropped, []⟩
  | b :: rest =>
    if isDigit b then dropDigits significand taken (dropped + 1) rest
    else ⟨significand, taken, dropped, b :: rest⟩

/-- Takes the digits of a run while the significand stays below `2 ^ 64`. -/
def takeDigits (significand taken : Nat) : Bytes → DigitRun
  | [] => ⟨significand, taken, 0, []⟩
  | b :: rest =>
    match digitOf? b with
    | none => ⟨significand, taken, 0, b :: rest⟩
    | some d =>
      if significand * 10 + d < Text.wordLimit then
        takeDigits (significand * 10 + d) (taken + 1) rest
      else dropDigits significand taken 1 rest

/-- The power written after an exponent mark, with the bytes after it. A power beyond 31 bits is
`none`, with the bytes after the digit that was too much. -/
def readPower (power : Nat) : Bytes → Option Nat × Bytes
  | [] => (some power, [])
  | b :: rest =>
    match digitOf? b with
    | none => (some power, b :: rest)
    | some d =>
      if power * 10 + d < 0x80000000 then readPower (power * 10 + d) rest else (none, rest)

/-- The binary64 number of a decimal that has been read up to `rest`. -/
def numeralOf (negative : Bool) (significand : Nat) (power : Int) (rest : Bytes) :
    Reading Numeral :=
  match Binary64.ofDecimal negative significand power with
  | some x => .ok (.float x, rest)
  | none => stop .numberOutOfRange rest

/-- The exponent, behind its mark. -/
def readExponent (negative : Bool) (significand : Nat) (power : Int) (bytes : Bytes) :
    Reading Numeral :=
  let (down, bytes) := match bytes with
    | b :: rest =>
      if b = 0x2b then (false, rest) else if b = 0x2d then (true, rest) else (false, bytes)
    | [] => (false, [])
  match bytes with
  | [] => stop .eofValue []
  | b :: rest =>
    match digitOf? b with
    | none => stop .invalidNumber rest
    | some d =>
      match readPower d rest with
      | (some e, rest) =>
        numeralOf negative significand (if down then power - (e : Int) else power + (e : Int)) rest
      | (none, rest) =>
        if significand ≠ 0 ∧ down = false then stop .numberOutOfRange rest
        else .ok (.float (.zero negative), rest.dropWhile isDigit)

/-- An exponent mark. -/
def isExponentMark (b : UInt8) : Bool := b == 0x65 || b == 0x45

/-- What may follow the digits after the point. -/
def readAfterFraction (negative : Bool) (significand : Nat) (power : Int) (bytes : Bytes) :
    Reading Numeral :=
  match bytes with
  | [] => numeralOf negative significand power []
  | b :: rest =>
    if isExponentMark b then readExponent negative significand power rest
    else numeralOf negative significand power bytes

/-- The digits after the point, one at least. -/
def readFraction (negative : Bool) (significand : Nat) (power : Int) (bytes : Bytes) :
    Reading Numeral :=
  let run := takeDigits significand 0 bytes
  if run.taken = 0 ∧ run.dropped = 0 then
    match run.rest with
    | [] => stop .eofValue []
    | rest => stopAtNext .invalidNumber rest
  else readAfterFraction negative run.significand (power - run.taken) run.rest

/-- A whole number: below `2 ^ 64`, or from `-2 ^ 63` and below zero; else a float. -/
def wholeNumeral (negative : Bool) (significand : Nat) : Numeral :=
  if negative then
    if 0 < significand ∧ significand ≤ 0x8000000000000000 then .int (-(significand : Int))
    else .float (Binary64.ofNat true significand)
  else .int significand

/-- What may follow the whole part, of which `dropped` digits did not fit. -/
def readAfterWhole (negative : Bool) (significand dropped : Nat) (bytes : Bytes) :
    Reading Numeral :=
  let plain : Reading Numeral :=
    if dropped = 0 then .ok (wholeNumeral negative significand, bytes)
    else numeralOf negative significand dropped bytes
  match bytes with
  | [] => plain
  | b :: rest =>
    if b = 0x2e then readFraction negative significand dropped rest
    else if isExponentMark b then readExponent negative significand dropped rest
    else plain

/-- A number, behind its minus sign where it has one. -/
def readNumeral (negative : Bool) : Bytes → Reading Numeral
  | [] => stop .eofValue []
  | b :: rest =>
    if b = 0x30 then
      match rest with
      | c :: _ =>
        if isDigit c then stopAtNext .invalidNumber rest else readAfterWhole negative 0 0 rest
      | [] => readAfterWhole negative 0 0 []
    else
      match digitOf? b with
      | none => stop .invalidNumber rest
      | some d =>
        let run := takeDigits d 1 rest
        readAfterWhole negative run.significand run.dropped run.rest

/-! ## Strings -/

/-- The value of a hexadecimal digit. -/
def hexOf? (b : UInt8) : Option Nat :=
  if 0x30 ≤ b && b ≤ 0x39 then some (b.toNat - 0x30)
  else if 0x61 ≤ b && b ≤ 0x66 then some (b.toNat - 0x57)
  else if 0x41 ≤ b && b ≤ 0x46 then some (b.toNat - 0x37)
  else none

/-- The value of four hexadecimal digits. -/
def hexValue? (a b c d : UInt8) : Option Nat := do
  let a ← hexOf? a
  let b ← hexOf? b
  let c ← hexOf? c
  let d ← hexOf? d
  some (((a * 16 + b) * 16 + c) * 16 + d)

/-- The byte that a one-letter escape stands for. -/
def shortEscape? (b : UInt8) : Option UInt8 :=
  if b = quoteByte ∨ b = backslashByte ∨ b = 0x2f then some b
  else if b = 0x62 then some 0x08
  else if b = 0x66 then some 0x0c
  else if b = 0x6e then some 0x0a
  else if b = 0x72 then some 0x0d
  else if b = 0x74 then some 0x09
  else none

def isHighSurrogate (n : Nat) : Bool := 0xd800 ≤ n && n ≤ 0xdbff
def isLowSurrogate (n : Nat) : Bool := 0xdc00 ≤ n && n ≤ 0xdfff

/-- The bytes of a character, put before others in reverse. -/
def pushChar (n : Nat) (acc : Bytes) : Bytes := (Utf8.encodeChar (Char.ofNat n)).reverse ++ acc

/-- The bytes of a string up to its closing quote, in reverse behind `acc`, with the bytes after
the quote. -/
def readStringBytes (acc : Bytes) : Bytes → Reading Bytes
  | [] => stop .eofString []
  | b :: rest =>
    if b = quoteByte then .ok (acc, rest)
    else if b = backslashByte then
      match rest with
      | [] => stop .eofString []
      | e :: rest =>
        if e = 0x75 then
          match rest with
          | h₁ :: h₂ :: h₃ :: h₄ :: rest =>
            match hexValue? h₁ h₂ h₃ h₄ with
            | none => stop .invalidEscape rest
            | some n =>
              if isLowSurrogate n then stop .loneSurrogate rest
              else if isHighSurrogate n then
                match rest with
                | [] => stop .eofString []
                | s :: rest =>
                  if s = backslashByte then
                    match rest with
                    | [] => stop .eofString []
                    | u :: rest =>
                      if u = 0x75 then
                        match rest with
                        | l₁ :: l₂ :: l₃ :: l₄ :: rest =>
                          match hexValue? l₁ l₂ l₃ l₄ with
                          | none => stop .invalidEscape rest
                          | some m =>
                            if isLowSurrogate m then
                              readStringBytes
                                (pushChar ((n - 0xd800) * 0x400 + (m - 0xdc00) + 0x10000) acc) rest
                            else stop .loneSurrogate rest
                        | _ => stop .eofString []
                      else stop .unexpectedEndOfHexEscape rest
                  else stop .unexpectedEndOfHexEscape rest
              else readStringBytes (pushChar n acc) rest
          | _ => stop .eofString []
        else
          match shortEscape? e with
          | some c => readStringBytes (c :: acc) rest
          | none => stop .invalidEscape rest
    else if b < 0x20 then stop .controlCharacter rest
    else readStringBytes (b :: acc) rest

/-- A string, behind its opening quote. Its bytes have to be UTF-8; where they are not, the
reader stops at the first byte of the first ill-formed part. -/
def readString (bytes : Bytes) : Reading String :=
  match readStringBytes [] bytes with
  | .error fault => .error fault
  | .ok (acc, rest) =>
    match Utf8.decode? acc.reverse with
    | some s => .ok (s, rest)
    | none => stop .invalidCodePoint (bytes.drop ((Utf8.firstBad? bytes).getD 0 + 1))

end ClusterOutput.Json
