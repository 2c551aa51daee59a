/-
Text as bytes: the UTF-8 encoding, strict and forgiving decoding, and the place
of the first ill-formed part.

Decoding reads one byte at a time. Between two bytes it is either between
characters or inside one (`Partial`), which says what the next byte may be.
An ill-formed part is as long as it could have been the start of a character,
and one byte at least; forgiving decoding puts one U+FFFD for each such part.
-/

namespace ClusterOutput

/-- Octets, first to last. -/
abbrev Bytes := List UInt8

namespace Utf8

/-- The bytes of one character. -/
def encodeChar (c : Char) : Bytes :=
  let n := c.toNat
  if n < 0x80 then [n.toUInt8]
  else if n < 0x800 then [(0xc0 + n / 64).toUInt8, (0x80 + n % 64).toUInt8]
  else if n < 0x10000 then
    [(0xe0 + n / 4096).toUInt8, (0x80 + n / 64 % 64).toUInt8, (0x80 + n % 64).toUInt8]
  else
    [(0xf0 + n / 262144).toUInt8, (0x80 + n / 4096 % 64).toUInt8,
      (0x80 + n / 64 % 64).toUInt8, (0x80 + n % 64).toUInt8]

/-- The bytes of a text. -/
def encodeChars (cs : List Char) : Bytes := cs.flatMap encodeChar

/-- The bytes of a text. -/
def encode (s : String) : Bytes := encodeChars s.toList

/-- The inside of a character: how many bytes it still owes, the range of the next one, and the
bits read so far. -/
structure Partial where
  owed : Nat
  low : UInt8
  high : UInt8
  bits : Nat

/-- What one byte does: it ends a character, it leaves one unfinished, or it is not allowed. -/
inductive Step where
  | done (c : Char)
  | more (p : Partial)
  | bad

/-- A byte between characters. -/
def start (b : UInt8) : Step :=
  if b < 0x80 then .done (Char.ofNat b.toNat)
  else if b < 0xc2 then .bad
  else if b ≤ 0xdf then .more ⟨1, 0x80, 0xbf, b.toNat - 0xc0⟩
  else if b = 0xe0 then .more ⟨2, 0xa0, 0xbf, 0⟩
  else if b = 0xed then .more ⟨2, 0x80, 0x9f, 0xd⟩
  else if b ≤ 0xef then .more ⟨2, 0x80, 0xbf, b.toNat - 0xe0⟩
  else if b = 0xf0 then .more ⟨3, 0x90, 0xbf, 0⟩
  else if b ≤ 0xf3 then .more ⟨3, 0x80, 0xbf, b.toNat - 0xf0⟩
  else if b = 0xf4 then .more ⟨3, 0x80, 0x8f, 4⟩
  else .bad

/-- A byte inside a character. -/
def Partial.step (p : Partial) (b : UInt8) : Step :=
  if p.low ≤ b ∧ b ≤ p.high then
    let bits := p.bits * 64 + (b.toNat - 0x80)
    if p.owed ≤ 1 then .done (Char.ofNat bits) else .more ⟨p.owed - 1, 0x80, 0xbf, bits⟩
  else .bad

/-- A byte where decoding stands: between characters, or inside one. -/
def step : Option Partial → UInt8 → Step
  | none, b => start b
  | some p, b => p.step b

/-- Strict decoding from where it stands. -/
def decodeFrom : Option Partial → Bytes → Option (List Char)
  | none, [] => some []
  | some _, [] => none
  | p, b :: bytes =>
    match step p b with
    | .done c => (decodeFrom none bytes).map (c :: ·)
    | .more q => decodeFrom (some q) bytes
    | .bad => none

/-- Strict decoding: none unless all of it is well-formed. -/
def decodeChars? (bytes : Bytes) : Option (List Char) := decodeFrom none bytes

/-- Strict decoding: none unless all of it is well-formed. -/
def decode? (bytes : Bytes) : Option String := (decodeChars? bytes).map String.ofList

/-- An ill-formed part: how many bytes precede it, and how many it has; none if the text ends in
it. -/
structure BadPart where
  start : Nat
  length : Option Nat
  deriving DecidableEq, Repr

/-- The first ill-formed part, where the character being read began at `began` and `seen` bytes
lie behind. -/
def badPartFrom (began seen : Nat) : Option Partial → Bytes → Option BadPart
  | none, [] => none
  | some _, [] => some ⟨began, none⟩
  | p, b :: bytes =>
    match step p b with
    | .done _ => badPartFrom (seen + 1) (seen + 1) none bytes
    | .more q => badPartFrom began (seen + 1) (some q) bytes
    | .bad => some ⟨began, some (max 1 (seen - began))⟩

/-- The first ill-formed part, if there is one. -/
def badPart? (bytes : Bytes) : Option BadPart := badPartFrom 0 0 none bytes

/-- How many bytes precede the first ill-formed part; none if there is no such part. -/
def firstBad? (bytes : Bytes) : Option Nat := (badPart? bytes).map (·.start)

/-- Stands for an ill-formed part. -/
def replacement : Char := '\uFFFD'

/-- Forgiving decoding from where it stands. A byte that breaks a character off is looked at
again as the first of the next. -/
def decodeLossyFrom : Option Partial → Bytes → List Char
  | none, [] => []
  | some _, [] => [replacement]
  | none, b :: bytes =>
    match start b with
    | .done c => c :: decodeLossyFrom none bytes
    | .more q => decodeLossyFrom (some q) bytes
    | .bad => replacement :: decodeLossyFrom none bytes
  | some p, b :: bytes =>
    match p.step b with
    | .done c => c :: decodeLossyFrom none bytes
    | .more q => decodeLossyFrom (some q) bytes
    | .bad =>
      replacement :: match start b with
        | .done c => c :: decodeLossyFrom none bytes
        | .more q => decodeLossyFrom (some q) bytes
        | .bad => replacement :: decodeLossyFrom none bytes

/-- Forgiving decoding: U+FFFD for every ill-formed part. -/
def decodeLossy (bytes : Bytes) : String := String.ofList (decodeLossyFrom none bytes)

end Utf8

end ClusterOutput
