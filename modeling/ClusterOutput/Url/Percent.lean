/-
Percent encoding of bytes: a byte is itself or `%` and two hexadecimal digits,
upper case. Which bytes are themselves depends on the place in a URL.
-/
import ClusterOutput.Text.Utf8

namespace ClusterOutput.Url

/-- A hexadecimal digit, upper case. -/
def upperHex (n : Nat) : Char := if n < 10 then Char.ofNat (0x30 + n) else Char.ofNat (0x37 + n)

/-- A byte as `%` and two digits. -/
def percentByte (b : UInt8) : List Char := ['%', upperHex (b.toNat / 16), upperHex (b.toNat % 16)]

/-- Bytes that are encoded at every place: controls and everything outside ASCII. -/
def isControlByte (b : UInt8) : Bool := b < 0x20 || 0x7f ≤ b

/-- The bytes of some ASCII characters. -/
def inChars (chars : String) (b : UInt8) : Bool := chars.toList.any fun c => c.toNat == b.toNat

/-- Bytes as text, those in `escaped` and the controls percent-encoded. -/
def encodeBytes (escaped : UInt8 → Bool) (bytes : Bytes) : List Char :=
  bytes.flatMap fun b =>
    if isControlByte b || escaped b then percentByte b else [Char.ofNat b.toNat]

/-- A text, those of its bytes percent-encoded. -/
def encodeText (escaped : UInt8 → Bool) (cs : List Char) : List Char :=
  encodeBytes escaped (Utf8.encodeChars cs)

/-- The value of a hexadecimal digit. -/
def hexDigit? (b : UInt8) : Option Nat :=
  if 0x30 ≤ b && b ≤ 0x39 then some (b.toNat - 0x30)
  else if 0x61 ≤ b && b ≤ 0x66 then some (b.toNat - 0x57)
  else if 0x41 ≤ b && b ≤ 0x46 then some (b.toNat - 0x37)
  else none

/-- The bytes that percent-encoded bytes stand for. A `%` without two digits stands for itself. -/
def decodeBytes : Bytes → Bytes
  | [] => []
  | b :: h :: l :: rest =>
    if b = 0x25 then
      match hexDigit? h, hexDigit? l with
      | some high, some low => (high * 16 + low).toUInt8 :: decodeBytes rest
      | _, _ => b :: decodeBytes (h :: l :: rest)
    else b :: decodeBytes (h :: l :: rest)
  | b :: rest => b :: decodeBytes rest

/-- The bytes that a percent-encoded text stands for. -/
def decodeText (cs : List Char) : Bytes := decodeBytes (Utf8.encodeChars cs)

end ClusterOutput.Url
