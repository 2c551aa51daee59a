/-
Domain names as they stand in a URL: labels joined by dots, in ASCII.

Case is folded first, over ASCII, the Latin, Greek, Cyrillic and Armenian
alphabets and the full-width forms; some characters are dropped, some are
refused. A label that is not ASCII is then written in Punycode behind `xn--`,
and a label that comes with `xn--` has to be what such a label is written as.
Last, the characters that separate the parts of a URL are refused.

Not all rules for names in other scripts are here: a letter and the accent behind
it are not put together, compatibility forms beyond those listed stand for
themselves, and the direction of writing is not looked at.
-/
import ClusterOutput.Text.Blank
import ClusterOutput.Text.Shown
import ClusterOutput.Text.Utf8
import ClusterOutput.Url.Punycode

namespace ClusterOutput.Url.Domain

/-- The number is in the range. -/
def within (low high n : Nat) : Bool := low ≤ n && n ≤ high

/-- Characters that vanish: soft hyphens, joiners of words, variation selectors. -/
def isDropped (n : Nat) : Bool :=
  n == 0xad || n == 0x34f || within 0x180b 0x180d n || n == 0x200b || n == 0x2060 || n == 0x2064 ||
  within 0xfe00 0xfe0f n || n == 0xfeff

/-- Characters that no name may hold: controls, separators, private use, what stands for none. -/
def isRefused (n : Nat) : Bool :=
  within 0x80 0x9f n || n == 0xa8 || n == 0xaf || n == 0xb4 || n == 0xb8 || n == 0x1680 ||
  within 0x200c 0x200f n || within 0x2028 0x202e n || within 0x2061 0x2063 n ||
  within 0x2065 0x206f n || within 0xe000 0xf8ff n || within 0xfdd0 0xfdef n ||
  within 0xfff0 0xffff n || within 0xf0000 0x10ffff n

/-- Capitals that stand a fixed distance before their small letters: first, last, distance. -/
def capitalRuns : List (Nat × Nat × Nat) :=
  [(0x41, 0x5a, 0x20), (0xc0, 0xd6, 0x20), (0xd8, 0xde, 0x20), (0x388, 0x38a, 0x25),
    (0x391, 0x3a1, 0x20), (0x3a3, 0x3ab, 0x20), (0x400, 0x40f, 0x50), (0x410, 0x42f, 0x20),
    (0x531, 0x556, 0x30), (0x386, 0x386, 0x26), (0x38c, 0x38c, 0x40), (0x38e, 0x38f, 0x3f)]

/-- Ranges in which a capital stands right before its small letter, the first being a capital. -/
def capitalPairs : List (Nat × Nat) :=
  [(0x100, 0x12f), (0x134, 0x137), (0x139, 0x13e), (0x141, 0x148), (0x14a, 0x177), (0x179, 0x17e),
    (0x1cd, 0x1dc), (0x1de, 0x1ef), (0x1f8, 0x21f), (0x222, 0x233), (0x370, 0x373), (0x3d8, 0x3ef),
    (0x460, 0x481), (0x48a, 0x4bf), (0x4c1, 0x4ce), (0x4d0, 0x52f), (0x1e00, 0x1e95),
    (0x1ea0, 0x1eff)]

/-- Single characters that stand for others. -/
def singles : List (Nat × List Nat) :=
  [(0xaa, [0x61]), (0xb2, [0x32]), (0xb3, [0x33]), (0xb5, [0x3bc]), (0xb9, [0x31]), (0xba, [0x6f]),
    (0xbc, [0x31, 0x2044, 0x34]), (0xbd, [0x31, 0x2044, 0x32]), (0xbe, [0x33, 0x2044, 0x34]),
    (0x130, [0x69, 0x307]), (0x132, [0x69, 0x6a]), (0x133, [0x69, 0x6a]), (0x13f, [0x6c, 0xb7]),
    (0x140, [0x6c, 0xb7]), (0x149, [0x2bc, 0x6e]), (0x178, [0xff]), (0x17f, [0x73]),
    (0x1e9e, [0x73, 0x73]), (0x4c0, [0x4cf]), (0x2126, [0x3c9]), (0x212a, [0x6b]),
    (0x212b, [0xe5]), (0x3002, [0x2e]), (0xff61, [0x2e])]

/-- What a character stands for; none if it is refused. -/
def foldPoint (n : Nat) : Option (List Nat) :=
  if isDropped n then some []
  else if isRefused n then none
  else if n == 0xa0 || within 0x2000 0x200a n || n == 0x202f || n == 0x205f || n == 0x3000 then
    some [0x20]
  else
    match singles.find? (·.1 == n) with
    | some (_, points) => some points
    | none =>
      -- full-width forms stand for ASCII, the capitals among them for small letters
      let n := if within 0xff01 0xff5e n then n - 0xfee0 else n
      match capitalRuns.find? fun r => within r.1 r.2.1 n with
      | some (_, _, distance) => some [n + distance]
      | none =>
        match capitalPairs.find? fun r => within r.1 r.2 n with
        | some (first, _) => some [if (n - first) % 2 = 0 then n + 1 else n]
        | none => some [n]

/-- A name with every character folded; none if one is refused. -/
def fold : List Char → Option (List Char)
  | [] => some []
  | c :: cs =>
    match foldPoint c.toNat, fold cs with
    | some points, some cs => some (points.map Char.ofNat ++ cs)
    | _, _ => none

def isAscii (cs : List Char) : Bool := cs.all (·.toNat < 0x80)

/-- Characters that join the one before them cannot begin a label. -/
def beginsWell : List Char → Bool
  | [] => true
  | c :: _ => !Text.inRanges Text.combining c.toNat

/-- Marks a label in Punycode. -/
def markChars : List Char := ['x', 'n', '-', '-']

/-- The label behind the mark of Punycode, if it has one. -/
def unmark? (label : List Char) : Option (List Char) :=
  match label with
  | 'x' :: 'n' :: '-' :: '-' :: rest => some rest
  | _ => none

/-- A folded label in ASCII. -/
def labelToAscii (label : List Char) : Option (List Char) :=
  match unmark? label with
  | some code =>
    match Punycode.decode? code with
    | none => none
    | some plain =>
      if isAscii plain || !beginsWell plain || fold plain != some plain || !isAscii code then none
      else some label
  | none =>
    if isAscii label then some label
    else if beginsWell label then some (markChars ++ Punycode.encode label)
    else none

/-- ASCII characters that no domain name of a URL may hold. -/
def isForbidden (c : Char) : Bool :=
  c.toNat ≤ 0x20 || c.toNat == 0x7f || "#%/:<>?@[\\]^|".toList.contains c

/-- Labels joined by dots. -/
def joinLabels : List (List Char) → List Char
  | [] => []
  | [label] => label
  | label :: rest => label ++ '.' :: joinLabels rest

/-- The labels in ASCII; none if one cannot be. -/
def labelsToAscii : List (List Char) → Option (List (List Char))
  | [] => some []
  | label :: rest =>
    match labelToAscii label, labelsToAscii rest with
    | some label, some rest => some (label :: rest)
    | _, _ => none

/-- A name in ASCII; none if it is no domain name. -/
def toAscii (name : List Char) : Option (List Char) :=
  match fold name with
  | none => none
  | some folded =>
    match labelsToAscii (Text.pieces '.' folded) with
    | none => none
    | some ls =>
      let ascii := joinLabels ls
      if ascii.any isForbidden then none else some ascii

end ClusterOutput.Url.Domain
