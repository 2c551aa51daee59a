/-
Hosts of URLs: domain names and addresses.

A host whose last label is a number has to be an IPv4 address, of one to four
numbers that may be octal or hexadecimal; a host in brackets has to be an IPv6
address. Both are written in their usual form.
-/
import ClusterOutput.Url.Domain
import ClusterOutput.Url.Percent
import ClusterOutput.Text.Blank
import ClusterOutput.Text.Quoted

namespace ClusterOutput.Url

/-- Why a text is no URL. -/
inductive Fault where
  | relativeWithoutBase
  | relativeWithOpaqueBase
  | emptyHost
  | invalidPort
  | invalidIpv4
  | invalidIpv6
  | invalidDomain
  | invalidDomainCharacter
  deriving DecidableEq, Repr

def Fault.message : Fault → String
  | .relativeWithoutBase => "relative URL without a base"
  | .relativeWithOpaqueBase => "relative URL with a cannot-be-a-base base"
  | .emptyHost => "empty host"
  | .invalidPort => "invalid port number"
  | .invalidIpv4 => "invalid IPv4 address"
  | .invalidIpv6 => "invalid IPv6 address"
  | .invalidDomain => "invalid international domain name"
  | .invalidDomainCharacter => "invalid domain character"

/-- A host. The numbers of an address are its bytes, or its groups of sixteen bits. -/
inductive Host where
  | domain (name : List Char)
  | ipv4 (address : Nat)
  | ipv6 (groups : List Nat)
  deriving DecidableEq, Repr

namespace Host

/-! ## IPv4 -/

/-- The value of a digit in a base up to sixteen. -/
def digitIn? (base : Nat) (c : Char) : Option Nat :=
  let n := c.toNat
  let v :=
    if 0x30 ≤ n ∧ n ≤ 0x39 then some (n - 0x30)
    else if 0x61 ≤ n ∧ n ≤ 0x66 then some (n - 0x57)
    else if 0x41 ≤ n ∧ n ≤ 0x46 then some (n - 0x37)
    else none
  v.filter (· < base)

/-- The value of digits in a base; none if one is no digit. -/
def valueIn? (base acc : Nat) : List Char → Option Nat
  | [] => some acc
  | c :: cs =>
    match digitIn? base c with
    | none => none
    | some d => valueIn? base (acc * base + d) cs

/-- A number of an IPv4 address: hexadecimal behind `0x`, octal behind `0`, else decimal. -/
def ipv4Number? : List Char → Option Nat
  | [] => none
  | '0' :: 'x' :: cs => valueIn? 16 0 cs
  | '0' :: 'X' :: cs => valueIn? 16 0 cs
  | '0' :: c :: cs => valueIn? 8 0 (c :: cs)
  | cs => valueIn? 10 0 cs

/-- Without the empty label behind a dot at the end. -/
def dropLastEmpty (labels : List (List Char)) : List (List Char) :=
  match labels.reverse with
  | [] :: rest => rest.reverse
  | _ => labels

/-- The last label is a number, so that the host has to be an IPv4 address. -/
def endsInNumber (name : List Char) : Bool :=
  match (dropLastEmpty (Text.pieces '.' name)).reverse with
  | [] => false
  | last :: _ =>
    (!last.isEmpty && last.all (valueIn? 10 0 [·] |>.isSome)) || (ipv4Number? last).isSome

/-- The numbers of labels; none if one is no number. -/
def ipv4Numbers? : List (List Char) → Option (List Nat)
  | [] => some []
  | label :: labels =>
    match ipv4Number? label, ipv4Numbers? labels with
    | some n, some ns => some (n :: ns)
    | _, _ => none

/-- How many numbers some bytes can hold. -/
def byteNumbers (count : Nat) : Nat := 1 <<< (8 * count)

/-- The address of its numbers: all but the last are bytes, the last fills the rest. -/
def ipv4OfNumbers? (numbers : List Nat) : Option Nat :=
  match numbers.reverse with
  | [] => none
  | last :: front =>
    let front := front.reverse
    if 3 < front.length || front.any (255 < ·) || byteNumbers (4 - front.length) ≤ last then none
    else some (front.foldl (fun acc n => acc * 256 + n) 0 * byteNumbers (4 - front.length) + last)

/-- The address that a name is. -/
def ipv4? (name : List Char) : Option Nat :=
  (ipv4Numbers? (dropLastEmpty (Text.pieces '.' name))).bind ipv4OfNumbers?

/-- An address as four decimal bytes. -/
def ipv4Chars (address : Nat) : List Char :=
  let byte (i : Nat) : List Char := Nat.toDigits 10 (address / byteNumbers i % 256)
  byte 3 ++ '.' :: byte 2 ++ '.' :: byte 1 ++ '.' :: byte 0

/-! ## IPv6 -/

/-- A group of one to four hexadecimal digits. -/
def ipv6Group? (cs : List Char) : Option Nat :=
  if cs.isEmpty || 4 < cs.length then none else valueIn? 16 0 cs

/-- A decimal byte without leading zeros. -/
def plainByte? (cs : List Char) : Option Nat :=
  match cs with
  | ['0'] => some 0
  | '0' :: _ => none
  | [] => none
  | _ => if 3 < cs.length then none else (valueIn? 10 0 cs).filter (· ≤ 255)

/-- The two groups of an IPv4 address at the end. -/
def embeddedGroups? (cs : List Char) : Option (List Nat) :=
  match (Text.pieces '.' cs).map plainByte? with
  | [some a, some b, some c, some d] => some [a * 256 + b, c * 256 + d]
  | _ => none

/-- The groups between colons; `atEnd` allows an IPv4 address as the last. -/
def groupsOf? (atEnd : Bool) : List (List Char) → Option (List Nat)
  | [] => some []
  | [last] =>
    match ipv6Group? last with
    | some g => some [g]
    | none => if atEnd then embeddedGroups? last else none
  | g :: gs =>
    match ipv6Group? g, groupsOf? atEnd gs with
    | some g, some gs => some (g :: gs)
    | _, _ => none

/-- The groups of a part of an address, which may be empty. -/
def partGroups? (atEnd : Bool) (cs : List Char) : Option (List Nat) :=
  if cs.isEmpty then some [] else groupsOf? atEnd (Text.pieces ':' cs)

/-- The text before and after the first double colon. -/
def splitDoubleColon? : List Char → Option (List Char × List Char)
  | ':' :: ':' :: cs => some ([], cs)
  | c :: cs => (splitDoubleColon? cs).map fun p => (c :: p.1, p.2)
  | [] => none

/-- The address of a text: eight groups, or fewer around a double colon. -/
def ipv6? (cs : List Char) : Option (List Nat) :=
  match splitDoubleColon? cs with
  | none =>
    match partGroups? true cs with
    | some gs => if gs.length = 8 then some gs else none
    | none => none
  | some (left, right) =>
    match partGroups? false left, partGroups? true right with
    | some l, some r =>
      if l.length + r.length ≤ 7 then
        some (l ++ List.replicate (8 - l.length - r.length) 0 ++ r)
      else none
    | _, _ => none

/-- How many zeros a list begins with. -/
def leadingZeros (gs : List Nat) : Nat := (gs.takeWhile (· == 0)).length

/-- The place and the length of the first longest run of zeros. -/
def longestZeros (place : Nat) : List Nat → Nat × Nat
  | [] => (place, 0)
  | g :: gs =>
    let here := leadingZeros (g :: gs)
    let later := longestZeros (place + 1) gs
    if later.2 ≤ here then (place, here) else later

/-- Groups joined by colons. -/
def groupChars : List Nat → List Char
  | [] => []
  | [g] => Text.hexDigits g
  | g :: gs => Text.hexDigits g ++ ':' :: groupChars gs

/-- An address, the longest run of two zeros or more as a double colon. -/
def ipv6Chars (groups : List Nat) : List Char :=
  let (place, count) := longestZeros 0 groups
  if 2 ≤ count then
    groupChars (groups.take place) ++ ':' :: ':' :: groupChars (groups.drop (place + count))
  else groupChars groups

/-! ## All hosts -/

/-- The host of a text within a URL of a scheme that has domain names. -/
def parse (text : List Char) : Except Fault Host :=
  match text with
  | '[' :: rest =>
    match rest.reverse with
    | ']' :: inner =>
      match ipv6? inner.reverse with
      | some groups => .ok (.ipv6 groups)
      | none => .error .invalidIpv6
    | _ => .error .invalidIpv6
  | _ =>
    match (Utf8.decodeChars? (decodeText text)).bind Domain.toAscii with
    | none => .error .invalidDomain
    | some name =>
      if name.isEmpty then .error .emptyHost
      else if endsInNumber name then
        match ipv4? name with
        | some address => .ok (.ipv4 address)
        | none => .error .invalidIpv4
      else .ok (.domain name)

/-- Characters that no host may hold, of whatever scheme. -/
def isForbidden (c : Char) : Bool :=
  c == '\x00' || c == '\t' || c == '\n' || c == '\r' || " #/:<>?@[\\]^|".toList.contains c

/-- The host of a text within a URL of a scheme without domain names. -/
def parseOpaque (text : List Char) : Except Fault Host :=
  match text with
  | '[' :: rest =>
    match rest.reverse with
    | ']' :: inner =>
      match ipv6? inner.reverse with
      | some groups => .ok (.ipv6 groups)
      | none => .error .invalidIpv6
    | _ => .error .invalidIpv6
  | _ =>
    if text.any isForbidden then .error .invalidDomainCharacter
    else .ok (.domain (encodeText (fun _ => false) text))

/-- A host as it stands in a URL. -/
def chars : Host → List Char
  | .domain name => name
  | .ipv4 address => ipv4Chars address
  | .ipv6 groups => '[' :: ipv6Chars groups ++ [']']

end Host

end ClusterOutput.Url
