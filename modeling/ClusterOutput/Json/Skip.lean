/-
Passing over a JSON value without decoding it: only its syntax is checked.
Nesting is not limited, strings may hold any bytes but controls, and numbers
have no range.
-/
import ClusterOutput.Json.Lexeme

namespace ClusterOutput.Json

/-- Passes over a string, behind its opening quote. -/
def skipString : Bytes → Except Fault Bytes
  | [] => stop .eofString []
  | b :: rest =>
    if b = quoteByte then .ok rest
    else if b = backslashByte then
      match rest with
      | [] => stop .eofString []
      | e :: rest =>
        if e = 0x75 then
          match rest with
          | h₁ :: h₂ :: h₃ :: h₄ :: rest =>
            match hexValue? h₁ h₂ h₃ h₄ with
            | none => stop .invalidEscape rest
            | some _ => skipString rest
          | _ => stop .eofString []
        else if (shortEscape? e).isSome then skipString rest
        else stop .invalidEscape rest
    else if b < 0x20 then stop .controlCharacter (b :: rest)
    else skipString rest

/-- Passes over an exponent, behind its mark. -/
def skipExponent (bytes : Bytes) : Except Fault Bytes :=
  let bytes := match bytes with
    | b :: rest => if b = 0x2b ∨ b = 0x2d then rest else bytes
    | [] => []
  match bytes with
  | [] => stop .invalidNumber []
  | b :: rest => if isDigit b then .ok (rest.dropWhile isDigit) else stop .invalidNumber rest

/-- Passes over the digits after the point, one at least, and an exponent. -/
def skipFraction : Bytes → Except Fault Bytes
  | [] => stopAtNext .invalidNumber []
  | b :: rest =>
    if isDigit b then
      match rest.dropWhile isDigit with
      | [] => .ok []
      | c :: rest => if isExponentMark c then skipExponent rest else .ok (c :: rest)
    else stopAtNext .invalidNumber (b :: rest)

/-- Passes over what may follow the whole part of a number. -/
def skipAfterWhole : Bytes → Except Fault Bytes
  | [] => .ok []
  | b :: rest =>
    if b = 0x2e then skipFraction rest
    else if isExponentMark b then skipExponent rest
    else .ok (b :: rest)

/-- Passes over a number, behind its minus sign where it has one. -/
def skipNumeral : Bytes → Except Fault Bytes
  | [] => stop .invalidNumber []
  | b :: rest =>
    if b = 0x30 then
      match rest with
      | c :: _ => if isDigit c then stopAtNext .invalidNumber rest else skipAfterWhole rest
      | [] => .ok []
    else if isDigit b then skipAfterWhole (rest.dropWhile isDigit)
    else stop .invalidNumber rest

/-- What passing over one token leads to. -/
inductive Passed where
  | opened (b : Bracket) (rest : Bytes)
  | ended (rest : Bytes)

/-- Passes over a scalar, or over an opening bracket. -/
def skipToken (bytes : Bytes) : Except Fault Passed :=
  match bytes with
  | [] => stopAtNext .eofValue []
  | b :: rest =>
    if b = 0x6e then do return .ended (← readIdent nullTail rest)
    else if b = 0x74 then do return .ended (← readIdent trueTail rest)
    else if b = 0x66 then do return .ended (← readIdent falseTail rest)
    else if b = 0x2d then do return .ended (← skipNumeral rest)
    else if isDigit b then do return .ended (← skipNumeral bytes)
    else if b = quoteByte then do return .ended (← skipString rest)
    else if b = 0x5b then .ok (.opened .square rest)
    else if b = 0x7b then .ok (.opened .curly rest)
    else stopAtNext .expectedValue bytes

/-- Passes over a member's name and its colon. -/
def skipName (bytes : Bytes) : Except Fault Bytes :=
  match skipSpace bytes with
  | [] => stopAtNext .eofObject []
  | b :: rest =>
    if b = quoteByte then do
      match skipSpace (← skipString rest) with
      | [] => stopAtNext .eofObject []
      | c :: rest => if c = 0x3a then .ok rest else stopAtNext .expectedColon (c :: rest)
    else stopAtNext .keyMustBeString (b :: rest)

/-- What stands behind a value within open brackets: the end of all of them, or the place of the
next value and the brackets around it. -/
inductive Onward where
  | ended (rest : Bytes)
  | value (inner : Bracket) (outer : List Bracket) (rest : Bytes)

/-- Closes brackets until a comma, or until none is open. `fresh` holds of a bracket just opened,
behind which a value may stand without a comma. -/
def skipClosings (fresh : Bool) : Bracket → List Bracket → Bytes → Except Fault Onward
  | inner, outer, bytes =>
    match skipSpace bytes with
    | [] => stopAtNext (match inner with | .square => .eofList | .curly => .eofObject) []
    | b :: rest =>
      if fresh = false ∧ b = 0x2c then .ok (.value inner outer rest)
      else if (inner = .square ∧ b = 0x5d) ∨ (inner = .curly ∧ b = 0x7d) then
        match outer with
        | [] => .ok (.ended rest)
        | next :: outer => skipClosings false next outer rest
      else if fresh then .ok (.value inner outer (b :: rest))
      else
        stopAtNext
          (match inner with
            | .square => .expectedListCommaOrEnd
            | .curly => .expectedObjectCommaOrEnd)
          (b :: rest)
termination_by _ outer => outer.length

/-- Passes over a value within open brackets, and then over all that they hold. Each turn passes
over a byte at least, so that one turn for each byte is enough. -/
def skipWithin : (turns : Bytes) → List Bracket → Bytes → Except Fault Bytes
  | [], _, bytes => stopAtNext .eofValue bytes
  | _ :: turns, stack, bytes => do
    let onward ← match ← skipToken (skipSpace bytes) with
      | .opened b rest => skipClosings true b stack rest
      | .ended rest =>
        match stack with
        | [] => pure (.ended rest)
        | inner :: outer => skipClosings false inner outer rest
    match onward with
    | .ended rest => .ok rest
    | .value .square outer rest => skipWithin turns (.square :: outer) rest
    | .value .curly outer rest => do skipWithin turns (.curly :: outer) (← skipName rest)

/-- Passes over a value. -/
def skipValue (bytes : Bytes) : Except Fault Bytes := skipWithin bytes [] bytes

end ClusterOutput.Json
