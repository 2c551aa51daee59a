/-
The lines of a text, and what is left of one without its end.
-/
import ClusterOutput.Text.Utf8

namespace ClusterOutput.Text

/-- The lines of a text, each with its end. The last may have none. -/
def rawLines : Bytes → List Bytes
  | [] => []
  | b :: bytes =>
    if b = 0x0a then [b] :: rawLines bytes
    else
      match rawLines bytes with
      | [] => [[b]]
      | line :: lines => (b :: line) :: lines

/-- A line without its end: a newline, and a carriage return before it. -/
def withoutNewline (cs : List Char) : List Char :=
  match cs.reverse with
  | '\n' :: '\r' :: rest => rest.reverse
  | '\n' :: rest => rest.reverse
  | _ => cs

end ClusterOutput.Text
