/-
JSON values. Whole numbers from -2^63 to 2^64 - 1 keep their digits, all others
are binary64. Members of an object are in the order they are written in; an
object that was read has them sorted, each name once.
-/
import ClusterOutput.Number.Binary64

namespace ClusterOutput

/-- A JSON value. -/
inductive Json where
  | null
  | bool (b : Bool)
  | int (i : Int)
  | float (x : Binary64)
  | str (s : String)
  | arr (items : List Json)
  | obj (members : List (String × Json))
  deriving Repr, Inhabited

namespace Json

/-- The member with its value in place of an earlier one of that name, else at its place in the
order of names. -/
def insertMember (name : String) (value : Json) :
    List (String × Json) → List (String × Json)
  | [] => [(name, value)]
  | (k, v) :: members =>
    if name = k then (name, value) :: members
    else if name < k then (name, value) :: (k, v) :: members
    else (k, v) :: insertMember name value members

/-- Sorted members, the last of each name. -/
def sortMembers (members : List (String × Json)) : List (String × Json) :=
  members.foldl (fun sorted m => insertMember m.1 m.2 sorted) []

/-- The value of the first member of that name. -/
def lookup (name : String) : List (String × Json) → Option Json
  | [] => none
  | (k, v) :: members => if name = k then some v else lookup name members

/-- The value of a member, where the value is an object that has it. -/
def member? (name : String) : Json → Option Json
  | obj members => lookup name members
  | _ => none

mutual

/-- The value with the members of every object within it sorted. -/
def sorted : Json → Json
  | arr items => arr (sortedItems items)
  | obj members => obj (sortMembers (sortedMembers members))
  | v => v

/-- Each item with its members sorted. -/
def sortedItems : List Json → List Json
  | [] => []
  | v :: items => sorted v :: sortedItems items

/-- Each member with its value sorted. -/
def sortedMembers : List (String × Json) → List (String × Json)
  | [] => []
  | (k, v) :: members => (k, sorted v) :: sortedMembers members

end

end Json

end ClusterOutput
