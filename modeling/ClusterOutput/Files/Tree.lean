/-
A tree of files below a working directory, and what paths lead to in it.

A path that does not start with a slash starts at the working directory. Every
part of a path but the last has to be a directory, and so has the last where a
slash follows it.
-/
import ClusterOutput.Files.Path

namespace ClusterOutput

/-- A working directory and the entries below it, each by its parts. Directories between them
are there as well. -/
structure FileTree where
  workingDirectory : List Bytes
  entries : List (List Bytes × FileState)

namespace FileTree

/-- What is at some absolute parts, none of which is a dot. -/
def stateAt (t : FileTree) (parts : List Bytes) : FileState :=
  match t.entries.find? fun e => t.workingDirectory ++ e.1 = parts with
  | some e => e.2
  | none =>
    if parts.isPrefixOf t.workingDirectory ||
        t.entries.any fun e => parts.isPrefixOf (t.workingDirectory ++ e.1) then .directory
    else .missing

def dot : Bytes := [0x2e]

def dotDot : Bytes := [0x2e, 0x2e]

/-- Walks from a place along parts; what stopped it if a part leads nowhere. -/
def walk (t : FileTree) : List Bytes → List Bytes → Except FileState (List Bytes)
  | place, [] => .ok place
  | place, part :: parts =>
    match t.stateAt place with
    | .directory =>
      if part = dot then t.walk place parts
      else if part = dotDot then t.walk place.dropLast parts
      else t.walk (place ++ [part]) parts
    | .file _ => .error .belowFile
    | state => .error state

/-- What a path leads to. -/
def files (t : FileTree) : Files := fun path =>
  if path.isEmpty then .missing
  else
    match t.walk (if Path.isAbsolute path then [] else t.workingDirectory) (Path.parts path) with
    | .error state => state
    | .ok place =>
      match t.stateAt place with
      | .file content => if path.getLast? = some Path.slash then .belowFile else .file content
      | state => state

end FileTree

end ClusterOutput
