/-
Paths: the bytes that name a file, their parts between slashes, and the
directories above one.
-/
import ClusterOutput.Text.Blank
import ClusterOutput.Text.Utf8

namespace ClusterOutput

/-- What names a file. It need not be text. -/
abbrev Path := Bytes

namespace Path

def slash : UInt8 := 0x2f

def ofString (s : String) : Path := Utf8.encode s

/-- A path as messages show it. -/
def shown (p : Path) : String := Utf8.decodeLossy p

def isAbsolute (p : Path) : Bool := p.head? == some slash

/-- A name below a path. -/
def join (p : Path) (name : String) : Path :=
  if p.isEmpty || p.getLast? == some slash then p ++ Utf8.encode name
  else p ++ slash :: Utf8.encode name

/-- The parts of a path that are not empty. -/
def parts (p : Path) : List Bytes := (Text.pieces slash p).filter (!·.isEmpty)

/-- The absolute path of some parts. -/
def ofParts (parts : List Bytes) : Path :=
  if parts.isEmpty then [slash] else parts.flatMap (slash :: ·)

/-- An absolute directory and those above it, the nearest first. -/
def upwards (p : Path) : List Path :=
  (List.range (p.parts.length + 1)).map fun k => ofParts (p.parts.take (p.parts.length - k))

end Path

/-- What a path leads to. -/
inductive FileState where
  | missing
  /-- A part of the path that has to be a directory is a file. -/
  | belowFile
  | directory
  | file (content : Bytes)
  deriving DecidableEq

/-- What each path leads to. -/
abbrev Files := Path → FileState

def FileState.isThere : FileState → Bool
  | missing | belowFile => false
  | directory | file _ => true

/-- Why a file could not be read as text. -/
inductive FileFault where
  | isMissing
  | isBelowFile
  | isDirectory
  | notText
  deriving DecidableEq, Repr

/-- The name of a kind of failure. -/
def FileFault.kind : FileFault → String
  | isMissing => "entity not found"
  | isBelowFile => "not a directory"
  | isDirectory => "is a directory"
  | notText => "invalid data"

end ClusterOutput
