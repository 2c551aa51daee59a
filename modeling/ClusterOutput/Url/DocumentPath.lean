/-
The path of a request on an index, a document type and a document id.

A component that is named becomes a segment of its own; names cannot change how
many segments there are, since the separators of a URL are encoded in them. A
comma is kept: it separates the names of several indices.
-/
import ClusterOutput.Url.Percent

namespace ClusterOutput.Url

/-- ASCII characters that are encoded in a segment made from a name. -/
def segmentEscapes : String := " \"<>\x60\x7b\x7d|\\^%/?#+;[]"

/-- A name as one segment of a path. -/
def encodeSegment (name : String) : List Char :=
  encodeText (inChars segmentEscapes) name.toList

/-- The components of a path. A type stands before an id, and an index that is empty is left
out only where an id stands alone. -/
def components (index docType id : String) : List String :=
  if docType ≠ "" then
    if id = "" then [index, docType] else [index, docType, id]
  else if id ≠ "" then
    if index = "" then [id] else [index, id]
  else [index]

/-- A path: each component as a segment behind a slash. -/
def documentPath (index docType id : String) : String :=
  String.ofList ((components index docType id).flatMap fun c => '/' :: encodeSegment c)

end ClusterOutput.Url
