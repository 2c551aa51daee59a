/-
Messages on a plain connection that closes after one answer: the text of a
request, and the answer in what was received so far.

An answer is a line with its status, lines with its fields, an empty line, and
a body. The body ends where its chunks do, where its length says, or where the
connection does.
-/
import ClusterOutput.Http.Transport
import ClusterOutput.Text.Lines

namespace ClusterOutput.Http

/-! ## Requests -/

def lineEnd : List Char := ['\r', '\n']

/-- The path and the query of a URL as a request names them. -/
def targetChars (url : Url) : List Char :=
  (if url.path.chars.isEmpty then ['/'] else url.path.chars) ++ url.queryChars

/-- The fields of a request, in order. A body that is missing has no length, unless the method
calls for one. -/
def Request.fields (r : Request) : List (String × String) :=
  [("host", String.ofList ((r.url.authority.map (·.hostChars)).getD []))] ++
    r.headers.accept.map (("accept", ·)) ++
    r.headers.contentType.map (("content-type", ·)) ++
    r.headers.authorization.map (("authorization", ·)) ++
    (if r.body.isSome || r.method == "POST" || r.method == "PUT" then
      [("content-length", Text.ofNat (r.body.getD []).length)] else []) ++
    [("connection", "close")]

/-- The bytes of a request. -/
def Request.bytes (r : Request) : Bytes :=
  let firstLine := r.method.toList ++ ' ' :: targetChars r.url ++ " HTTP/1.1".toList ++ lineEnd
  let fieldLines := r.fields.flatMap fun f => f.1.toList ++ ':' :: ' ' :: f.2.toList ++ lineEnd
  Utf8.encodeChars (firstLine ++ fieldLines ++ lineEnd) ++ r.body.getD []

/-! ## Chunks -/

/-- Where reading stands in a body of chunks. -/
inductive ChunkState where
  /-- In the size of a chunk, of which the number was read; none before its first digit. -/
  | size (n : Option Nat)
  /-- Behind the size, in the same line. -/
  | extension (n : Nat)
  /-- In the content of a chunk, of which `left + 1` bytes are to come. -/
  | content (left : Nat)
  /-- Behind the content. -/
  | behind
  /-- Behind the chunk without content that ends a body. -/
  | done
  | malformed
  deriving DecidableEq

namespace ChunkState

/-- Behind the line with the size of a chunk. -/
def ofSize : Nat → ChunkState
  | 0 => done
  | n + 1 => content n

def newline : UInt8 := 0x0a
def carriageReturn : UInt8 := 0x0d

/-- Reads one byte. -/
def step : ChunkState → UInt8 → ChunkState
  | size none, b =>
    match Url.hexDigit? b with
    | some d => size (some d)
    | none => malformed
  | size (some n), b =>
    match Url.hexDigit? b with
    | some d => size (some (n * 16 + d))
    | none => if b = newline then ofSize n else extension n
  | extension n, b => if b = newline then ofSize n else extension n
  | content 0, _ => behind
  | content (left + 1), _ => content left
  | behind, b =>
    if b = newline then size none else if b = carriageReturn then behind else malformed
  | done, _ => done
  | malformed, _ => malformed

/-- The byte belongs to the content of a chunk. -/
def keeps : ChunkState → Bool
  | content _ => true
  | _ => false

/-- The content of chunks, and where reading ends. -/
def read : ChunkState → Bytes → Bytes × ChunkState
  | s, [] => ([], s)
  | s, b :: bytes =>
    let (kept, last) := read (s.step b) bytes
    (if s.keeps then b :: kept else kept, last)

end ChunkState

/-! ## Answers -/

/-- The first lines of an answer: its status, and its fields with their names in lower case. -/
structure Head where
  status : Nat
  fields : List (String × Bytes)

namespace Head

/-- The value of a field. -/
def value? (h : Head) (name : String) : Option Bytes := (h.fields.find? (·.1 == name)).map (·.2)

def isPad (b : UInt8) : Bool := b == 0x20 || b == 0x09 || b == 0x0d || b == 0x0a

/-- Without spaces and line ends at either end. -/
def trim (bytes : Bytes) : Bytes :=
  ((bytes.dropWhile isPad).reverse.dropWhile isPad).reverse

/-- The status that the first line of an answer gives. -/
def status? (line : Bytes) : Option Nat :=
  match Text.pieces 0x20 (trim line) with
  | version :: code :: _ =>
    if (Utf8.encode "HTTP/1.").isPrefixOf version ∧ code.length = 3 then
      (Utf8.decode? code).bind fun s => (Text.readWord s).toOption
    else none
  | _ => none

/-- A field, unless the line has no colon. -/
def field? (line : Bytes) : Option (String × Bytes) :=
  let name := line.takeWhile (· != 0x3a)
  match line.drop name.length with
  | [] => none
  | _ :: value => some ((Utf8.decodeLossy (trim name)).toLower, trim value)

/-- The head of an answer and what follows it; none if the lines end before it does. The inner
value is none if the first line is no status. -/
def ofLines? (lines : List Bytes) : Option (Option Head × Bytes) :=
  let head := lines.takeWhile fun line => !(trim line).isEmpty
  match lines.drop head.length with
  | [] => none
  | _ :: body =>
    some (head.head?.bind status? |>.map (⟨·, head.tail.filterMap field?⟩), body.flatten)

/-- The length of the body, if a field says it. -/
def length? (h : Head) : Option Nat :=
  (h.value? "content-length").bind fun v =>
    (Utf8.decode? v).bind fun s => (Text.readWord s).toOption

/-- The body comes in chunks. -/
def isChunked (h : Head) : Bool :=
  match (h.value? "transfer-encoding").bind Utf8.decode? with
  | some s => s.toLower == "chunked"
  | none => false

/-- The body as far as it was received, and whether that is all of it; the latter is unknown where
the end of the connection decides. -/
def body (h : Head) (rest : Bytes) : Bytes × Option Bool :=
  if h.isChunked then
    let (content, last) := ChunkState.read (.size none) rest
    (content, some (last == .done))
  else
    match h.length? with
    | some n => (rest.take n, some (n ≤ rest.length))
    | none => (rest, none)

/-- The answer with this head. -/
def outcome (h : Head) (body : Bytes) (whole : Bool) : Outcome :=
  .answer h.status body ((h.value? "location").bind Utf8.decode?) whole

end Head

/-- What an exchange came to, once what was received tells it: the answer is complete, or the
connection is closed. -/
def outcome? (method : String) (received : Bytes) (isClosed : Bool) : Option Outcome :=
  match Head.ofLines? (Text.rawLines received) with
  | none => if isClosed then some .drop else none
  | some (none, _) => some .drop
  | some (some head, rest) =>
    let (body, whole) := head.body rest
    if isBodiless method head.status || whole == some true then some (head.outcome body true)
    else if isClosed then some (head.outcome body (whole == none))
    else none

end ClusterOutput.Http
