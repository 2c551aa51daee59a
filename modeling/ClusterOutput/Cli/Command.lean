/-
The commands: what each asks of a cluster, and what it prints.
-/
import ClusterOutput.Cli.Arguments
import ClusterOutput.Cli.Failure
import ClusterOutput.Client.Documents
import ClusterOutput.Client.Options
import ClusterOutput.Text.Lines

namespace ClusterOutput.Cli

/-- What commands work with. -/
structure Setting where
  client : Client
  world : World

/-- What a command comes to, and what it printed. -/
structure Printed where
  output : String
  failure : Option Failure

/-- A command that failed before it printed anything. -/
def Printed.nothing (f : Failure) : Printed := ⟨"", some f⟩

/-- A request made for a reason. If the run was interrupted meanwhile, that is noted behind all else,
since an interrupted request notes nothing more. -/
def inContext {α : Type} (context : String) : Except RequestError α × Session →
    Except Failure α × Session
  | (.ok a, s) => (.ok a, s)
  | (.error e, s) => (.error (.request context e), if s.isCancelled then s.log .interrupted else s)

/-! ## Storing documents -/

/-- How documents are stored. -/
structure Shipment where
  index : String
  docType : String
  /-- The member of a document that is its id. -/
  idField : Option String

/-- How many documents were stored, and how many were not taken. -/
structure Summary where
  indexed : Nat
  rejected : Nat
  deriving DecidableEq, Repr

def Summary.zero : Summary := ⟨0, 0⟩

/-- The id that a document gives: a text that is not empty, or a number. -/
def documentId (doc : Json) (field : String) : String :=
  match doc.member? field with
  | some (.str s) => s
  | some (.int i) => Text.ofInt i
  | some (.float x) => String.ofList x.text
  | _ => ""

/-- A document was stored if the answer names its id. -/
def Summary.count (summary : Summary) (a : Acknowledgement) : Summary :=
  if a.id = "" then { summary with rejected := summary.rejected + 1 }
  else { summary with indexed := summary.indexed + 1 }

/-- A document that was not stored is noted, with the answer. -/
def noteRejection (number : Nat) (a : Acknowledgement) (s : Session) : Session :=
  if a.id = "" then s.log (.documentRejected number a.text) else s

/-- What one line comes to: nothing if it is blank, else a document. -/
def lineDocument? (number : Nat) (line : Bytes) : Except Failure (Option Json) :=
  match Utf8.decodeChars? line with
  | none =>
    .error (.input "Failed to read input" (.notText ((Utf8.badPart? line).getD ⟨0, none⟩)))
  | some cs =>
    let cs := Text.withoutNewline cs
    if cs.all Text.isBlank then .ok none
    else
      match Json.parse (Utf8.encodeChars cs) with
      | .ok doc => .ok (some doc)
      | .error e => .error (.invalidLine number e)

/-- Stores the document of a line, unless the line is blank. -/
def shipLine (setting : Setting) (shipment : Shipment) (number : Nat) (summary : Summary)
    (line : Bytes) (s : Session) : Except Failure Summary × Session :=
  match lineDocument? number line with
  | .error f => (.error f, s)
  | .ok none => (.ok summary, s)
  | .ok (some doc) =>
    let id := (shipment.idField.map (documentId doc)).getD ""
    match
      inContext ("Failed to index line " ++ Text.ofNat number)
        (setting.client.index setting.world shipment.index shipment.docType id none (.json doc) s)
    with
    | (.error f, s) => (.error f, s)
    | (.ok a, s) => (.ok (summary.count a), noteRejection number a s)

/-- Stores the documents of lines, the first of which has the number given. The first line that
is no JSON ends it, and so does the first request that fails. -/
def ship (setting : Setting) (shipment : Shipment) :
    (number : Nat) → Summary → List Bytes → Session → Except Failure Summary × Session
  | _, summary, [], s => (.ok summary, s)
  | number, summary, line :: lines, s =>
    match shipLine setting shipment number summary line s with
    | (.error f, s) => (.error f, s)
    | (.ok summary, s) => ship setting shipment (number + 1) summary lines s

/-- The bytes of an input: those given for a dash, else those of a file. -/
def inputOf (files : Files) (stdin : Bytes) (input : String) : Except Failure Bytes :=
  if input = "-" then .ok stdin
  else
    let cannotOpen (fault : InputFault) : Except Failure Bytes :=
      .error (.input ("Failed to open " ++ input) fault)
    match files (Path.ofString input) with
    | .missing => cannotOpen .missing
    | .belowFile => cannotOpen .belowFile
    | .directory => .error (.input "Failed to read input" .directory)
    | .file content => .ok content

/-- Makes what was stored visible, if that is asked for and anything was. -/
def refreshAfter (setting : Setting) (index : String) (refresh : Bool) (summary : Summary)
    (s : Session) : Except Failure Unit × Session :=
  if refresh && 0 < summary.indexed then
    match
      inContext ("Failed to refresh " ++ index) (setting.client.refresh setting.world index s)
    with
    | (.ok _, s) => (.ok (), s)
    | (.error f, s) => (.error f, s)
  else (.ok (), s)

/-- What is printed of stored documents. That some were rejected is a failure, but told last. -/
def Summary.printed (summary : Summary) (index : String) : Printed where
  output := "Indexed " ++ Text.ofNat summary.indexed ++ " documents into " ++ index ++ "\n"
  failure :=
    if 0 < summary.rejected then
      some (.rejected summary.rejected (summary.indexed + summary.rejected))
    else none

/-- What follows the last line: the refresh, and what is printed. -/
def afterLines (setting : Setting) (index : String) (refresh : Bool) (summary : Summary)
    (s : Session) : Printed × Session :=
  let s := s.log (.shippingFinished summary.indexed summary.rejected index)
  match refreshAfter setting index refresh summary s with
  | (.error f, s) => (.nothing f, s)
  | (.ok (), s) => (summary.printed index, s)

/-- Stores the documents of an input. -/
def runIndex (setting : Setting) (files : Files) (stdin : Bytes) (input : String)
    (shipment : Shipment) (refresh : Bool) (s : Session) : Printed × Session :=
  match inputOf files stdin input with
  | .error f => (.nothing f, s)
  | .ok content =>
    match ship setting shipment 1 .zero (Text.rawLines content) s with
    | (.error f, s) => (.nothing f, s)
    | (.ok summary, s) => afterLines setting shipment.index refresh summary s

/-! ## The other commands -/

/-- The answer says that the document was there. -/
def wasDeleted (a : Acknowledgement) : Bool := a.isFound || a.result == some "deleted"

/-- Deletes a document, which has to be there. -/
def runDelete (setting : Setting) (index docType id : String) (s : Session) : Printed × Session :=
  match
    inContext ("Failed to delete " ++ id ++ " from " ++ index)
      (setting.client.delete setting.world index docType id none
        (s.log (.deletionStarted index id)))
  with
  | (.error f, s) => (.nothing f, s)
  | (.ok a, s) =>
    if wasDeleted a then (⟨a.text ++ "\n", none⟩, s) else (.nothing (.notFound index id), s)

/-- Creates an index. -/
def runCreateIndex (setting : Setting) (index : String) (s : Session) : Printed × Session :=
  match
    inContext ("Failed to create index " ++ index)
      (setting.client.createIndex setting.world index (s.log (.creationStarted index)))
  with
  | (.error f, s) => (.nothing f, s)
  | (.ok a, s) => (⟨a.text ++ "\n", none⟩, s)

/-- Makes what was written to an index visible. -/
def runRefresh (setting : Setting) (index : String) (s : Session) : Printed × Session :=
  match
    inContext ("Failed to refresh " ++ index) (setting.client.refresh setting.world index s)
  with
  | (.error f, s) => (.nothing f, s)
  | (.ok _, s) => (⟨"Refreshed " ++ index ++ "\n", none⟩, s)

/-- The parameters of a search. -/
def searchParams (query : String) (size : Option Nat) (sort : Option String) : Url.Params :=
  Url.Params.ofList <|
    [("q", query)] ++ (match size with | some n => [("size", Text.ofNat n)] | none => []) ++
      (match sort with | some order => [("sort", order)] | none => [])

/-- What was found, as it is printed: all of the answer, or a document a line. -/
def rendered (a : SearchAnswer) : SearchFormat → String
  | .json => a.toJson.pretty ++ "\n"
  | .lines =>
    String.join (a.hits.hits.map fun hit => (SearchAnswer.documentOf hit).compact ++ "\n")

/-- Searches an index. -/
def runSearch (setting : Setting) (query index docType : String) (size : Option Nat)
    (sort : Option String) (format : SearchFormat) (s : Session) : Printed × Session :=
  match
    inContext ("Failed to search " ++ index)
      (setting.client.search setting.world index docType (some (searchParams query size sort))
        (s.log (.searchStarted index query)))
  with
  | (.error f, s) => (.nothing f, s)
  | (.ok a, s) => (⟨rendered a format, none⟩, s)

/-- Runs a command. `defaultIndex` is used where none is named. -/
def Command.run (command : Command) (setting : Setting) (defaultIndex : String) (files : Files)
    (stdin : Bytes) (s : Session) : Printed × Session :=
  match command with
  | .index input target docType idField thenRefresh =>
    runIndex setting files stdin input ⟨target.getD defaultIndex, docType, idField⟩ thenRefresh s
  | .delete id target docType => runDelete setting (target.getD defaultIndex) docType id s
  | .createIndex target => runCreateIndex setting (target.getD defaultIndex) s
  | .refresh target => runRefresh setting (target.getD defaultIndex) s
  | .search query target docType size sort format =>
    runSearch setting query (target.getD defaultIndex) docType size sort format s

end ClusterOutput.Cli
