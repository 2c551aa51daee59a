/-
The program on its own: what surrounds it is read, its requests go out over
TCP, and its report is printed.

What a part of a run comes to is a function of the outcomes of its exchanges.
So it is computed from the outcomes so far, and where it asks for one exchange
more, that one is made and the part computed again. Hosts are met over plain
connections only.
-/
import ClusterOutput.Cli.Program
import ClusterOutput.Http.Message
import ClusterOutput.Observation.Log
import Std.Async.DNS
import Std.Async.Signal
import Std.Async.TCP
import Std.Async.Timer

open ClusterOutput Std.Async

namespace ClusterOutput.Execution

/-! ## Surroundings -/

/-- The environment as the system shows it: names and values with equals signs between them, each
pair with a zero behind it. -/
def environmentOf (content : Bytes) : Environment :=
  (Text.pieces 0 content).filterMap fun pair =>
    let name := pair.takeWhile (· != 0x3d)
    match pair.drop name.length with
    | [] => none
    | _ :: value => (Utf8.decode? name).map (·, value)

/-- What a path leads to. -/
def stateOf (path : Path) : IO FileState :=
  match Utf8.decode? path with
  | none => return .missing
  | some name => do
    try return .file (← IO.FS.readBinFile name).toList
    catch
      | .inappropriateType none .. => return .directory
      | .inappropriateType (some _) .. => return .belowFile
      | _ => return .missing

/-- What some paths lead to. -/
def look (paths : List Path) : IO (List (Path × FileState)) :=
  paths.mapM fun path => return (path, ← stateOf path)

/-- What was seen of files. -/
def seen (states : List (Path × FileState)) : Files := fun path =>
  ((states.find? (·.1 == path)).map (·.2)).getD .missing

/-- What surrounds a run with these words. -/
def surroundings (words : List String) : IO Surroundings := do
  let environment ←
    match ← stateOf (Path.ofString "/proc/self/environ") with
    | .file content => pure (environmentOf content)
    | _ => pure []
  let here : Surroundings :=
    { environment := environment
      files := seen []
      workingDirectory := Path.ofString (← IO.currentDir).toString
      accountHome := Path.ofString "/" }
  let near ← look (Dotenv.places here)
  let here := { here with files := seen near }
  let more ← look (Cli.filesRead here words)
  return { here with files := seen (near ++ more) }

/-- The rest of an input. -/
partial def readAll (input : IO.FS.Stream) (acc : ByteArray) : IO ByteArray := do
  let part ← input.read 65536
  if part.isEmpty then return acc else readAll input (acc ++ part)

/-! ## Exchanges -/

instance : Inhabited Http.Outcome := ⟨.drop⟩

/-- The name of a host, as it is looked up. -/
def hostName : Url.Host → String
  | .ipv6 groups => String.ofList (((Url.Host.ipv6 groups).chars.drop 1).dropLast)
  | host => String.ofList host.chars

def addressOf (port : UInt16) : Std.Net.IPAddr → Std.Net.SocketAddress
  | .v4 a => .v4 ⟨a, port⟩
  | .v6 a => .v6 ⟨a, port⟩

/-- An answer within a time, or what stands for one that came too late. -/
def within {α : Type} [Inhabited α] (limit : Duration) (late : Async α) (act : Async α) : Async α :=
  Async.race act do
    sleep (.ofNat limit.millis)
    late

/-- Connects to the first address that takes the connection. -/
def connect (limit : Duration) : List Std.Net.SocketAddress → Async (Option TCP.Socket.Client)
  | [] => return none
  | address :: addresses => do
    let socket ← TCP.Socket.Client.mk
    let isOpen ←
      try within limit (return false) (do socket.connect address; return true)
      catch _ => pure false
    if isOpen then return some socket else connect limit addresses

/-- Receives until the exchange has come to something. -/
partial def receive (method : String) (socket : TCP.Socket.Client) (acc : ByteArray) :
    Async Http.Outcome := do
  let part ← try socket.recv? 65536 catch _ => pure none
  let received := acc ++ part.getD .empty
  match Http.outcome? method received.toList part.isNone with
  | some outcome => return outcome
  | none => if part.isNone then return .drop else receive method socket received

/-- One exchange with a host. -/
def exchange (settings : ConnectionSettings) (r : Http.Request) : Async Http.Outcome := do
  try
    match r.url.host?, r.url.effectivePort with
    | some host, some port =>
      let found ← DNS.getAddrInfo (hostName host) (Text.ofNat port)
      match ← connect settings.connectTimeout (found.toList.map (addressOf port.toUInt16)) with
      | none => return .drop
      | some socket =>
        socket.send (ByteArray.mk r.bytes.toArray)
        receive r.method socket .empty
    | _, _ => return .drop
  catch _ => return .drop

/-- One exchange, which takes no longer than allowed and ends when the run is interrupted. -/
def boundedExchange (settings : ConnectionSettings) (interrupt : Signal.Waiter)
    (r : Http.Request) : IO Http.Outcome :=
  Async.block <|
    Async.race (within settings.timeout (return .drop) (exchange settings r)) do
      discard <| await (← interrupt.wait)
      return .interrupted

/-! ## Runs -/

/-- The network as far as it is known. An exchange of which nothing is known yet interrupts the
run. -/
def known (outcomes : List Http.Outcome) : Http.Network where
  reaches url := url.scheme == Url.httpScheme
  reply n _ := outcomes.getD n .interrupted

/-- Writes the log of a session. -/
def writeLog (p : Cli.Prepared) (s : Session) : IO Unit :=
  IO.eprint (Event.log p.logsAsJson s.journal.events)

/-- Computes a part of a run with a journal of its own, making the exchanges that it asks for, and
pausing before attempts that follow a failed one. -/
partial def complete {α : Type} (p : Cli.Prepared) (interrupt : Signal.Waiter)
    (part : World → Session → α × Session) (s : Session) (outcomes : List Http.Outcome)
    (pauses : Nat) : IO (α × Session) := do
  let connection := p.settings.connection
  let (a, after) := part ⟨known outcomes, fun _ => false⟩ s.turnPage
  for _ in [pauses:after.journal.retries] do
    IO.sleep connection.retryBackoff.millis.toUInt32
  match after.journal.wire.drop outcomes.length with
  | [] =>
    writeLog p after
    return (a, after)
  | r :: _ =>
    let outcome ← boundedExchange connection interrupt r
    complete p interrupt part s (outcomes ++ [outcome]) after.journal.retries

/-- A part of a run, given the client that makes its requests. -/
abbrev Part (α : Type) := Cli.Setting → Session → α × Session

/-- Runs a part. -/
abbrev Runner := {α : Type} → Part α → Session → IO (α × Session)

/-- Stores the documents of lines, one line after another, as `Cli.ship` does. -/
def ship (runner : Runner) (shipment : Cli.Shipment) :
    (number : Nat) → Cli.Summary → List Bytes → Session →
      IO (Except Cli.Failure Cli.Summary × Session)
  | _, summary, [], s => return (.ok summary, s)
  | number, summary, line :: lines, s => do
    match ← runner (fun setting => Cli.shipLine setting shipment number summary line) s with
    | (.error f, s) => return (.error f, s)
    | (.ok summary, s) => ship runner shipment (number + 1) summary lines s

/-- Runs a command. Documents are stored line by line, so that only the exchanges of one line are
ever computed again. -/
def execute (runner : Runner) (p : Cli.Prepared) (stdin : Bytes) (s : Session) :
    IO (Cli.Printed × Session) := do
  match p.command with
  | .index input target docType idField refresh =>
    match Cli.inputOf p.files stdin input with
    | .error f => return (.nothing f, s)
    | .ok content =>
      let index := target.getD p.settings.index
      match ← ship runner ⟨index, docType, idField⟩ 1 .zero (Text.rawLines content) s with
      | (.error f, s) => return (.nothing f, s)
      | (.ok summary, s) =>
        runner (fun setting => Cli.afterLines setting index refresh summary) s
  | command =>
    runner (fun setting => command.run setting p.settings.index p.files stdin) s

/-- Runs the program. -/
def run (words : List String) : IO Cli.Report := do
  match Cli.prepare (← surroundings words) words with
  | .error report => return report
  | .ok p =>
    match p.client with
    | .error report =>
      writeLog p report.session
      return report
    | .ok (client, s) =>
      let stdin ←
        if p.command.readsInput then
          pure (← readAll (← IO.getStdin) .empty).toList
        else pure []
      let interrupt ← Signal.Waiter.mk .sigint false
      writeLog p s
      let runner : Runner := fun part s =>
        complete p interrupt (fun world => part ⟨client, world⟩) s [] 0
      let (printed, s) ← execute runner p stdin s
      return printed.report s

end ClusterOutput.Execution

/-- Prints what a run comes to, and ends with its exit code. -/
def main (words : List String) : IO UInt32 := do
  let report ← ClusterOutput.Execution.run words
  IO.print report.stdout
  IO.eprint report.stderr
  return report.code.number.toUInt32
