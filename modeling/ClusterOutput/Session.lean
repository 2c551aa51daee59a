/-
A run of a client: the pool, whether the run was cancelled, and a journal of all
that was done and noted.

Everything that a client does is a function of the session before it and of the
world that its requests meet.
-/
import ClusterOutput.Http.Transport
import ClusterOutput.Observation.Event
import ClusterOutput.Observation.Sample

namespace ClusterOutput

/-- What is done to a pool on behalf of a request. -/
inductive PoolStep where
  | taken (c : Connection)
  | markedDead (c : Connection)
  | markedLive (c : Connection)
  deriving DecidableEq

/-- A request as it was handed to the transport for a connection, and what it came to. -/
structure Exchange where
  connection : Connection
  /-- The URL as it was composed for the connection. -/
  url : Url
  request : Http.Request
  reply : Http.Reply

/-- What was done and noted, in order. -/
structure Journal where
  /-- Requests handed to the transport. -/
  sent : List Exchange
  /-- Exchanges with hosts, redirects included. -/
  wire : List Http.Request
  steps : List PoolStep
  samples : List Sample
  events : List Event
  /-- How many errors were noted. -/
  errors : Nat
  /-- How many attempts came after a failed one. -/
  retries : Nat

def Journal.empty : Journal := ⟨[], [], [], [], [], 0, 0⟩

structure Session where
  pool : Pool
  isCancelled : Bool
  journal : Journal

/-- Moments at which a run may be cancelled from outside: after the n-th error was noted, and
before the pause that precedes the n-th retry. -/
inductive Moment where
  | error (n : Nat)
  | pause (n : Nat)
  deriving DecidableEq, Repr

/-- What the requests of a session meet. -/
structure World where
  network : Http.Network
  cancels : Moment → Bool

namespace Session

/-- The session in which nothing was done yet. -/
def start : Session := ⟨.empty, false, .empty⟩

/-- The session with an empty journal. -/
def turnPage (s : Session) : Session := { s with journal := .empty }

def log (s : Session) (e : Event) : Session :=
  { s with journal := { s.journal with events := s.journal.events ++ [e] } }

/-- Measurements, if they are taken. -/
def record (s : Session) (collector : Option Collector) (samples : List Sample) : Session :=
  { s with journal :=
      { s.journal with samples := s.journal.samples ++ Collector.keep collector samples } }

/-- The moment passes, and the run may be cancelled at it. -/
def pass (s : Session) (world : World) (m : Moment) : Session :=
  { s with isCancelled := s.isCancelled || world.cancels m }

def done (s : Session) (step : PoolStep) : Session :=
  { s with journal := { s.journal with steps := s.journal.steps ++ [step] } }

/-! ## The pool -/

/-- Replaces all connections. -/
def setConnections (s : Session) (urls : List String) (credentials : Option Credentials) :
    Session :=
  { s with pool := s.pool.setConnections urls credentials }.log
    (if urls.isEmpty then .poolEmpty else .poolConfigured urls.length credentials.isSome)

/-- The event of handing out a connection. -/
def choiceEvent : Pool.Choice → Event
  | .live _ slot => .liveSelected slot.connection.url
  | .oldestDead slot => .oldestDeadSelected slot.connection.url slot.health.failures

/-- Hands out the next connection. -/
def take? (s : Session) : Option (Connection × Session) :=
  s.pool.choice?.map fun c =>
    (c.slot.connection,
      ({ s with pool := s.pool.after c }.log (choiceEvent c)).done (.taken c.slot.connection))

/-- Records a failed attempt. -/
def markDead (s : Session) (collector : Option Collector) (c : Connection) : Session :=
  let marked := { s with pool := s.pool.markDead c }.done (.markedDead c)
  match s.pool.slot? c with
  | none => marked.log (.staleMarkDead c.url)
  | some slot =>
    match slot.health.status with
    | .live => (marked.log (.markedDead c.url)).record collector [.transition .dead]
    | .dead => marked.log (.stillDead c.url (slot.health.failed s.pool.clock).failures)

/-- Records an answered attempt. -/
def markLive (s : Session) (collector : Option Collector) (c : Connection) : Session :=
  let marked := { s with pool := s.pool.markLive c }.done (.markedLive c)
  match s.pool.slot? c with
  | none => marked.log (.staleMarkLive c.url)
  | some slot =>
    match slot.health.status with
    | .live => marked
    | .dead => (marked.log (.recovered c.url)).record collector [.transition .live]

end Session

end ClusterOutput
