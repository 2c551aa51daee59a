/-
The connections to the nodes of one cluster, and the state of their health.

Live connections are handed out in turns. Where none is live, the one is handed
out that has waited longest since it last failed, so that a node that is back
is found by the traffic itself.

A connection is known by its number, not by its URL: two of one URL are two,
and one of a replaced set is none of the present set.
-/
import ClusterOutput.Credentials
import ClusterOutput.Text.Blank
import ClusterOutput.Text.Quoted

namespace ClusterOutput

/-- A node as requests reach it. The URL has no slash at its end. -/
structure Connection where
  id : Nat
  url : String
  credentials : Option Credentials
  deriving DecidableEq

/-- What diagnostics show of a connection: that it has credentials, but not which. -/
def Connection.debugText (c : Connection) : String :=
  "Connection \x7b url: " ++ Text.quoted c.url ++ ", authenticated: " ++
    Text.ofBool c.credentials.isSome ++ " \x7d"

inductive HealthStatus where
  | live
  | dead
  deriving DecidableEq, Repr

def HealthStatus.label : HealthStatus → String
  | live => "live"
  | dead => "dead"

/-- The health of a connection: since when it is dead, and how often it failed since it was last
live. -/
structure Health where
  status : HealthStatus
  deadSince : Option Nat
  failures : Nat
  deriving DecidableEq, Repr

/-- The health of a connection that has not failed. -/
def Health.sound : Health := ⟨.live, none, 0⟩

/-- The most failures that are counted. -/
def failureLimit : Nat := 0xffffffff

/-- One more failure. The instant counts only if the connection was live. -/
def Health.failed (h : Health) (now : Nat) : Health where
  status := .dead
  deadSince := match h.status with | .live => some now | .dead => h.deadSince
  failures := min (h.failures + 1) failureLimit

/-- A connection in a pool. Of dead ones, that with the lowest `deadOrder` is tried next. -/
structure Slot where
  connection : Connection
  health : Health
  deadOrder : UInt64
  deriving DecidableEq

def Slot.isLive (s : Slot) : Bool := s.health.status == .live

/-- The connections of a cluster. The search for a live one starts at `cursor`. -/
structure Pool where
  slots : List Slot
  cursor : Nat
  nextDeadOrder : UInt64
  /-- The number of the next connection. -/
  nextId : Nat
  /-- The instant at which a connection next turns dead. -/
  clock : Nat
  deriving DecidableEq

namespace Pool

/-- A pool without connections. -/
def empty : Pool := ⟨[], 0, 0, 0, 0⟩

def size (p : Pool) : Nat := p.slots.length

def urls (p : Pool) : List String := p.slots.map (·.connection.url)

/-- How many connections are live. -/
def liveCount (p : Pool) : Nat := p.slots.countP (·.isLive)

/-- The slot of a connection, if it is of the present set. -/
def slot? (p : Pool) (c : Connection) : Option Slot :=
  p.slots.find? (·.connection.id == c.id)

/-- The health of a connection, if it is of the present set. -/
def health? (p : Pool) (c : Connection) : Option Health := (p.slot? c).map (·.health)

/-! ## Replacing the connections -/

/-- Slots for URLs, numbered on from `id`. -/
def freshSlots (credentials : Option Credentials) : Nat → List String → List Slot
  | _, [] => []
  | id, url :: urls =>
    ⟨⟨id, Text.trimSlashes url, credentials⟩, .sound, 0⟩ :: freshSlots credentials (id + 1) urls

/-- Replaces all connections. The new ones are live. -/
def setConnections (p : Pool) (urls : List String) (credentials : Option Credentials) : Pool where
  slots := freshSlots credentials p.nextId urls
  cursor := 0
  nextDeadOrder := 0
  nextId := p.nextId + urls.length
  clock := p.clock

/-! ## Handing out a connection -/

/-- The places in the order of a turn: from the cursor on, and around. -/
def turn (p : Pool) : List Nat :=
  (List.range p.slots.length).map fun offset => (p.cursor + offset) % p.slots.length

/-- The place of the next live connection. -/
def nextLive? (p : Pool) : Option Nat :=
  p.turn.find? fun i => p.slots[i]?.any (·.isLive)

/-- The first of the slots that precede all others in the queue of the dead. -/
def oldest? : List Slot → Option Slot
  | [] => none
  | s :: slots =>
    match oldest? slots with
    | none => some s
    | some t => if t.deadOrder < s.deadOrder then some t else some s

/-- Which connection is handed out, and why. -/
inductive Choice where
  | live (place : Nat) (slot : Slot)
  | oldestDead (slot : Slot)

/-- The slot of what is handed out. -/
def Choice.slot : Choice → Slot
  | live _ slot | oldestDead slot => slot

/-- The next connection: a live one if there is any, else the oldest of the dead. -/
def choice? (p : Pool) : Option Choice :=
  match p.nextLive? with
  | some i => p.slots[i]?.map (.live i)
  | none => (oldest? p.slots).map .oldestDead

/-- The pool after a connection was handed out: a live one ends its turn. -/
def after (p : Pool) : Choice → Pool
  | .live place _ => { p with cursor := (place + 1) % p.slots.length }
  | .oldestDead _ => p

/-- Hands out the next connection; fails only where there is none. -/
def take? (p : Pool) : Option (Connection × Pool) :=
  p.choice?.map fun c => (c.slot.connection, p.after c)

/-! ## Recording what became of an attempt -/

/-- Changes the slot of a connection. -/
def change (p : Pool) (c : Connection) (f : Slot → Slot) : List Slot :=
  p.slots.map fun s => if s.connection.id = c.id then f s else s

/-- Records that an attempt failed. A connection that is dead already goes to the end of the
queue. Connections of another set are ignored. -/
def markDead (p : Pool) (c : Connection) : Pool :=
  match p.slot? c with
  | none => p
  | some s =>
    { p with
      slots := p.change c fun s => ⟨s.connection, s.health.failed p.clock, p.nextDeadOrder⟩
      nextDeadOrder := p.nextDeadOrder + 1
      clock := if s.isLive then p.clock + 1 else p.clock }

/-- Records that an attempt was answered: earlier failures are forgotten. Connections of another
set are ignored. -/
def markLive (p : Pool) (c : Connection) : Pool :=
  match p.slot? c with
  | none => p
  | some _ => { p with slots := p.change c fun s => ⟨s.connection, .sound, 0⟩ }

end Pool

end ClusterOutput
