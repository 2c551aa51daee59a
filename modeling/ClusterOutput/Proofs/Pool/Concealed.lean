/-
Pools whose passwords are concealed. No operation on a pool looks at a password:
what it makes of a pool that is concealed is what it makes of the pool, concealed.
-/
import ClusterOutput.Proofs.Pool.Replacement

namespace ClusterOutput

/-- The credentials with any password, always the same. -/
def Credentials.concealed (c : Credentials) : Credentials := { c with password := ⟨""⟩ }

def Connection.concealed (c : Connection) : Connection :=
  { c with credentials := c.credentials.map (·.concealed) }

def Slot.concealed (s : Slot) : Slot := { s with connection := s.connection.concealed }

def Pool.concealed (p : Pool) : Pool := { p with slots := p.slots.map (·.concealed) }

def Pool.Choice.concealed : Pool.Choice → Pool.Choice
  | live place slot => .live place slot.concealed
  | oldestDead slot => .oldestDead slot.concealed

namespace Pool

variable {p q : Pool} {c c' : Connection}

theorem slot?_concealed (p : Pool) (c : Connection) :
    p.concealed.slot? c.concealed = (p.slot? c).map (·.concealed) := by
  rw [slot?, concealed, List.find?_map, slot?]
  rfl

theorem change_concealed (p : Pool) (c : Connection) {f : Slot → Slot}
    (h : ∀ s : Slot, f s.concealed = (f s).concealed) :
    p.concealed.change c.concealed f = (p.change c f).map (·.concealed) := by
  simp only [change, concealed, List.map_map]
  refine List.map_congr_left fun s _ => ?_
  show (if s.connection.id = c.id then f s.concealed else s.concealed) =
    Slot.concealed (if s.connection.id = c.id then f s else s)
  split
  · exact h s
  · rfl

theorem markDead_concealed (p : Pool) (c : Connection) :
    p.concealed.markDead c.concealed = (p.markDead c).concealed := by
  cases h : p.slot? c with
  | none => rw [markDead_none h, markDead_none (by rw [slot?_concealed, h, Option.map_none])]
  | some s =>
    have hs : p.concealed.slot? c.concealed = some s.concealed := by
      rw [slot?_concealed, h, Option.map_some]
    rw [markDead_some h, markDead_some hs]
    simp only [concealed, Pool.mk.injEq, true_and]
    exact ⟨change_concealed p c fun _ => rfl, rfl⟩

theorem markLive_concealed (p : Pool) (c : Connection) :
    p.concealed.markLive c.concealed = (p.markLive c).concealed := by
  cases h : p.slot? c with
  | none => rw [markLive_none h, markLive_none (by rw [slot?_concealed, h, Option.map_none])]
  | some s =>
    have hs : p.concealed.slot? c.concealed = some s.concealed := by
      rw [slot?_concealed, h, Option.map_some]
    rw [markLive_some h, markLive_some hs]
    simp only [concealed, Pool.mk.injEq, and_true]
    exact change_concealed p c fun _ => rfl

theorem nextLive?_concealed (p : Pool) : p.concealed.nextLive? = p.nextLive? := by
  simp only [nextLive?, turn, concealed, List.length_map]
  refine List.find?_congr fun i _ => ?_
  rw [List.getElem?_map]
  cases p.slots[i]? <;> rfl

theorem choice?_concealed (p : Pool) : p.concealed.choice? = p.choice?.map (·.concealed) := by
  simp only [choice?, nextLive?_concealed]
  cases p.nextLive? with
  | some i =>
    simp only [concealed, List.getElem?_map, Option.map_map]
    rfl
  | none =>
    simp only [concealed, oldest?_map (f := (·.concealed)) fun _ => rfl, Option.map_map]
    rfl

theorem after_concealed (p : Pool) (choice : Choice) :
    p.concealed.after choice.concealed = (p.after choice).concealed := by
  cases choice <;> simp [after, concealed, Choice.concealed]

theorem freshSlots_concealed (credentials : Option Credentials) (id : Nat) (urls : List String) :
    freshSlots (credentials.map (·.concealed)) id urls =
      (freshSlots credentials id urls).map (·.concealed) := by
  induction urls generalizing id with
  | nil => rfl
  | cons url urls ih =>
    rw [freshSlots, freshSlots, List.map_cons, ih]
    rfl

theorem setConnections_concealed (p : Pool) (urls : List String)
    (credentials : Option Credentials) :
    p.concealed.setConnections urls (credentials.map (·.concealed)) =
      (p.setConnections urls credentials).concealed := by
  simp only [setConnections, concealed, freshSlots_concealed]

end Pool

end ClusterOutput
