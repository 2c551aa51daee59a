/-
Which connections turn live or dead along the steps of a pool, in order
(`Pool.transitions`). One step turns one connection at most, and only into what it
was not before (`Turns`). So the transitions of one connection alternate, and
those to dead exceed those to live by as many as are dead more than before
(`replay_transitions`).
-/
import ClusterOutput.Proofs.Pool.RoundRobin

namespace ClusterOutput

/-- A connection, by its number, and what it turns into. -/
abbrev Transition := Nat × HealthStatus

/-- What a connection turns into, one after another. -/
def turnsOf (id : Nat) (turns : List Transition) : List HealthStatus :=
  turns.filterMap fun turn => if turn.1 = id then some turn.2 else none

namespace Pool

/-- The transition that a step means: a failure of a live connection, or an answer of a dead
one. -/
def transition? (p : Pool) : PoolStep → Option Transition
  | .taken _ => none
  | .markedDead c => if p.status? c = some .live then some (c.id, .dead) else none
  | .markedLive c => if p.status? c = some .dead then some (c.id, .live) else none

/-- The transitions of steps, as long as the pool allows them. -/
def transitions (p : Pool) : List PoolStep → List Transition
  | [] => []
  | step :: steps => (p.transition? step).toList ++ (p.follow step).elim [] (·.transitions steps)

/-- The connections, by their numbers, and which of them are live. -/
def standing (p : Pool) : List Transition :=
  p.slots.map fun s => (s.connection.id, s.health.status)

variable {p q r : Pool} {c : Connection} {step : PoolStep} {steps later : List PoolStep}

theorem transitions_cons (hf : p.follow step = some q) :
    p.transitions (step :: steps) = (p.transition? step).toList ++ q.transitions steps := by
  rw [transitions, hf, Option.elim_some]

theorem transitions_singleton (hf : p.follow step = some q) :
    p.transitions [step] = (p.transition? step).toList := by
  rw [transitions_cons hf]
  exact List.append_nil _

theorem transitions_append (hr : p.replay steps = some q) :
    p.transitions (steps ++ later) = p.transitions steps ++ q.transitions later := by
  induction steps generalizing p with
  | nil => cases hr; rfl
  | cons step steps ih =>
    obtain ⟨p', hf, hr'⟩ := replay_cons.mp hr
    rw [List.cons_append, transitions_cons hf, transitions_cons hf, ih hr', List.append_assoc]

/-! ## One step -/

/-- What a step means for who is live: nothing, or that one connection turns into what it was not
before. -/
inductive Turns (before after : List Transition) : Option Transition → Prop
  | still (hsame : after = before) : Turns before after none
  | turned {l m : List Transition} {id : Nat} {old new : HealthStatus}
    (hbefore : before = l ++ (id, old) :: m) (hafter : after = l ++ (id, new) :: m)
    (hne : old ≠ new) : Turns before after (some (id, new))

theorem standing_ids (p : Pool) : p.standing.map (·.1) = p.connections.map (·.id) := by
  simp only [standing, connections, List.map_map]
  rfl

theorem Numbered.standing_nodup (h : p.Numbered) : (p.standing.map (·.1)).Nodup := by
  rw [standing, List.map_map]
  exact h.ids

theorem liveCount_eq (p : Pool) : p.liveCount = p.standing.countP (·.2 == .live) := by
  rw [liveCount, standing, List.countP_map]
  rfl

theorem length_connections (p : Pool) : p.connections.length = p.size := List.length_map _

theorem status?_none (h : p.slot? c = none) : p.status? c = none := by
  rw [status?, health?, h, Option.map_none, Option.map_none]

theorem status?_some {s : Slot} (h : p.slot? c = some s) : p.status? c = some s.health.status := by
  rw [status?, health?, h, Option.map_some, Option.map_some]

/-- A change of one slot, as far as it is seen by who is live. -/
theorem Numbered.standing_change (h : p.Numbered) {s : Slot} (hs : p.slot? c = some s)
    (f : Slot → Slot) (hf : (f s).connection = s.connection) :
    ∃ l m, p.standing = l ++ (c.id, s.health.status) :: m ∧
      (p.change c f).map (fun s => (s.connection.id, s.health.status)) =
        l ++ (c.id, (f s).health.status) :: m := by
  obtain ⟨l, m, hlm⟩ := List.append_of_mem (slot?_mem hs)
  have hids := h.ids
  have hid : c.id = s.connection.id := (slot?_id hs).symm
  rw [standing, change, hid, hlm]
  rw [hlm] at hids
  refine ⟨_, _, List.map_append, ?_⟩
  rw [map_change_middle f hids, List.map_append, List.map_cons, hf]

/-- A mark turns its connection, or none. -/
theorem Numbered.turns (h : p.Numbered) (hf : p.follow step = some q) :
    Turns p.standing q.standing (p.transition? step) := by
  cases step with
  | taken c =>
    exact .still (by rw [standing, (takes_slots (takes_of_take? (follow_taken.mp hf))).1, standing])
  | markedDead c =>
    cases hf
    rw [transition?]
    cases hs : p.slot? c with
    | none =>
      rw [status?_none hs, markDead_none hs]
      exact .still rfl
    | some s =>
      obtain ⟨l, m, hbefore, hafter⟩ :=
        h.standing_change hs (·.failed p.clock p.nextDeadOrder) rfl
      rw [← slots_markDead_eq, ← standing] at hafter
      rw [status?_some hs]
      cases hstatus : s.health.status with
      | live =>
        rw [hstatus] at hbefore
        exact .turned hbefore hafter (by decide)
      | dead =>
        rw [hstatus] at hbefore
        exact .still (hafter.trans hbefore.symm)
  | markedLive c =>
    cases hf
    rw [transition?]
    cases hs : p.slot? c with
    | none =>
      rw [status?_none hs, markLive_none hs]
      exact .still rfl
    | some s =>
      obtain ⟨l, m, hbefore, hafter⟩ := h.standing_change hs (·.recovered) rfl
      rw [← slots_markLive_eq, ← standing] at hafter
      rw [status?_some hs]
      cases hstatus : s.health.status with
      | live =>
        rw [hstatus] at hbefore
        exact .still (hafter.trans hbefore.symm)
      | dead =>
        rw [hstatus] at hbefore
        exact .turned hbefore hafter (by decide)

section

variable {before after : List Transition} {turn : Option Transition} {id : Nat}
  {status : HealthStatus}

/-- Of one more that is live, one less is dead. -/
theorem Turns.liveCount (h : Turns before after turn) :
    after.countP (·.2 == .live) + turn.toList.countP (·.2 == .dead) =
      before.countP (·.2 == .live) + turn.toList.countP (·.2 == .live) := by
  cases h with
  | still hsame =>
    rw [hsame]
    rfl
  | @turned l m id old new hbefore hafter hne =>
    subst hbefore hafter
    cases old <;> cases new <;> simp at hne ⊢ <;> omega

theorem Turns.ids (h : Turns before after turn) : after.map (·.1) = before.map (·.1) := by
  cases h with
  | still hsame => rw [hsame]
  | turned hbefore hafter => simp [hbefore, hafter]

theorem Turns.mem_ids (h : Turns before after turn) {t : Transition} (ht : t ∈ turn.toList) :
    t.1 ∈ before.map (·.1) := by
  cases h with
  | still => cases ht
  | turned hbefore =>
    obtain rfl := List.mem_singleton.mp ht
    simp [hbefore]

/-- A connection stays what it is, unless it is its turn. -/
theorem Turns.of_mem (h : Turns before after turn) (hnd : (before.map (·.1)).Nodup)
    (hmem : (id, status) ∈ before) :
    turnsOf id turn.toList = [] ∧ (id, status) ∈ after ∨
      ∃ new, turnsOf id turn.toList = [new] ∧ status ≠ new ∧ (id, new) ∈ after := by
  cases h with
  | still hsame => exact .inl ⟨rfl, hsame ▸ hmem⟩
  | @turned l m id' old new hbefore hafter hne =>
    by_cases hid : id' = id
    · subst hid
      have hold : (id', old) ∈ before := hbefore ▸ List.mem_append_cons_self
      obtain rfl : status = old := congrArg Prod.snd (List.inj_on_of_nodup_map hnd hmem hold rfl)
      exact .inr ⟨new, by simp [turnsOf], hne, hafter ▸ List.mem_append_cons_self⟩
    · refine .inl ⟨by simp [turnsOf, hid], ?_⟩
      have hother : (id, status) ≠ (id', old) := fun he => hid (congrArg Prod.fst he).symm
      rw [hbefore, List.mem_append, List.mem_cons] at hmem
      rw [hafter, List.mem_append, List.mem_cons]
      exact hmem.imp_right fun h => .inr (h.resolve_left hother)

end

/-! ## All steps -/

theorem turnsOf_append (id : Nat) (l m : List Transition) :
    turnsOf id (l ++ m) = turnsOf id l ++ turnsOf id m := List.filterMap_append

/-- As many are dead more than before as the transitions to dead exceed those to live. -/
theorem Numbered.liveCount_replay (h : p.Numbered) (hr : p.replay steps = some q) :
    q.liveCount + (p.transitions steps).countP (·.2 == .dead) =
      p.liveCount + (p.transitions steps).countP (·.2 == .live) := by
  induction steps generalizing p with
  | nil => cases hr; rfl
  | cons step steps ih =>
    obtain ⟨p', hf, hr'⟩ := replay_cons.mp hr
    have hstep := (h.turns hf).liveCount
    have hrest := ih (h.follow hf) hr'
    rw [← liveCount_eq, ← liveCount_eq] at hstep
    rw [transitions_cons hf, List.countP_append, List.countP_append]
    omega

/-- Only connections of the pool turn. -/
theorem Numbered.transitions_ids (h : p.Numbered) (hr : p.replay steps = some q) {t : Transition}
    (ht : t ∈ p.transitions steps) : t.1 ∈ p.standing.map (·.1) := by
  induction steps generalizing p with
  | nil => cases ht
  | cons step steps ih =>
    obtain ⟨p', hf, hr'⟩ := replay_cons.mp hr
    rw [transitions_cons hf] at ht
    have hturn := h.turns hf
    rcases List.mem_append.mp ht with ht | ht
    · exact hturn.mem_ids ht
    · exact hturn.ids ▸ ih (h.follow hf) hr' ht

/-- No connection turns into what it is. -/
theorem Numbered.transitions_alternate (h : p.Numbered) (hr : p.replay steps = some q) {id : Nat}
    {status : HealthStatus} (hmem : (id, status) ∈ p.standing) :
    (status :: turnsOf id (p.transitions steps)).IsChain (· ≠ ·) := by
  induction steps generalizing p status with
  | nil => exact .singleton status
  | cons step steps ih =>
    obtain ⟨p', hf, hr'⟩ := replay_cons.mp hr
    rw [transitions_cons hf, turnsOf_append]
    rcases (h.turns hf).of_mem h.standing_nodup hmem with ⟨hnone, hkept⟩ | ⟨new, hone, hne, hnew⟩
    · rw [hnone]
      exact ih (h.follow hf) hr' hkept
    · rw [hone]
      exact .cons_cons hne (ih (h.follow hf) hr' hnew)

/-! ## From a new set on -/

/-- All connections are live, and have different numbers. -/
structure Fresh (p : Pool) : Prop where
  numbered : p.Numbered
  live : ∀ s ∈ p.slots, s.isLive = true

theorem fresh_setConnections (p : Pool) (urls : List String)
    (credentials : Option Credentials) : (p.setConnections urls credentials).Fresh where
  numbered := ⟨freshSlots_ids, fun s hs => (mem_freshSlots hs).2.1⟩
  live s hs := by
    rw [Slot.isLive, (mem_freshSlots hs).2.2.1]
    rfl

/-- In a new set connections turn dead first, and as many are dead as turned so and not back. -/
theorem Fresh.transitions (h : p.Fresh) (hr : p.replay steps = some q) :
    q.liveCount + (p.transitions steps).countP (·.2 == .dead) =
      q.size + (p.transitions steps).countP (·.2 == .live) ∧
    (∀ turn ∈ p.transitions steps, ∃ c ∈ q.connections, c.id = turn.1) ∧
    ∀ c ∈ q.connections,
      (HealthStatus.live :: turnsOf c.id (p.transitions steps)).IsChain (· ≠ ·) := by
  have hconn := replay_connections hr
  refine ⟨?_, ?_, ?_⟩
  · have hall : p.liveCount = q.size := by
      rw [← length_connections, hconn, length_connections]
      exact List.countP_eq_length.mpr h.live
    rw [← hall]
    exact h.numbered.liveCount_replay hr
  · intro turn hturn
    have hid := h.numbered.transitions_ids hr hturn
    rw [standing_ids, ← hconn] at hid
    exact List.mem_map.mp hid
  · intro c hc
    obtain ⟨s, hs, rfl⟩ := mem_connections.mp (hconn ▸ hc)
    have hlive : s.health.status = .live := by simpa [Slot.isLive] using h.live s hs
    refine h.numbered.transitions_alternate hr ?_
    exact List.mem_map.mpr ⟨s, hs, by rw [hlive]⟩

end Pool

end ClusterOutput
