/-
What holds of every pool that its operations lead to: no two connections share
a number, live slots carry no trace of earlier failures, and the dead ones
stand in one queue, no two of them at one place.

The places of the queue are counted in 64 bits. A history in which that count
would run over is no history of a pool here.
-/
import ClusterOutput.Proofs.Pool.Selection
import Mathlib.Data.List.Nodup
import Mathlib.Data.List.Pairwise

namespace ClusterOutput

/-- The health of a slot and its place in the queue agree; `next` is the next place. -/
def Slot.InOrder (next : UInt64) (s : Slot) : Prop :=
  match s.health.status with
  | .live => s.health = .sound ∧ s.deadOrder = 0
  | .dead => s.health.deadSince.isSome = true ∧ 0 < s.health.failures ∧ s.deadOrder < next

namespace Pool

/-- The connections, in the order in which they were configured. -/
def connections (p : Pool) : List Connection := p.slots.map (·.connection)

/-- The pools that some history of operations leads to, on any connections, of the present set or
not. Fewer than 2^64 failures are recorded between two replacements of the connections. -/
inductive Reachable : Pool → Prop
  | empty : Reachable .empty
  | setConnections {p : Pool} (urls : List String) (credentials : Option Credentials) :
    Reachable p → Reachable (p.setConnections urls credentials)
  | take {p q : Pool} {c : Connection} : Reachable p → p.take? = some (c, q) → Reachable q
  | markDead {p : Pool} {c : Connection} :
    Reachable p → p.nextDeadOrder ≤ (p.markDead c).nextDeadOrder → Reachable (p.markDead c)
  | markLive {p : Pool} (c : Connection) : Reachable p → Reachable (p.markLive c)

/-- The connections have different numbers, all of them below the next one. -/
structure Numbered (p : Pool) : Prop where
  ids : (p.slots.map (·.connection.id)).Nodup
  below : ∀ s ∈ p.slots, s.connection.id < p.nextId

/-- What every reachable pool satisfies. -/
structure WellFormed (p : Pool) : Prop where
  ids : (p.slots.map (·.connection.id)).Nodup
  numbered : ∀ s ∈ p.slots, s.connection.id < p.nextId
  cursor : p.cursor < p.slots.length ∨ p.slots = [] ∧ p.cursor = 0
  standing : ∀ s ∈ p.slots, s.InOrder p.nextDeadOrder
  places : p.slots.Pairwise fun s t =>
    s.isLive = false → t.isLive = false → s.deadOrder ≠ t.deadOrder

theorem mem_connections {p : Pool} {c : Connection} :
    c ∈ p.connections ↔ ∃ s ∈ p.slots, s.connection = c := by
  simp [connections]

end Pool

theorem Slot.isLive_eq_false {s : Slot} : s.isLive = false ↔ s.health.status = .dead := by
  unfold Slot.isLive
  cases s.health.status <;> decide

theorem Slot.InOrder.place {next : UInt64} {s : Slot} (h : s.InOrder next) (hd : s.isLive = false) :
    s.deadOrder < next := by
  simp only [Slot.InOrder, Slot.isLive_eq_false.mp hd] at h
  exact h.2.2

/-- A place that lies ahead of the next one still does when more places are given out. -/
theorem Slot.InOrder.mono {next next' : UInt64} {s : Slot} (h : s.InOrder next)
    (hle : next ≤ next') : s.InOrder next' := by
  unfold Slot.InOrder at h ⊢
  cases hs : s.health.status with
  | live => rw [hs] at h; exact h
  | dead =>
    rw [hs] at h
    exact ⟨h.1, h.2.1, UInt64.lt_of_lt_of_le h.2.2 hle⟩

/-- A slot after one more failure, at the next place of the queue. -/
def Slot.failed (s : Slot) (now : Nat) (place : UInt64) : Slot :=
  ⟨s.connection, s.health.failed now, place⟩

/-- A slot after an answer. -/
def Slot.recovered (s : Slot) : Slot := ⟨s.connection, .sound, 0⟩

@[simp] theorem Slot.failed_connection (s : Slot) (now : Nat) (place : UInt64) :
    (s.failed now place).connection = s.connection := rfl
@[simp] theorem Slot.failed_isLive (s : Slot) (now : Nat) (place : UInt64) :
    (s.failed now place).isLive = false := rfl
@[simp] theorem Slot.recovered_isLive (s : Slot) : s.recovered.isLive = true := rfl

theorem Slot.recovered_inOrder (s : Slot) (next : UInt64) : s.recovered.InOrder next := ⟨rfl, rfl⟩

theorem Slot.failed_inOrder {s : Slot} {now : Nat} {place next : UInt64} (h : s.InOrder place)
    (hlt : place < next) : (s.failed now place).InOrder next := by
  refine ⟨?_, ?_, hlt⟩
  · unfold Slot.InOrder at h
    show (s.health.failed now).deadSince.isSome = true
    unfold Health.failed
    cases hs : s.health.status with
    | live => rfl
    | dead => rw [hs] at h; exact h.1
  · show 0 < min (s.health.failures + 1) failureLimit
    simp only [failureLimit]
    omega

namespace Pool

/-! ## The slot of a connection -/

theorem slot?_mem {p : Pool} {c : Connection} {s : Slot} (h : p.slot? c = some s) : s ∈ p.slots :=
  List.mem_of_find?_eq_some h

theorem slot?_id {p : Pool} {c : Connection} {s : Slot} (h : p.slot? c = some s) :
    s.connection.id = c.id := by
  simpa using List.find?_some h

/-- Slots of one number are one slot. -/
theorem Numbered.slot_eq {p : Pool} (h : p.Numbered) {s t : Slot} (hs : s ∈ p.slots)
    (ht : t ∈ p.slots) (he : s.connection.id = t.connection.id) : s = t :=
  List.inj_on_of_nodup_map h.ids hs ht he

theorem Numbered.slot?_eq {p : Pool} (h : p.Numbered) {s : Slot} (hs : s ∈ p.slots) :
    p.slot? s.connection = some s := by
  cases hf : p.slot? s.connection with
  | none =>
    have := List.find?_eq_none.mp hf s hs
    simp at this
  | some t => rw [h.slot_eq hs (slot?_mem hf) (slot?_id hf).symm]

theorem Numbered.connections_nodup {p : Pool} (h : p.Numbered) : p.connections.Nodup := by
  refine List.Nodup.of_map Connection.id ?_
  rw [connections, List.map_map]
  exact h.ids

theorem WellFormed.toNumbered {p : Pool} (h : p.WellFormed) : p.Numbered := ⟨h.ids, h.numbered⟩

theorem WellFormed.slot_eq {p : Pool} (h : p.WellFormed) {s t : Slot} (hs : s ∈ p.slots)
    (ht : t ∈ p.slots) (he : s.connection.id = t.connection.id) : s = t :=
  h.toNumbered.slot_eq hs ht he

theorem WellFormed.slot?_eq {p : Pool} (h : p.WellFormed) {s : Slot} (hs : s ∈ p.slots) :
    p.slot? s.connection = some s := h.toNumbered.slot?_eq hs

theorem WellFormed.connections_nodup {p : Pool} (h : p.WellFormed) : p.connections.Nodup :=
  h.toNumbered.connections_nodup

/-- No two dead slots stand at one place of the queue. -/
theorem WellFormed.place_ne {p : Pool} (h : p.WellFormed) {s t : Slot} (hs : s ∈ p.slots)
    (ht : t ∈ p.slots) (hne : s ≠ t) (hds : s.isLive = false) (hdt : t.isLive = false) :
    s.deadOrder ≠ t.deadOrder := by
  have hsymm : Std.Symm fun s t : Slot =>
      s.isLive = false → t.isLive = false → s.deadOrder ≠ t.deadOrder :=
    ⟨fun _ _ h ht hs => (h hs ht).symm⟩
  exact h.places.forall hs ht hne hds hdt

/-- Whether a connection is live or dead, if it is of the present set. -/
def status? (p : Pool) (c : Connection) : Option HealthStatus := (p.health? c).map (·.status)

theorem Numbered.status?_eq {p : Pool} (h : p.Numbered) {s : Slot} (hs : s ∈ p.slots) :
    p.status? s.connection = some s.health.status := by
  simp [status?, health?, h.slot?_eq hs]

theorem Numbered.status?_live {p : Pool} (h : p.Numbered) {s : Slot} (hs : s ∈ p.slots) :
    p.status? s.connection = some .live ↔ s.isLive = true := by
  rw [h.status?_eq hs, Option.some.injEq, Slot.isLive, beq_iff_eq]

/-! ## Marks -/

theorem mem_change {p : Pool} {c : Connection} {f : Slot → Slot} {t : Slot} :
    t ∈ p.change c f ↔ ∃ s ∈ p.slots, (if s.connection.id = c.id then f s else s) = t := by
  simp [change]

theorem change_connections (p : Pool) (c : Connection) {f : Slot → Slot}
    (hf : ∀ s, (f s).connection = s.connection) :
    (p.change c f).map (·.connection) = p.connections := by
  simp only [change, connections, List.map_map]
  refine List.map_congr_left fun s _ => ?_
  simp only [Function.comp_apply]
  split
  · exact hf s
  · rfl

theorem markDead_none {p : Pool} {c : Connection} (h : p.slot? c = none) : p.markDead c = p := by
  simp [markDead, h]

theorem markDead_some {p : Pool} {c : Connection} {s : Slot} (h : p.slot? c = some s) :
    p.markDead c =
      { p with
        slots := p.change c (·.failed p.clock p.nextDeadOrder)
        nextDeadOrder := p.nextDeadOrder + 1
        clock := if s.isLive then p.clock + 1 else p.clock } := by
  simp only [markDead, h]
  rfl

theorem markLive_none {p : Pool} {c : Connection} (h : p.slot? c = none) : p.markLive c = p := by
  simp [markLive, h]

theorem markLive_some {p : Pool} {c : Connection} {s : Slot} (h : p.slot? c = some s) :
    p.markLive c = { p with slots := p.change c (·.recovered) } := by
  simp only [markLive, h]
  rfl

@[simp] theorem markDead_connections (p : Pool) (c : Connection) :
    (p.markDead c).connections = p.connections := by
  cases h : p.slot? c with
  | none => rw [markDead_none h]
  | some s => rw [markDead_some h]; exact change_connections p c fun _ => rfl

@[simp] theorem markLive_connections (p : Pool) (c : Connection) :
    (p.markLive c).connections = p.connections := by
  cases h : p.slot? c with
  | none => rw [markLive_none h]
  | some s => rw [markLive_some h]; exact change_connections p c fun _ => rfl

@[simp] theorem markLive_nextDeadOrder (p : Pool) (c : Connection) :
    (p.markLive c).nextDeadOrder = p.nextDeadOrder := by
  unfold markLive
  split <;> rfl

/-! ## Fresh slots -/

theorem mem_freshSlots {credentials : Option Credentials} {s : Slot} :
    ∀ {id : Nat} {urls : List String}, s ∈ freshSlots credentials id urls →
      id ≤ s.connection.id ∧ s.connection.id < id + urls.length ∧ s.health = .sound ∧ s.deadOrder = 0
  | _, [], h => by simp [freshSlots] at h
  | id, url :: urls, h => by
    simp only [freshSlots, List.mem_cons] at h
    rcases h with rfl | h
    · simp
    · obtain ⟨hle, hlt, hh⟩ := mem_freshSlots h
      simp only [List.length_cons]
      exact ⟨by omega, by omega, hh⟩

theorem freshSlots_ids {credentials : Option Credentials} :
    ∀ {id : Nat} {urls : List String},
      ((freshSlots credentials id urls).map (·.connection.id)).Nodup
  | _, [] => by simp [freshSlots]
  | id, url :: urls => by
    simp only [freshSlots, List.map_cons, List.nodup_cons, List.mem_map, not_exists, not_and]
    refine ⟨fun s hs he => ?_, freshSlots_ids⟩
    have := (mem_freshSlots hs).1
    omega

/-! ## Every operation keeps a pool well formed -/

theorem wellFormed_empty : Pool.empty.WellFormed where
  ids := by simp [empty]
  numbered := by simp [empty]
  cursor := .inr ⟨rfl, rfl⟩
  standing := by simp [empty]
  places := by simp [empty]

theorem wellFormed_setConnections (p : Pool) (urls : List String)
    (credentials : Option Credentials) : (p.setConnections urls credentials).WellFormed where
  ids := freshSlots_ids
  numbered := fun _ hs => (mem_freshSlots hs).2.1
  cursor := by
    cases urls with
    | nil => exact .inr ⟨rfl, rfl⟩
    | cons url urls => exact .inl (by simp [setConnections, freshSlots])
  standing := fun s hs => by
    obtain ⟨-, -, hh, hd⟩ := mem_freshSlots hs
    unfold Slot.InOrder
    rw [hh]
    exact ⟨rfl, hd⟩
  places := by
    refine (List.pairwise_map.mp freshSlots_ids).imp_of_mem fun {s t} hs _ _ hd => ?_
    simp [Slot.isLive, (mem_freshSlots hs).2.2.1, Health.sound] at hd

theorem WellFormed.takes {p q : Pool} {c : Connection} (h : p.WellFormed) (ht : p.Takes c q) :
    q.WellFormed := by
  cases ht with
  | oldest => exact h
  | @live l m s hturn =>
    have hmem : s ∈ p.slots := mem_inTurn.mp (hturn ▸ by simp)
    have hpos : 0 < p.slots.length := List.length_pos_of_mem hmem
    exact ⟨h.ids, h.numbered, .inl (Nat.mod_lt _ hpos), h.standing, h.places⟩

/-- What a change of one slot keeps, where the new slot stands at a place that no other has. -/
theorem WellFormed.change {p : Pool} (h : p.WellFormed) {c : Connection} {f : Slot → Slot}
    {next : UInt64} (clock : Nat) (hf : ∀ s, (f s).connection = s.connection)
    (hnext : p.nextDeadOrder ≤ next) (hstand : ∀ s ∈ p.slots, (f s).InOrder next)
    (hplace : ∀ s ∈ p.slots, (f s).isLive = true ∨ (f s).deadOrder = p.nextDeadOrder) :
    WellFormed { p with slots := p.change c f, nextDeadOrder := next, clock := clock } where
  ids := by
    have := congrArg (List.map Connection.id) (change_connections p c hf)
    simp only [connections, List.map_map] at this
    show ((p.change c f).map (Connection.id ∘ (·.connection))).Nodup
    rw [this]
    exact h.ids
  numbered := fun t ht => by
    obtain ⟨s, hs, rfl⟩ := mem_change.mp ht
    split
    · rw [hf]; exact h.numbered s hs
    · exact h.numbered s hs
  cursor := by
    simpa [Pool.change] using h.cursor
  standing := fun t ht => by
    obtain ⟨s, hs, rfl⟩ := mem_change.mp ht
    split
    · exact hstand s hs
    · exact (h.standing s hs).mono hnext
  places := by
    -- of two slots one at most is new, and the other stands before the place of the new one
    have hids : p.slots.Pairwise fun s t => s.connection.id ≠ t.connection.id :=
      List.pairwise_map.mp h.ids
    have hlt : ∀ s ∈ p.slots, s.isLive = false → s.deadOrder ≠ p.nextDeadOrder :=
      fun s hs hd => UInt64.ne_of_lt ((h.standing s hs).place hd)
    simp only [Pool.change, List.pairwise_map]
    refine (hids.and h.places).imp_of_mem fun {s t} hs ht hst => ?_
    by_cases hsc : s.connection.id = c.id <;> by_cases htc : t.connection.id = c.id
    · exact absurd (hsc.trans htc.symm) hst.1
    · simp only [hsc, htc, if_true, if_false]
      intro hd ht'
      rcases hplace s hs with hl | he
      · simp [hl] at hd
      · exact he ▸ (hlt t ht ht').symm
    · simp only [hsc, htc, if_true, if_false]
      intro hs' hd
      rcases hplace t ht with hl | he
      · simp [hl] at hd
      · exact he ▸ hlt s hs hs'
    · simpa only [hsc, htc, if_false] using hst.2

theorem place_lt_next {x : UInt64} (h : x ≤ x + 1) : x < x + 1 := by
  rw [UInt64.le_iff_toNat_le] at h
  rw [UInt64.lt_iff_toNat_lt]
  rw [UInt64.toNat_add] at h ⊢
  have := x.toNat_lt
  simp at h ⊢
  omega

theorem WellFormed.markDead {p : Pool} {c : Connection} (h : p.WellFormed)
    (hroom : p.nextDeadOrder ≤ (p.markDead c).nextDeadOrder) : (p.markDead c).WellFormed := by
  cases hs : p.slot? c with
  | none => rwa [markDead_none hs]
  | some s =>
    rw [markDead_some hs] at hroom ⊢
    exact h.change _ (fun _ => rfl) hroom
      (fun s hs => Slot.failed_inOrder (h.standing s hs) (place_lt_next hroom))
      fun _ _ => .inr rfl

theorem WellFormed.markLive {p : Pool} (h : p.WellFormed) (c : Connection) :
    (p.markLive c).WellFormed := by
  cases hs : p.slot? c with
  | none => rwa [markLive_none hs]
  | some s =>
    rw [markLive_some hs]
    exact h.change p.clock (fun _ => rfl) (UInt64.le_refl _) (fun s _ => s.recovered_inOrder _)
      fun _ _ => .inl rfl

theorem Reachable.wellFormed {p : Pool} (h : p.Reachable) : p.WellFormed := by
  induction h with
  | empty => exact wellFormed_empty
  | @setConnections p urls credentials => exact wellFormed_setConnections p urls credentials
  | take _ ht ih => exact ih.takes (takes_of_take? ht)
  | markDead _ hroom ih => exact ih.markDead hroom
  | markLive c _ ih => exact ih.markLive c

end Pool

end ClusterOutput
