/-
What a pool is made of, after any calls (`pool_represents`): its cursor points at a
slot, its connections are different ones, live slots carry no trace of failures, and
no two dead ones stand at one place of the queue. Places are given out one after
another (`Enqueued`), from the first one again when the connections are replaced.

So everything that handing out a connection reaches for is there, and of a pool in
which all are dead exactly one slot stands first.
-/
import ClusterOutput.Proofs.Pool.History

namespace ClusterOutput

/-- How many failures were recorded of connections of the present set since it was configured. Each
of them took a place in the queue of the dead. -/
def Past.placesTaken : Past → Nat
  | [] => 0
  | (.setConnections _ _, _) :: _ => 0
  | (.markDead d, _) :: past =>
    if d.id ∈ (current past).map (·.id) then placesTaken past + 1 else placesTaken past
  | _ :: past => placesTaken past

namespace Pool

variable {past : Past} {p q : Pool} {a : PoolCall} {answer : PoolAnswer} {c : Connection}

/-! ## Connections and places, told from the past -/

/-- The pool has the connections that its past configured, whatever else happened. -/
structure Configured (past : Past) (p : Pool) : Prop where
  nextId : p.nextId = past.configured
  current : p.connections = past.current

theorem Configured.quiet (h : Configured past p) (ha : a.isQuiet = true)
    (hid : q.nextId = p.nextId) (hconn : q.connections = p.connections) :
    Configured ((a, answer) :: past) q where
  nextId := by rw [hid, h.nextId, Past.configured_quiet ha]
  current := by rw [hconn, h.current, Past.current_quiet ha]

theorem Configured.answers (h : Configured past p) (ha : p.Answers a answer q) :
    Configured ((a, answer) :: past) q := by
  cases ha with
  | configured urls credentials =>
    refine ⟨congrArg (· + urls.length) h.nextId, ?_⟩
    simp only [connections, setConnections, freshSlots_connections, h.nextId, Past.current]
  | taken ht => exact h.quiet rfl ht.nextId_eq (takes_connections ht)
  | markedDead c =>
    exact ⟨(markDead_nextId p c).trans h.nextId, (markDead_connections p c).trans h.current⟩
  | markedLive c =>
    exact ⟨(markLive_nextId p c).trans h.nextId, (markLive_connections p c).trans h.current⟩
  | empty | health | urls | size | liveCount => exact h.quiet rfl rfl rfl

theorem Configured.slot?_isSome (h : Configured past p) :
    (p.slot? c).isSome = true ↔ c.id ∈ past.current.map (·.id) := by
  rw [← h.current, connections, List.map_map, slot?, List.find?_isSome, List.mem_map]
  simp only [beq_iff_eq, Function.comp_apply]

/-- The pool is well formed, and the next place of its queue is behind all that were taken. -/
structure Enqueued (past : Past) (p : Pool) : Prop where
  wellFormed : p.WellFormed
  next : p.nextDeadOrder.toNat = past.placesTaken

theorem Enqueued.markedDead (h : Enqueued past p) (hconf : Configured past p)
    (hroom : Past.placesTaken ((.markDead c, answer) :: past) < UInt64.size) :
    Enqueued ((.markDead c, answer) :: past) (p.markDead c) := by
  rw [Past.placesTaken] at hroom
  cases hs : p.slot? c with
  | none =>
    have hstale : c.id ∉ past.current.map (·.id) := by rw [← hconf.slot?_isSome, hs]; simp
    rw [markDead_none hs]
    exact ⟨h.wellFormed, by rw [Past.placesTaken, if_neg hstale, h.next]⟩
  | some s =>
    have hmem : c.id ∈ past.current.map (·.id) := by rw [← hconf.slot?_isSome, hs]; rfl
    rw [if_pos hmem, ← h.next] at hroom
    refine ⟨h.wellFormed.markDead (markDead_nextDeadOrder hroom c).1, ?_⟩
    rw [Past.placesTaken, if_pos hmem, ← h.next, markDead_some hs, UInt64.toNat_add]
    exact Nat.mod_eq_of_lt hroom

/-- A call keeps the queue in order, if there was room for it since the connections were replaced. -/
theorem Enqueued.answers (h : past.placesTaken < UInt64.size → Enqueued past p)
    (hconf : Configured past p) (ha : p.Answers a answer q)
    (hroom : Past.placesTaken ((a, answer) :: past) < UInt64.size) :
    Enqueued ((a, answer) :: past) q := by
  cases ha with
  | configured urls credentials => exact ⟨wellFormed_setConnections p urls credentials, rfl⟩
  | taken ht =>
    obtain ⟨hwf, hnext⟩ := h hroom
    exact ⟨hwf.takes ht, by rw [(takes_slots ht).2, hnext]; rfl⟩
  | markedDead c =>
    have hle : past.placesTaken ≤ Past.placesTaken ((.markDead c, .done) :: past) := by
      rw [Past.placesTaken]
      split <;> omega
    exact (h (Nat.lt_of_le_of_lt hle hroom)).markedDead hconf hroom
  | markedLive c =>
    obtain ⟨hwf, hnext⟩ := h hroom
    exact ⟨hwf.markLive c, by rw [markLive_nextDeadOrder, hnext]; rfl⟩
  | empty | health | urls | size | liveCount => exact ⟨(h hroom).wellFormed, (h hroom).next⟩

/-! ## What a well-formed pool holds -/

variable {s : Slot}

theorem WellFormed.of_live (h : p.WellFormed) (hs : s ∈ p.slots) (hlive : s.isLive = true) :
    s.health.deadSince = none ∧ s.health.failures = 0 ∧ s.deadOrder = 0 := by
  have hstatus : s.health.status = .live := by simpa [Slot.isLive] using hlive
  have hstanding := h.standing s hs
  simp only [Slot.InOrder, hstatus] at hstanding
  rw [hstanding.1]
  exact ⟨rfl, rfl, hstanding.2⟩

theorem WellFormed.of_dead (h : p.WellFormed) (hs : s ∈ p.slots) (hdead : s.isLive = false) :
    s.health.deadSince.isSome = true ∧ 0 < s.health.failures ∧ s.deadOrder < p.nextDeadOrder := by
  have hstanding := h.standing s hs
  simpa only [Slot.InOrder, Slot.isLive_eq_false.mp hdead] using hstanding

/-- Where the cursor points and how far a turn reaches. -/
theorem WellFormed.turn_within (h : p.WellFormed) {offset : Nat} (hoffset : offset < p.slots.length) :
    p.cursor + offset < 2 * p.slots.length ∧
      ∃ s, p.slots[(p.cursor + offset) % p.slots.length]? = some s := by
  rcases h.cursor with hcursor | ⟨hnil, -⟩
  · exact ⟨by omega, _, List.getElem?_eq_getElem (Nat.mod_lt _ (Nat.zero_lt_of_lt hoffset))⟩
  · simp [hnil] at hoffset

/-- Where all are dead, one stands in front of all others. -/
theorem WellFormed.oldest_alone (h : p.WellFormed) (hne : p.slots ≠ [])
    (hdead : ∀ s ∈ p.slots, s.isLive = false) :
    ∃ l s m, p.slots = l ++ s :: m ∧ oldest? p.slots = some s ∧
      ∀ t ∈ l ++ m, s.deadOrder < t.deadOrder := by
  cases holdest : oldest? p.slots with
  | none => exact absurd (oldest?_eq_none.mp holdest) hne
  | some s =>
    obtain ⟨hs, hle⟩ := oldest?_spec holdest
    obtain ⟨l, m, hslots⟩ := List.append_of_mem hs
    have hnodup : (l ++ s :: m).Nodup := hslots ▸ List.Nodup.of_map _ h.ids
    refine ⟨l, s, m, hslots, rfl, fun t ht => ?_⟩
    have hmem : t ∈ p.slots := by
      rw [hslots]
      exact ((List.sublist_cons_self s m).append_left l).subset ht
    have hst : s ≠ t := by
      rintro rfl
      exact (List.nodup_middle.mp hnodup).notMem ht
    exact UInt64.lt_of_le_of_ne (hle t hmem) (h.place_ne hs hmem hst (hdead s hs) (hdead t hmem))

end Pool

namespace Session

/-- As long as the places of the queue last, it is in order. -/
theorem calls_enqueued (collector : Option Collector) (as : List PoolCall) :
    Pool.Configured (past collector as) (start.calls collector as).2.pool ∧
      ((past collector as).placesTaken < UInt64.size →
        Pool.Enqueued (past collector as) (start.calls collector as).2.pool) := by
  induction as using List.reverseRecOn with
  | nil => exact ⟨⟨rfl, rfl⟩, fun _ => ⟨Pool.wellFormed_empty, rfl⟩⟩
  | append_singleton as a ih =>
    obtain ⟨hconf, hqueue⟩ := ih
    have hanswers := call_answers (start.calls collector as).2 collector a
    rw [past_concat, calls_concat]
    exact ⟨hconf.answers hanswers, Pool.Enqueued.answers hqueue hconf hanswers⟩

/-- **What a pool is made of** after any calls, if since the last replacement of its connections fewer
failures took a place in the queue than 64 bits can count. The cursor is at a slot, if there is any;
connections are different ones; live slots have no trace of failures; dead ones are dead since some
instant, failed at least once, and stand at different places, all of them ahead of the next one.

So each place that a turn looks at is that of a slot, and no sum on the way to it is beyond 64 bits
where slots are not beyond 63. Wherever there is a slot, the search for the oldest finds one; and
where all are dead, it stands ahead of each other. -/
theorem pool_represents (collector : Option Collector) (before : List PoolCall)
    (hfew : (past collector before).placesTaken < UInt64.size) :
    let p := (start.calls collector before).2.pool
    (p.cursor < p.slots.length ∨ p.slots = [] ∧ p.cursor = 0) ∧
    (p.slots.map (·.connection.id)).Nodup ∧
    (∀ s ∈ p.slots, s.isLive = true →
      s.health.deadSince = none ∧ s.health.failures = 0 ∧ s.deadOrder = 0) ∧
    (∀ s ∈ p.slots, s.isLive = false →
      s.health.deadSince.isSome = true ∧ 0 < s.health.failures ∧ s.deadOrder < p.nextDeadOrder) ∧
    (p.slots.Pairwise fun s t => s.isLive = false → t.isLive = false → s.deadOrder ≠ t.deadOrder) ∧
    (∀ offset < p.slots.length,
      (p.slots.length < 0x8000000000000000 → p.cursor + offset < UInt64.size) ∧
        ∃ s, p.slots[(p.cursor + offset) % p.slots.length]? = some s) ∧
    (p.slots ≠ [] → (Pool.oldest? p.slots).isSome = true ∧ p.take?.isSome = true) ∧
    (p.slots ≠ [] → (∀ s ∈ p.slots, s.isLive = false) →
      ∃ l s m, p.slots = l ++ s :: m ∧ Pool.oldest? p.slots = some s ∧
        ∀ t ∈ l ++ m, s.deadOrder < t.deadOrder) := by
  intro p
  have hwf : p.WellFormed := ((calls_enqueued collector before).2 hfew).wellFormed
  refine ⟨hwf.cursor, hwf.ids, fun s => hwf.of_live, fun s => hwf.of_dead, hwf.places,
    fun offset hoffset => ?_, fun hne => ?_, hwf.oldest_alone⟩
  · obtain ⟨hsum, hslot⟩ := hwf.turn_within hoffset
    have hsize : UInt64.size = 2 * 0x8000000000000000 := rfl
    exact ⟨fun hlen => by omega, hslot⟩
  · rw [Option.isSome_iff_ne_none, Option.isSome_iff_ne_none, ne_eq, ne_eq, Pool.oldest?_eq_none,
      Pool.take?_eq_none]
    exact ⟨hne, hne⟩

/-- Three connections, of which one that failed three times stands behind the other two. A failure of
a connection of an earlier set took no place. -/
theorem pool_represents_down :
    let node (id : Nat) (url : String) : Connection := ⟨id, url, none⟩
    let before : List PoolCall := [.setConnections ["http://z"] none,
      .setConnections ["http://a", "http://b", "http://a"] none, .markDead (node 0 "http://z"),
      .markDead (node 1 "http://a"), .take, .markDead (node 3 "http://a"),
      .markDead (node 1 "http://a"), .markDead (node 2 "http://b"), .markDead (node 1 "http://a")]
    let p := (start.calls none before).2.pool
    (past none before).placesTaken = 5 ∧ (∀ s ∈ p.slots, s.isLive = false) ∧
      p.slots.map (·.deadOrder) = [4, 3, 1] ∧
      ∃ l s m, p.slots = l ++ s :: m ∧ Pool.oldest? p.slots = some s ∧
        ∀ t ∈ l ++ m, s.deadOrder < t.deadOrder := by
  intro node before p
  have hplaces : (past none before).placesTaken = 5 := by decide +kernel
  have hdead : ∀ s ∈ p.slots, s.isLive = false := by decide +kernel
  have hfew : (past none before).placesTaken < UInt64.size := by rw [hplaces]; decide
  obtain ⟨-, -, -, -, -, -, -, holdest⟩ := pool_represents none before hfew
  exact ⟨hplaces, hdead, by decide +kernel, holdest (by decide +kernel) hdead⟩

end Session

end ClusterOutput
