/-
The health of a connection, told from the calls so far alone. It is dead as long as
it failed since it was configured and since it was last answered: since the first of
these failures, all of which are counted (`health_recorded`).

A mark changes the health of its own connection, and a new set that of all; nothing
else changes any (`Answers.health?_eq`). So marks of other connections, or of those of
an earlier set, pass without a trace.
-/
import ClusterOutput.Proofs.Pool.Calls
import Mathlib.Data.List.Induction

namespace ClusterOutput

/-- The health of a connection that failed at these instants, the first one first, and was not
answered meanwhile. -/
def Health.ofFailures : List Nat → Health
  | [] => ⟨.live, none, 0⟩
  | first :: later => ⟨.dead, some first, min (later.length + 1) failureLimit⟩

theorem Health.failed_ofFailures (times : List Nat) (now : Nat) :
    (ofFailures times).failed now = ofFailures (times ++ [now]) := by
  cases times with
  | nil => rfl
  | cons first later =>
    have hcount : min (min (later.length + 1) failureLimit + 1) failureLimit =
        min (later.length + 1 + 1) failureLimit := by omega
    simp only [failed, ofFailures, List.cons_append, List.length_append, List.length_singleton,
      hcount]

/-- The call says what became of the connection, or replaces all connections. -/
def PoolCall.decides (c : Connection) : PoolCall → Bool
  | setConnections _ _ => true
  | markDead d | markLive d => c.id == d.id
  | take | health _ | urls | size | liveCount => false

/-- Calls so far, each with the instant at which it was made, the last one first. -/
abbrev Timeline := List (Nat × PoolCall)

/-- The instants at which the connection failed since it was configured and since it was last
answered, the first one first. -/
def Timeline.failures (c : Connection) : Timeline → List Nat
  | [] => []
  | (_, .setConnections _ _) :: _ => []
  | (now, .markDead d) :: past => if c.id = d.id then failures c past ++ [now] else failures c past
  | (_, .markLive d) :: past => if c.id = d.id then [] else failures c past
  | _ :: past => failures c past

theorem Timeline.failures_of_not_decides {c : Connection} {a : PoolCall}
    (ha : a.decides c = false) (now : Nat) (past : Timeline) :
    failures c ((now, a) :: past) = failures c past := by
  cases a with
  | setConnections => cases ha
  | markDead d | markLive d =>
    rw [failures, if_neg]
    simpa [PoolCall.decides] using ha
  | take | health | urls | size | liveCount => rfl

namespace Pool

variable {p q : Pool} {c d : Connection} {a : PoolCall} {answer : PoolAnswer} {past : Timeline}

/-! ## What marks make of a health -/

theorem slot?_change (p : Pool) (c d : Connection) {f : Slot → Slot}
    (hf : ∀ s, (f s).connection = s.connection) :
    (p.change c f).find? (·.connection.id == d.id) =
      (p.slot? d).map fun s => if d.id = c.id then f s else s := by
  have hkept : ∀ s : Slot,
      (if s.connection.id = c.id then f s else s).connection = s.connection := fun s => by
    split
    · exact hf s
    · rfl
  have hfind : p.slots.find? ((·.connection.id == d.id) ∘ fun s =>
      if s.connection.id = c.id then f s else s) = p.slot? d :=
    List.find?_congr fun s _ => by rw [Function.comp_apply, hkept]
  rw [change, List.find?_map, hfind]
  refine Option.map_congr fun s hs => ?_
  rw [slot?_id hs]

theorem health?_markDead (p : Pool) (c d : Connection) :
    (p.markDead c).health? d =
      (p.health? d).map fun h => if d.id = c.id then h.failed p.clock else h := by
  rw [health?, slot?, slots_markDead_eq, slot?_change p c d (Slot.failed_connection · _ _), health?,
    Option.map_map, Option.map_map]
  refine Option.map_congr fun s _ => ?_
  simp only [Function.comp_apply]
  split <;> rfl

theorem health?_markLive (p : Pool) (c d : Connection) :
    (p.markLive c).health? d = (p.health? d).map fun h => if d.id = c.id then .sound else h := by
  have hkept (s : Slot) : s.recovered.connection = s.connection := rfl
  rw [health?, slot?, slots_markLive_eq, slot?_change p c d hkept, health?, Option.map_map,
    Option.map_map]
  refine Option.map_congr fun s _ => ?_
  simp only [Function.comp_apply]
  split <;> rfl

theorem Takes.health?_eq (h : p.Takes c q) (d : Connection) : q.health? d = p.health? d := by
  simp only [health?, slot?, (takes_slots h).1]

/-- A connection of the present set has a health. -/
theorem health?_of_mem (hc : c ∈ p.connections) : ∃ s ∈ p.slots, p.health? c = some s.health := by
  obtain ⟨t, ht, rfl⟩ := mem_connections.mp hc
  cases hs : p.slot? t.connection with
  | none => exact absurd rfl (id_ne_of_slot?_none hs ht)
  | some s => exact ⟨s, slot?_mem hs, by rw [health?, hs, Option.map_some]⟩

theorem slot?_none_of_stale (h : ∀ c ∈ p.connections, c.id ≠ d.id) : p.slot? d = none := by
  cases hs : p.slot? d with
  | none => rfl
  | some s => exact absurd (slot?_id hs) (h _ (mem_connections.mpr ⟨s, slot?_mem hs, rfl⟩))

/-- Only marks of a connection and new sets change what is known of its health. -/
theorem Answers.health?_eq (h : p.Answers a answer q) (ha : a.decides c = false) :
    q.health? c = p.health? c := by
  have hother {d : Connection} (hd : (c.id == d.id) = false) {f : Health → Health} :
      (p.health? c).map (fun h => if c.id = d.id then f h else h) = p.health? c := by
    simp only [beq_eq_false_iff_ne.mp hd, if_false, Option.map_id']
  cases h with
  | configured => cases ha
  | taken htake => exact htake.health?_eq c
  | markedDead d => exact (health?_markDead p d c).trans (hother ha)
  | markedLive d => exact (health?_markLive p d c).trans (hother ha)
  | empty | health | urls | size | liveCount => rfl

/-! ## Health and history -/

/-- The health of every connection is what its failures so far make of it. -/
def Recorded (past : Timeline) (p : Pool) : Prop :=
  ∀ c ∈ p.connections, p.health? c = some (.ofFailures (past.failures c))

theorem Recorded.configured (urls : List String) (credentials : Option Credentials) (now : Nat)
    (past : Timeline) :
    Recorded ((now, .setConnections urls credentials) :: past)
      (p.setConnections urls credentials) := by
  intro c hc
  obtain ⟨s, hs, hhealth⟩ := health?_of_mem hc
  rw [hhealth, (mem_freshSlots hs).2.2.1]
  rfl

theorem Recorded.markedDead (h : p.Recorded past) (d : Connection) :
    Recorded ((p.clock, .markDead d) :: past) (p.markDead d) := by
  intro c hc
  rw [markDead_connections] at hc
  rw [health?_markDead, h c hc, Option.map_some, Timeline.failures]
  split
  · rw [Health.failed_ofFailures]
  · rfl

theorem Recorded.markedLive (h : p.Recorded past) (d : Connection) (now : Nat) :
    Recorded ((now, .markLive d) :: past) (p.markLive d) := by
  intro c hc
  rw [markLive_connections] at hc
  rw [health?_markLive, h c hc, Option.map_some, Timeline.failures]
  split <;> rfl

/-- A call that decides nothing leaves the record as it is. -/
theorem Recorded.undecided (h : p.Recorded past) (ha : p.Answers a answer q)
    (hnone : ∀ c, a.decides c = false) (hconn : q.connections = p.connections) (now : Nat) :
    Recorded ((now, a) :: past) q := by
  intro c hc
  rw [ha.health?_eq (hnone c), h c (hconn ▸ hc), Timeline.failures_of_not_decides (hnone c)]

theorem Recorded.answers (h : p.Recorded past) (ha : p.Answers a answer q) :
    Recorded ((p.clock, a) :: past) q := by
  cases ha with
  | configured urls credentials => exact .configured urls credentials p.clock past
  | taken htake => exact h.undecided (.taken htake) (fun _ => rfl) (takes_connections htake) p.clock
  | empty hempty => exact h.undecided (.empty hempty) (fun _ => rfl) rfl p.clock
  | markedDead d => exact h.markedDead d
  | markedLive d => exact h.markedLive d p.clock
  | health d => exact h.undecided (.health d) (fun _ => rfl) rfl p.clock
  | urls => exact h.undecided .urls (fun _ => rfl) rfl p.clock
  | size => exact h.undecided .size (fun _ => rfl) rfl p.clock
  | liveCount => exact h.undecided .liveCount (fun _ => rfl) rfl p.clock

/-- As many connections are live as did not fail. -/
theorem Recorded.liveCount (h : p.Recorded past) (hn : p.Numbered) :
    p.liveCount = p.connections.countP fun c => (past.failures c).isEmpty := by
  rw [Pool.liveCount, connections, List.countP_map]
  refine List.countP_congr fun s hs => ?_
  have hhealth : s.health = .ofFailures (past.failures s.connection) := by
    have hrecord := h s.connection (mem_connections.mpr ⟨s, hs, rfl⟩)
    rwa [health?, hn.slot?_eq hs, Option.map_some, Option.some.injEq] at hrecord
  rw [Slot.isLive, hhealth, Function.comp_apply]
  cases past.failures s.connection with
  | nil => simp [Health.ofFailures]
  | cons first later => simp [Health.ofFailures]

end Pool

namespace Session

/-- Calls made one after another, each with the instant at which it is made. -/
def dated (s : Session) (collector : Option Collector) : List PoolCall → List (Nat × PoolCall)
  | [] => []
  | a :: as => (s.pool.clock, a) :: (s.call collector a).2.dated collector as

/-- The calls of a new session with their instants, the last one first. -/
def timeline (collector : Option Collector) (as : List PoolCall) : Timeline :=
  (start.dated collector as).reverse

theorem dated_concat (s : Session) (collector : Option Collector) (as : List PoolCall)
    (a : PoolCall) :
    s.dated collector (as ++ [a]) =
      s.dated collector as ++ [((s.calls collector as).2.pool.clock, a)] := by
  induction as generalizing s with
  | nil => rfl
  | cons b as ih => simp only [List.cons_append, dated, ih, calls_cons]

theorem calls_recorded (collector : Option Collector) (as : List PoolCall) :
    (start.calls collector as).2.pool.Recorded (timeline collector as) := by
  induction as using List.reverseRecOn with
  | nil => exact List.forall_mem_nil _
  | append_singleton as a ih =>
    rw [calls_concat, timeline, dated_concat, List.reverse_concat]
    exact ih.answers (call_answers _ collector a)

/-- **The health of connections is the record of their marks.** After any calls, a connection that
did not fail since it was configured and since it was last answered is live, with no failures. Any
other is dead since the first of its failures after that, and these are counted up to a limit. As
many connections are live as did not fail so. Only marks of a connection and new sets change its
health, and marks of connections that are not of the present set change nothing at all. -/
theorem health_recorded (collector : Option Collector) (as : List PoolCall) :
    let s := (start.calls collector as).2
    let past := timeline collector as
    (∀ c ∈ s.pool.connections,
      (past.failures c = [] → s.pool.health? c = some ⟨.live, none, 0⟩) ∧
        ∀ first later, past.failures c = first :: later →
          s.pool.health? c = some ⟨.dead, some first, min (later.length + 1) failureLimit⟩) ∧
    s.pool.liveCount = s.pool.connections.countP (fun c => (past.failures c).isEmpty) ∧
    (∀ a, ∀ c ∈ s.pool.connections, a.decides c = false →
      (s.call collector a).2.pool.health? c = s.pool.health? c) ∧
    ∀ d, (∀ c ∈ s.pool.connections, c.id ≠ d.id) →
      (s.call collector (.markDead d)).2.pool = s.pool ∧
        (s.call collector (.markLive d)).2.pool = s.pool := by
  intro s past
  have hrecord : s.pool.Recorded past := calls_recorded collector as
  refine ⟨fun c hc => ⟨?_, ?_⟩, hrecord.liveCount (calls_numbered collector as), ?_, ?_⟩
  · intro hnone
    rw [hrecord c hc, hnone]
    rfl
  · intro first later hsome
    rw [hrecord c hc, hsome]
    rfl
  · intro a c _ ha
    exact (call_answers s collector a).health?_eq ha
  · intro d hstale
    have hslot := Pool.slot?_none_of_stale hstale
    exact ⟨(markDead_pool s collector d).trans (Pool.markDead_none hslot),
      (markLive_pool s collector d).trans (Pool.markLive_none hslot)⟩

/-- Of two connections of one URL the first fails, is answered, and fails twice more: it is dead
since the second of the three, which came after the failure of the other. Failures of the other do
not change that, and those of a connection that is not of the set change nothing. -/
theorem health_recorded_twins :
    let twin (id : Nat) : Connection := ⟨id, "http://a", none⟩
    let before : List PoolCall := [.setConnections ["http://a", "http://a/"] none,
      .markDead (twin 0), .markDead (twin 1), .markLive (twin 0), .markDead (twin 0), .take,
      .markDead (twin 0)]
    let s := (start.calls none before).2
    s.pool.connections = [twin 0, twin 1] ∧
      s.pool.health? (twin 0) = some ⟨.dead, some 2, 2⟩ ∧
      (s.call none (.markDead (twin 1))).2.pool.health? (twin 0) = s.pool.health? (twin 0) ∧
      (s.call none (.markDead (twin 7))).2.pool = s.pool := by
  intro twin before s
  obtain ⟨hhealth, -, hkept, hunheard⟩ := health_recorded none before
  have hconnections : s.pool.connections = [twin 0, twin 1] := by decide +kernel
  have hmem : twin 0 ∈ s.pool.connections := by rw [hconnections]; exact List.mem_cons_self
  have hfailures : (timeline none before).failures (twin 0) = [2, 3] := by decide +kernel
  have hdead : s.pool.health? (twin 0) = some ⟨.dead, some 2, 2⟩ :=
    (hhealth (twin 0) hmem).2 2 [3] hfailures
  have hstale : ∀ c ∈ s.pool.connections, c.id ≠ (twin 7).id := by decide +kernel
  exact ⟨hconnections, hdead, hkept (.markDead (twin 1)) (twin 0) hmem rfl,
    (hunheard (twin 7) hstale).1⟩

end Session

end ClusterOutput
