/-
What users of a pool ask of it, and what it answers. Calls are made one after
another, on connections of the present set or of others, and their answers are
kept (`Session.calls`).

Whatever was asked of a pool, its connections have different numbers, all of
them below the next one (`Numbered`). So a number says which connection is meant
through all sets.
-/
import ClusterOutput.Proofs.Pool.Replay

namespace ClusterOutput

inductive PoolCall where
  | setConnections (urls : List String) (credentials : Option Credentials)
  | take
  | markDead (c : Connection)
  | markLive (c : Connection)
  | health (c : Connection)
  | urls
  | size
  | liveCount

inductive PoolAnswer where
  | done
  | connection (r : Except RequestError Connection)
  | health (h : Option Health)
  | urls (l : List String)
  | count (n : Nat)

/-- A failed attempt is to be recorded. -/
def PoolCall.isFailure : PoolCall → Bool
  | markDead _ => true
  | _ => false

namespace Session

/-- The answer to a call, and the session behind it. -/
def call (s : Session) (collector : Option Collector) : PoolCall → PoolAnswer × Session
  | .setConnections urls credentials => (.done, s.setConnections urls credentials)
  | .take =>
    match s.take? with
    | none => (.connection (.error .noConnections), s)
    | some (c, s) => (.connection (.ok c), s)
  | .markDead c => (.done, s.markDead collector c)
  | .markLive c => (.done, s.markLive collector c)
  | .health c => (.health (s.pool.health? c), s)
  | .urls => (.urls s.pool.urls, s)
  | .size => (.count s.pool.size, s)
  | .liveCount => (.count s.pool.liveCount, s)

/-- Makes calls one after another: each of them with its answer, and the session behind them. -/
def calls (s : Session) (collector : Option Collector) :
    List PoolCall → List (PoolCall × PoolAnswer) × Session
  | [] => ([], s)
  | c :: cs =>
    let (answer, s) := s.call collector c
    let (answers, s) := s.calls collector cs
    ((c, answer) :: answers, s)

variable {s t : Session} {collector : Option Collector} {c : Connection}

theorem calls_cons (s : Session) (collector : Option Collector) (a : PoolCall)
    (as : List PoolCall) :
    s.calls collector (a :: as) =
      ((a, (s.call collector a).1) :: ((s.call collector a).2.calls collector as).1,
        ((s.call collector a).2.calls collector as).2) := rfl

theorem calls_concat (s : Session) (collector : Option Collector) (as : List PoolCall)
    (a : PoolCall) :
    s.calls collector (as ++ [a]) =
      ((s.calls collector as).1 ++ [(a, ((s.calls collector as).2.call collector a).1)],
        ((s.calls collector as).2.call collector a).2) := by
  induction as generalizing s with
  | nil => rfl
  | cons b as ih => simp only [List.cons_append, calls_cons, ih]

/-- Every call is answered, in order. -/
theorem calls_fst (s : Session) (collector : Option Collector) (as : List PoolCall) :
    (s.calls collector as).1.map (·.1) = as := by
  induction as generalizing s with
  | nil => rfl
  | cons a as ih => rw [calls_cons, List.map_cons, ih]

/-! ## What a call does to the pool -/

@[simp] theorem setConnections_pool (s : Session) (urls : List String)
    (credentials : Option Credentials) :
    (s.setConnections urls credentials).pool = s.pool.setConnections urls credentials := rfl

@[simp] theorem markDead_pool (s : Session) (collector : Option Collector) (c : Connection) :
    (s.markDead collector c).pool = s.pool.markDead c := by
  simp only [markDead]
  split
  · rfl
  · split <;> rfl

@[simp] theorem markLive_pool (s : Session) (collector : Option Collector) (c : Connection) :
    (s.markLive collector c).pool = s.pool.markLive c := by
  simp only [markLive]
  split
  · rfl
  · split <;> rfl

theorem take?_pool (h : s.take? = some (c, t)) : s.pool.take? = some (c, t.pool) := by
  simp only [take?, Option.map_eq_some_iff, Prod.mk.injEq] at h
  obtain ⟨choice, hc, rfl, rfl⟩ := h
  simp only [Pool.take?, hc, Option.map_some, done, log]

theorem slots_of_take?_none (h : s.take? = none) : s.pool.slots = [] := by
  rw [← Pool.take?_eq_none]
  simpa [take?, Pool.take?] using h

/-! ## Which transitions are measured -/

theorem markDead_samples (s : Session) (collector : Option Collector) (c : Connection) :
    (s.markDead collector c).journal.samples = s.journal.samples ++
      if s.pool.status? c = some .live then Collector.keep collector [.transition .dead] else [] := by
  rw [markDead, Pool.status?, Pool.health?]
  cases s.pool.slot? c with
  | none => simp [log, done]
  | some slot => cases h : slot.health.status <;> simp [h, log, done, record]

theorem markLive_samples (s : Session) (collector : Option Collector) (c : Connection) :
    (s.markLive collector c).journal.samples = s.journal.samples ++
      if s.pool.status? c = some .dead then Collector.keep collector [.transition .live] else [] := by
  rw [markLive, Pool.status?, Pool.health?]
  cases s.pool.slot? c with
  | none => simp [log, done]
  | some slot => cases h : slot.health.status <;> simp [h, log, done, record]

end Session

namespace Pool

/-- How a pool answers a call, and what it is behind it. -/
inductive Answers (p : Pool) : PoolCall → PoolAnswer → Pool → Prop
  | configured (urls : List String) (credentials : Option Credentials) :
    Answers p (.setConnections urls credentials) .done (p.setConnections urls credentials)
  | taken {c : Connection} {q : Pool} (htake : p.Takes c q) :
    Answers p .take (.connection (.ok c)) q
  | empty (hempty : p.slots = []) : Answers p .take (.connection (.error .noConnections)) p
  | markedDead (c : Connection) : Answers p (.markDead c) .done (p.markDead c)
  | markedLive (c : Connection) : Answers p (.markLive c) .done (p.markLive c)
  | health (c : Connection) : Answers p (.health c) (.health (p.health? c)) p
  | urls : Answers p .urls (.urls p.urls) p
  | size : Answers p .size (.count p.size) p
  | liveCount : Answers p .liveCount (.count p.liveCount) p

end Pool

theorem Session.call_answers (s : Session) (collector : Option Collector) (a : PoolCall) :
    s.pool.Answers a (s.call collector a).1 (s.call collector a).2.pool := by
  cases a with
  | setConnections urls credentials => exact .configured urls credentials
  | take =>
    simp only [call]
    cases h : s.take? with
    | none => exact .empty (slots_of_take?_none h)
    | some r => exact .taken (Pool.takes_of_take? (take?_pool h))
  | markDead c => exact s.markDead_pool collector c ▸ .markedDead c
  | markLive c => exact s.markLive_pool collector c ▸ .markedLive c
  | health c => exact .health c
  | urls => exact .urls
  | size => exact .size
  | liveCount => exact .liveCount

namespace Pool

/-! ## Marks, slot by slot -/

variable {p q : Pool} {c : Connection} {a : PoolCall} {answer : PoolAnswer}

theorem id_ne_of_slot?_none (h : p.slot? c = none) {s : Slot} (hs : s ∈ p.slots) :
    s.connection.id ≠ c.id := by
  have := List.find?_eq_none.mp h s hs
  simpa using this

/-- The slots after a failure, whether its connection is of the present set or not. -/
theorem slots_markDead_eq (p : Pool) (c : Connection) :
    (p.markDead c).slots = p.change c (·.failed p.clock p.nextDeadOrder) := by
  cases h : p.slot? c with
  | none =>
    rw [markDead_none h, change]
    exact ((List.map_congr_left fun s hs => if_neg (id_ne_of_slot?_none h hs)).trans
      (List.map_id' _)).symm
  | some s => rw [markDead_some h]

/-- The slots after an answer, whether its connection is of the present set or not. -/
theorem slots_markLive_eq (p : Pool) (c : Connection) :
    (p.markLive c).slots = p.change c (·.recovered) := by
  cases h : p.slot? c with
  | none =>
    rw [markLive_none h, change]
    exact ((List.map_congr_left fun s hs => if_neg (id_ne_of_slot?_none h hs)).trans
      (List.map_id' _)).symm
  | some s => rw [markLive_some h]

@[simp] theorem markDead_cursor (p : Pool) (c : Connection) : (p.markDead c).cursor = p.cursor := by
  unfold markDead
  split <;> rfl

@[simp] theorem markLive_cursor (p : Pool) (c : Connection) : (p.markLive c).cursor = p.cursor := by
  unfold markLive
  split <;> rfl

@[simp] theorem markDead_nextId (p : Pool) (c : Connection) : (p.markDead c).nextId = p.nextId := by
  unfold markDead
  split <;> rfl

@[simp] theorem markLive_nextId (p : Pool) (c : Connection) : (p.markLive c).nextId = p.nextId := by
  unfold markLive
  split <;> rfl

/-! ## Numbers of connections -/

theorem Takes.nextId_eq (h : p.Takes c q) : q.nextId = p.nextId := by
  cases h <;> rfl

theorem Numbered.of_connections (h : p.Numbered) (hc : q.connections = p.connections)
    (hn : q.nextId = p.nextId) : q.Numbered where
  ids := by
    have := congrArg (List.map Connection.id) hc
    simp only [connections, List.map_map] at this
    show (q.slots.map (Connection.id ∘ (·.connection))).Nodup
    rw [this]
    exact h.ids
  below := fun t ht => by
    have hmem : t.connection ∈ p.connections := hc ▸ mem_connections.mpr ⟨t, ht, rfl⟩
    obtain ⟨s, hs, he⟩ := mem_connections.mp hmem
    rw [hn, ← he]
    exact h.below s hs

theorem Numbered.answers (h : p.Numbered) (ha : p.Answers a answer q) : q.Numbered := by
  cases ha with
  | configured urls credentials => exact ⟨freshSlots_ids, fun s hs => (mem_freshSlots hs).2.1⟩
  | taken ht => exact h.of_connections (takes_connections ht) ht.nextId_eq
  | markedDead c => exact h.of_connections (markDead_connections p c) (markDead_nextId p c)
  | markedLive c => exact h.of_connections (markLive_connections p c) (markLive_nextId p c)
  | empty | health | urls | size | liveCount => exact h

/-- Numbers are given out upwards. -/
theorem Answers.nextId_le (ha : p.Answers a answer q) : p.nextId ≤ q.nextId := by
  cases ha with
  | configured urls credentials => exact Nat.le_add_right _ _
  | taken ht => exact ht.nextId_eq.ge
  | markedDead c => exact (markDead_nextId p c).ge
  | markedLive c => exact (markLive_nextId p c).ge
  | empty | health | urls | size | liveCount => exact Nat.le_refl _

end Pool

/-- Whatever was asked of a pool, its connections have different numbers. -/
theorem Session.calls_numbered (collector : Option Collector) (as : List PoolCall) :
    (start.calls collector as).2.pool.Numbered := by
  induction as using List.reverseRecOn with
  | nil => exact ⟨List.nodup_nil, by simp [calls, start, Pool.empty]⟩
  | append_singleton as a ih =>
    rw [calls_concat]
    exact ih.answers (call_answers _ collector a)

end ClusterOutput
