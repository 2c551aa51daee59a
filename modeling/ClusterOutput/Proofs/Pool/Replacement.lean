/-
A replacement of the connections parts two times of a pool. What is done to the
new set is done as if there had been no other before it: the numbers of the
connections and the instants start later (`Pool.shift`), and every call commutes
with that (`Mirrors.same_call`). What is still said of connections of an earlier set
finds no slot (`Mirrors.stale_call`), even where the URLs are the same.
-/
import ClusterOutput.Proofs.Pool.Calls

namespace ClusterOutput

/-! ## The same, with later numbers and instants -/

/-- The connection, numbered on from `n`. -/
def Connection.renumber (n : Nat) (c : Connection) : Connection := { c with id := n + c.id }

/-- The connection, if numbers started at `n`. -/
def Connection.countFrom (n : Nat) (c : Connection) : Connection := { c with id := c.id - n }

def Health.later (k : Nat) (h : Health) : Health := { h with deadSince := h.deadSince.map (k + ·) }

def Slot.shift (n k : Nat) (s : Slot) : Slot where
  connection := s.connection.renumber n
  health := s.health.later k
  deadOrder := s.deadOrder

def Pool.shift (n k : Nat) (p : Pool) : Pool where
  slots := p.slots.map (·.shift n k)
  cursor := p.cursor
  nextDeadOrder := p.nextDeadOrder
  nextId := n + p.nextId
  clock := k + p.clock

def Pool.Choice.shift (n k : Nat) : Pool.Choice → Pool.Choice
  | live place slot => .live place (slot.shift n k)
  | oldestDead slot => .oldestDead (slot.shift n k)

namespace PoolCall

/-- The connection that the call is about. -/
def subject? : PoolCall → Option Connection
  | markDead c | markLive c | health c => some c
  | setConnections _ _ | take | urls | size | liveCount => none

/-- The call is about a connection that was numbered before `n`. -/
def isStale (n : Nat) (a : PoolCall) : Bool := a.subject?.any (·.id < n)

/-- The call, with another connection. -/
def onSubject (f : Connection → Connection) : PoolCall → PoolCall
  | markDead c => .markDead (f c)
  | markLive c => .markLive (f c)
  | health c => .health (f c)
  | a => a

end PoolCall

/-- The calls that are not about connections numbered before `n`, if numbers started at `n`. -/
def PoolCall.countFrom (n : Nat) (as : List PoolCall) : List PoolCall :=
  (as.filter fun a => !a.isStale n).map (·.onSubject (·.countFrom n))

def PoolAnswer.shift (n k : Nat) : PoolAnswer → PoolAnswer
  | connection r => .connection (r.map (·.renumber n))
  | health h => .health (h.map (·.later k))
  | a => a

variable {n k : Nat} {c : Connection} {a : PoolCall}

theorem Connection.renumber_countFrom (h : n ≤ c.id) : (c.countFrom n).renumber n = c := by
  simp only [countFrom, renumber, Nat.add_sub_cancel' h]

theorem PoolCall.renumber_countFrom (h : a.isStale n = false) :
    (a.onSubject (·.countFrom n)).onSubject (·.renumber n) = a := by
  cases a with
  | markDead c | markLive c | health c =>
    simp only [isStale, subject?, Option.any_some, decide_eq_false_iff_not, Nat.not_lt] at h
    simp only [onSubject, Connection.renumber_countFrom h]
  | setConnections | take | urls | size | liveCount => rfl

@[simp] theorem Slot.shift_isLive (s : Slot) : (s.shift n k).isLive = s.isLive := rfl
@[simp] theorem Slot.shift_connection (s : Slot) :
    (s.shift n k).connection = s.connection.renumber n := rfl

theorem Slot.shift_failed (s : Slot) (now : Nat) (place : UInt64) :
    (s.shift n k).failed (k + now) place = (s.failed now place).shift n k := by
  simp only [failed, shift, Health.later, Health.failed]
  cases s.health.status <;> rfl

theorem Slot.shift_recovered (s : Slot) : (s.shift n k).recovered = s.recovered.shift n k := rfl

namespace Pool

/-! ## Every operation commutes with the shift -/

theorem slot?_shift (p : Pool) (c : Connection) :
    (p.shift n k).slot? (c.renumber n) = (p.slot? c).map (·.shift n k) := by
  rw [slot?, shift, List.find?_map, slot?]
  congr 1
  refine List.find?_congr fun s _ => ?_
  simp [Connection.renumber]

/-- A connection with a number before the shift has no slot. -/
theorem slot?_shift_of_lt (p : Pool) (h : c.id < n) : (p.shift n k).slot? c = none := by
  simp only [slot?, shift, List.find?_eq_none, List.mem_map, forall_exists_index, and_imp,
    forall_apply_eq_imp_iff₂]
  intro s _
  simp only [Slot.shift_connection, Connection.renumber, beq_iff_eq]
  omega

theorem change_shift (p : Pool) (c : Connection) {f g : Slot → Slot}
    (h : ∀ s : Slot, g (s.shift n k) = (f s).shift n k) :
    (p.shift n k).change (c.renumber n) g = (p.change c f).map (·.shift n k) := by
  simp only [change, shift, List.map_map]
  refine List.map_congr_left fun s _ => ?_
  simp only [Function.comp_apply, Slot.shift_connection, Connection.renumber, Nat.add_left_cancel_iff]
  split
  · exact h s
  · rfl

theorem markDead_shift (p : Pool) (c : Connection) :
    (p.shift n k).markDead (c.renumber n) = (p.markDead c).shift n k := by
  cases h : p.slot? c with
  | none => rw [markDead_none h, markDead_none (by rw [slot?_shift, h, Option.map_none])]
  | some s =>
    have hs : (p.shift n k).slot? (c.renumber n) = some (s.shift n k) := by
      rw [slot?_shift, h, Option.map_some]
    rw [markDead_some h, markDead_some hs]
    simp only [shift, Pool.mk.injEq]
    refine ⟨change_shift p c fun s => s.shift_failed _ _, trivial, trivial, trivial, ?_⟩
    rw [Slot.shift_isLive]
    split <;> rfl

theorem markLive_shift (p : Pool) (c : Connection) :
    (p.shift n k).markLive (c.renumber n) = (p.markLive c).shift n k := by
  cases h : p.slot? c with
  | none => rw [markLive_none h, markLive_none (by rw [slot?_shift, h, Option.map_none])]
  | some s =>
    have hs : (p.shift n k).slot? (c.renumber n) = some (s.shift n k) := by
      rw [slot?_shift, h, Option.map_some]
    rw [markLive_some h, markLive_some hs]
    simp only [shift, Pool.mk.injEq, and_true]
    exact change_shift p c fun s => s.shift_recovered

theorem nextLive?_shift (p : Pool) : (p.shift n k).nextLive? = p.nextLive? := by
  simp only [nextLive?, turn, shift, List.length_map]
  refine List.find?_congr fun i _ => ?_
  rw [List.getElem?_map]
  cases p.slots[i]? <;> rfl

theorem oldest?_map {f : Slot → Slot} (h : ∀ s : Slot, (f s).deadOrder = s.deadOrder)
    (l : List Slot) : oldest? (l.map f) = (oldest? l).map f := by
  induction l with
  | nil => rfl
  | cons s l ih =>
    simp only [List.map_cons, oldest?, ih]
    cases oldest? l with
    | none => rfl
    | some t =>
      simp only [Option.map_some, h]
      split <;> rfl

theorem choice?_shift (p : Pool) : (p.shift n k).choice? = p.choice?.map (·.shift n k) := by
  simp only [choice?, nextLive?_shift]
  cases p.nextLive? with
  | some i =>
    simp only [shift, List.getElem?_map, Option.map_map]
    rfl
  | none =>
    simp only [shift, oldest?_map (f := (·.shift n k)) fun _ => rfl, Option.map_map]
    rfl

theorem after_shift (p : Pool) (choice : Choice) :
    (p.shift n k).after (choice.shift n k) = (p.after choice).shift n k := by
  cases choice <;> simp [after, shift, Choice.shift]

theorem freshSlots_shift (credentials : Option Credentials) (id : Nat) (urls : List String) :
    freshSlots credentials (n + id) urls =
      (freshSlots credentials id urls).map (·.shift n k) := by
  induction urls generalizing id with
  | nil => rfl
  | cons url urls ih =>
    rw [freshSlots, freshSlots, List.map_cons, Nat.add_assoc, ih]
    rfl

theorem setConnections_shift (p : Pool) (urls : List String) (credentials : Option Credentials) :
    (p.shift n k).setConnections urls credentials =
      (p.setConnections urls credentials).shift n k := by
  simp only [setConnections, shift, freshSlots_shift (k := k), Nat.add_assoc]

/-- A new set in a pool is a set in a pool that had none, with later numbers and instants. -/
theorem setConnections_eq_shift (p : Pool) (urls : List String)
    (credentials : Option Credentials) :
    p.setConnections urls credentials =
      (Pool.empty.setConnections urls credentials).shift p.nextId p.clock := by
  rw [← setConnections_shift]
  rfl

theorem health?_shift (p : Pool) (c : Connection) :
    (p.shift n k).health? (c.renumber n) = (p.health? c).map (·.later k) := by
  simp only [health?, slot?_shift, Option.map_map]
  rfl

theorem status?_shift (p : Pool) (c : Connection) :
    (p.shift n k).status? (c.renumber n) = p.status? c := by
  simp only [status?, health?_shift, Option.map_map]
  rfl

theorem urls_shift (p : Pool) : (p.shift n k).urls = p.urls := by
  simp only [urls, shift, List.map_map]
  rfl

theorem size_shift (p : Pool) : (p.shift n k).size = p.size := List.length_map _

theorem liveCount_shift (p : Pool) : (p.shift n k).liveCount = p.liveCount := List.countP_map

end Pool

namespace Session

variable {s t : Session} {base : List Sample} {collector : Option Collector}

/-! ## Two runs side by side -/

/-- The pool of the first session is that of the second with later numbers and instants, and the
first measured what the second did, after what was measured before. -/
structure Mirrors (n k : Nat) (base : List Sample) (s t : Session) : Prop where
  pool : s.pool = t.pool.shift n k
  samples : s.journal.samples = base ++ t.journal.samples

/-- A call on the second session has the same answer on the first, up to numbers and instants. -/
theorem Mirrors.same_call (h : Mirrors n k base s t) (collector : Option Collector) (a : PoolCall) :
    (s.call collector (a.onSubject (·.renumber n))).1 = (t.call collector a).1.shift n k ∧
      Mirrors n k base (s.call collector (a.onSubject (·.renumber n))).2 (t.call collector a).2 := by
  cases a with
  | setConnections urls credentials =>
    refine ⟨rfl, ?_, h.samples⟩
    simp only [PoolCall.onSubject, call, setConnections_pool, h.pool, Pool.setConnections_shift]
  | take =>
    have hchoice : s.pool.choice? = t.pool.choice?.map (·.shift n k) := by
      rw [h.pool, Pool.choice?_shift]
    simp only [PoolCall.onSubject, call, take?, hchoice]
    cases t.pool.choice? with
    | none => exact ⟨rfl, h⟩
    | some choice =>
      have hafter : s.pool.after (choice.shift n k) = (t.pool.after choice).shift n k := by
        rw [h.pool, Pool.after_shift]
      exact ⟨by cases choice <;> rfl, hafter, h.samples⟩
  | markDead c =>
    refine ⟨rfl, ?_, ?_⟩
    · simp only [PoolCall.onSubject, call, markDead_pool, h.pool, Pool.markDead_shift]
    · simp only [PoolCall.onSubject, call, markDead_samples, h.pool, h.samples, Pool.status?_shift,
        List.append_assoc]
  | markLive c =>
    refine ⟨rfl, ?_, ?_⟩
    · simp only [PoolCall.onSubject, call, markLive_pool, h.pool, Pool.markLive_shift]
    · simp only [PoolCall.onSubject, call, markLive_samples, h.pool, h.samples, Pool.status?_shift,
        List.append_assoc]
  | health c => exact ⟨by simp only [PoolCall.onSubject, call, h.pool, Pool.health?_shift]; rfl, h⟩
  | urls => exact ⟨by simp only [PoolCall.onSubject, call, h.pool, Pool.urls_shift]; rfl, h⟩
  | size => exact ⟨by simp only [PoolCall.onSubject, call, h.pool, Pool.size_shift]; rfl, h⟩
  | liveCount =>
    exact ⟨by simp only [PoolCall.onSubject, call, h.pool, Pool.liveCount_shift]; rfl, h⟩

/-- A call about a connection that has no slot is not heard. -/
theorem call_unheard (ha : a.subject? = some c) (hslot : s.pool.slot? c = none)
    (collector : Option Collector) :
    (s.call collector a).2.pool = s.pool ∧
      (s.call collector a).2.journal.samples = s.journal.samples ∧
      ∀ d, a = .health d → (s.call collector a).1 = .health none := by
  have hhealth : s.pool.health? c = none := by rw [Pool.health?, hslot, Option.map_none]
  have hstatus : s.pool.status? c = none := by rw [Pool.status?, hhealth, Option.map_none]
  cases a with
  | markDead d =>
    cases ha
    refine ⟨(s.markDead_pool collector c).trans (Pool.markDead_none hslot), ?_, by simp⟩
    rw [call, markDead_samples, hstatus, if_neg (by simp), List.append_nil]
  | markLive d =>
    cases ha
    refine ⟨(s.markLive_pool collector c).trans (Pool.markLive_none hslot), ?_, by simp⟩
    rw [call, markLive_samples, hstatus, if_neg (by simp), List.append_nil]
  | health d =>
    cases ha
    exact ⟨rfl, rfl, fun _ _ => by rw [call, hhealth]⟩
  | setConnections | take | urls | size | liveCount => cases ha

theorem Mirrors.stale_call (h : Mirrors n k base s t) (collector : Option Collector)
    (ha : a.isStale n = true) :
    Mirrors n k base (s.call collector a).2 t ∧
      ∀ c, a = .health c → (s.call collector a).1 = .health none := by
  obtain ⟨c, hc, hlt⟩ : ∃ c, a.subject? = some c ∧ c.id < n := by
    simpa [PoolCall.isStale, Option.any_eq_true] using ha
  have hslot : s.pool.slot? c = none := by rw [h.pool, Pool.slot?_shift_of_lt t.pool hlt]
  obtain ⟨hpool, hsamples, hhealth⟩ := call_unheard hc hslot collector
  exact ⟨⟨hpool.trans h.pool, hsamples.trans h.samples⟩, hhealth⟩

/-- Calls on the first session, and those on the second that are not about connections numbered
before the shift: the same answers. -/
theorem Mirrors.run (h : Mirrors n k base s t) (collector : Option Collector)
    (as : List PoolCall) :
    let first := s.calls collector as
    let second := t.calls collector (PoolCall.countFrom n as)
    Mirrors n k base first.2 second.2 ∧
      (first.1.filter fun r => !r.1.isStale n) =
        second.1.map (fun r => (r.1.onSubject (·.renumber n), r.2.shift n k)) ∧
      ∀ c answer, (.health c, answer) ∈ first.1 → c.id < n → answer = .health none := by
  induction as generalizing s t with
  | nil => exact ⟨h, rfl, by simp [calls]⟩
  | cons a as ih =>
    cases ha : a.isStale n with
    | true =>
      obtain ⟨h', hhealth⟩ := h.stale_call collector ha
      obtain ⟨hmirrors, hanswers, hstale⟩ := ih h'
      have hfresh : PoolCall.countFrom n (a :: as) = PoolCall.countFrom n as := by
        simp [PoolCall.countFrom, ha]
      rw [hfresh]
      refine ⟨hmirrors, ?_, fun c answer hmem hc => ?_⟩
      · rw [calls_cons, List.filter_cons_of_neg (by simp [ha])]
        exact hanswers
      · rcases List.mem_cons.mp hmem with he | hmem
        · obtain ⟨hcall, rfl⟩ := Prod.mk.inj he
          exact hhealth c hcall.symm
        · exact hstale c answer hmem hc
    | false =>
      obtain ⟨hanswer, h'⟩ := h.same_call collector (a.onSubject (·.countFrom n))
      rw [PoolCall.renumber_countFrom ha] at hanswer h'
      obtain ⟨hmirrors, hanswers, hstale⟩ := ih h'
      have hfresh : PoolCall.countFrom n (a :: as) =
          a.onSubject (·.countFrom n) :: PoolCall.countFrom n as := by
        simp [PoolCall.countFrom, ha]
      rw [hfresh]
      refine ⟨hmirrors, ?_, fun c answer hmem hc => ?_⟩
      · rw [calls_cons, List.filter_cons_of_pos (by simp [ha]), hanswers, calls_cons, List.map_cons,
          PoolCall.renumber_countFrom ha, hanswer]
      · rcases List.mem_cons.mp hmem with he | hmem
        · obtain ⟨hcall, rfl⟩ := Prod.mk.inj he
          rw [← hcall] at ha
          simp [PoolCall.isStale, PoolCall.subject?, hc] at ha
        · exact hstale c answer hmem hc

/-- Connections of all sets so far have numbers below the next one. -/
theorem calls_below (collector : Option Collector) (as : List PoolCall) :
    ∀ done, done <+: as → ∀ c ∈ (start.calls collector done).2.pool.connections,
      c.id < (start.calls collector as).2.pool.nextId := by
  induction as using List.reverseRecOn with
  | nil =>
    intro done hdone c hc
    rw [List.prefix_nil.mp hdone] at hc
    exact absurd hc List.not_mem_nil
  | append_singleton as a ih =>
    intro done hdone c hc
    rcases List.prefix_concat_iff.mp hdone with rfl | hdone
    · obtain ⟨s, hs, rfl⟩ := Pool.mem_connections.mp hc
      exact (calls_numbered collector _).below s hs
    · rw [calls_concat]
      exact Nat.lt_of_lt_of_le (ih done hdone c hc) (call_answers _ collector a).nextId_le

/-- **A replaced set is forgotten**: whatever was done before, calls on a new set are answered as on
a new pool that has just that set, up to numbers and instants, and the same transitions are measured.
Calls on connections of earlier sets may come in between, and those have no health: no connection of
an earlier set is one of the new set, whatever their URLs are. -/
theorem replaced_set_forgotten (collector : Option Collector) (earlier : List PoolCall)
    (urls : List String) (credentials : Option Credentials) (later : List PoolCall) :
    let before := (start.calls collector earlier).2
    let n := before.pool.nextId
    let k := before.pool.clock
    let replaced := before.setConnections urls credentials
    let run := replaced.calls collector later
    let alone := (start.setConnections urls credentials).calls collector (PoolCall.countFrom n later)
    (run.1.filter fun r => !r.1.isStale n) =
        alone.1.map (fun r => (r.1.onSubject (·.renumber n), r.2.shift n k)) ∧
      run.2.pool = alone.2.pool.shift n k ∧
      run.2.journal.samples = before.journal.samples ++ alone.2.journal.samples ∧
      (∀ c answer, (.health c, answer) ∈ run.1 → c.id < n → answer = .health none) ∧
      (∀ done, done <+: earlier → ∀ c ∈ (start.calls collector done).2.pool.connections, c.id < n) ∧
      ∀ c ∈ replaced.pool.connections, n ≤ c.id := by
  intro before n k replaced run alone
  have hmirrors : Mirrors n k before.journal.samples replaced (start.setConnections urls credentials) :=
    ⟨Pool.setConnections_eq_shift before.pool urls credentials, (List.append_nil _).symm⟩
  obtain ⟨hafter, hanswers, hstale⟩ := hmirrors.run collector later
  refine ⟨hanswers, hafter.pool, hafter.samples, hstale, calls_below collector earlier, ?_⟩
  intro c hc
  obtain ⟨s, hs, rfl⟩ := Pool.mem_connections.mp hc
  exact (Pool.mem_freshSlots hs).1

/-- Failures that come late, of a connection of one URL with the new ones, take no place in the queue
from them: the one that failed first is tried next. -/
theorem replaced_set_forgotten_twins :
    let twin (id : Nat) : Connection := ⟨id, "http://a", none⟩
    let earlier : List PoolCall := [.setConnections ["http://a"] none, .take, .markDead (twin 0)]
    let later : List PoolCall := [.markDead (twin 0), .markDead (twin 2), .markDead (twin 0),
      .markDead (twin 1), .health (twin 0)]
    let before := (start.calls none earlier).2
    let run := (before.setConnections ["http://a", "http://a/"] none).calls none later
    (.health (twin 0), .health none) ∈ run.1 ∧
      (run.2.pool.take?.map fun r => r.1) = some (twin 2) := by
  intro twin earlier later before run
  obtain ⟨-, hpool, -, hstale, -⟩ :=
    replaced_set_forgotten none earlier ["http://a", "http://a/"] none later
  obtain ⟨answer, hasked⟩ : ∃ answer, (.health (twin 0), answer) ∈ run.1 := by
    have hmem : PoolCall.health (twin 0) ∈ run.1.map (·.1) := by
      rw [calls_fst]
      simp [later]
    simpa using hmem
  have hunknown : answer = .health none := hstale (twin 0) answer hasked (by decide +kernel)
  refine ⟨hunknown ▸ hasked, ?_⟩
  rw [hpool]
  decide +kernel

end Session

end ClusterOutput
