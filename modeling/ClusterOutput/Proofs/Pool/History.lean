/-
The rule by which connections are handed out, told from the calls so far alone:
no cursor and no places in a queue, only what was configured, what failed or was
answered, and what was handed out before.

A pool remembers of its past what the rule needs (`Recalls`), so it hands out
what the rule says (`take_recalls`).
-/
import ClusterOutput.Proofs.Pool.Calls
import Mathlib.Data.List.Induction

namespace ClusterOutput

/-- Calls so far with their answers, the last one first. -/
abbrev Past := List (PoolCall × PoolAnswer)

/-- The call says of the connection that it failed. -/
def PoolCall.fails (c : Connection) : PoolCall → Bool
  | markDead d => c.id == d.id
  | _ => false

/-- The call neither configures connections nor says of one what became of it. -/
def PoolCall.isQuiet : PoolCall → Bool
  | setConnections _ _ | markDead _ | markLive _ => false
  | take | health _ | urls | size | liveCount => true

namespace Past

/-- How many connections were configured so far, in all sets: the number of the next one. -/
def configured : Past → Nat
  | [] => 0
  | (.setConnections urls _, _) :: past => configured past + urls.length
  | _ :: past => configured past

/-- The connections of the present set, in the order in which they were configured. -/
def current : Past → List Connection
  | [] => []
  | (.setConnections urls credentials, _) :: past =>
    (urls.zipIdx (configured past)).map fun (url, id) => ⟨id, Text.trimSlashes url, credentials⟩
  | _ :: past => current past

/-- How often the connection failed since it was configured and since it was last answered. -/
def failures (c : Connection) : Past → Nat
  | [] => 0
  | (.setConnections _ _, _) :: _ => 0
  | (.markDead d, _) :: past => if c.id = d.id then failures c past + 1 else failures c past
  | (.markLive d, _) :: past => if c.id = d.id then 0 else failures c past
  | _ :: past => failures c past

/-- The connection did not fail since. -/
def isLive (past : Past) (c : Connection) : Bool := failures c past == 0

/-- How many calls ago the connection failed last. -/
def sinceFailure (past : Past) (c : Connection) : Nat := past.findIdx fun d => d.1.fails c

/-- The connection of the present set that was last handed out as a live one. -/
def lastLive : Past → Option Connection
  | [] => none
  | (.setConnections _ _, _) :: _ => none
  | (.take, .connection (.ok c)) :: past => if isLive past c then some c else lastLive past
  | _ :: past => lastLive past

/-- How many connections come before the one at which a turn begins: none, or all up to that which
was last handed out as a live one. -/
def begun (past : Past) : Nat :=
  match lastLive past with
  | none => 0
  | some c => (current past).idxOf c + 1

/-- The connections in the order of the turn: from the first on, or from the one behind that which
was last handed out as a live one, and around. -/
def turn (past : Past) : List Connection := (current past).rotate (begun past)

variable {past : Past} {c d : Connection} {a : PoolCall} {answer : PoolAnswer}

theorem sinceFailure_cons :
    sinceFailure ((a, answer) :: past) c = if a.fails c then 0 else sinceFailure past c + 1 := by
  rw [sinceFailure, List.findIdx_cons, ← sinceFailure]
  cases a.fails c <;> rfl

/-- A failure of the connection itself is the last one, and one of another only passes time. -/
theorem sinceFailure_markDead :
    sinceFailure ((.markDead d, answer) :: past) c =
      if c.id = d.id then 0 else sinceFailure past c + 1 := by
  simp only [sinceFailure_cons, PoolCall.fails, beq_iff_eq]

theorem sinceFailure_markLive :
    sinceFailure ((.markLive d, answer) :: past) c = sinceFailure past c + 1 := sinceFailure_cons

theorem isLive_markDead :
    isLive ((.markDead d, answer) :: past) c = (!decide (c.id = d.id) && isLive past c) := by
  by_cases h : c.id = d.id
  · simp [isLive, failures, h]
  · simp [isLive, failures, h]

theorem isLive_markLive :
    isLive ((.markLive d, answer) :: past) c = (decide (c.id = d.id) || isLive past c) := by
  by_cases h : c.id = d.id
  · simp [isLive, failures, h]
  · simp [isLive, failures, h]

/-! ## Calls that say nothing of the connections -/

theorem current_quiet (ha : a.isQuiet = true) : current ((a, answer) :: past) = current past := by
  cases a <;> first | rfl | cases ha

theorem configured_quiet (ha : a.isQuiet = true) :
    configured ((a, answer) :: past) = configured past := by
  cases a <;> first | rfl | cases ha

theorem isLive_quiet (ha : a.isQuiet = true) : isLive ((a, answer) :: past) c = isLive past c := by
  cases a <;> first | rfl | cases ha

theorem sinceFailure_quiet (ha : a.isQuiet = true) :
    sinceFailure ((a, answer) :: past) c = sinceFailure past c + 1 := by
  rw [sinceFailure_cons]
  cases a <;> first | rfl | cases ha

end Past

namespace Pool

/-- The pool remembers of its past what the rule needs. -/
structure Recalls (past : Past) (p : Pool) : Prop where
  nextId : p.nextId = past.configured
  current : p.connections = past.current
  cursor : p.cursor = past.begun % past.current.length
  live : ∀ s ∈ p.slots, s.isLive = past.isLive s.connection
  queue : ∀ s ∈ p.slots, ∀ t ∈ p.slots, s.isLive = false → t.isLive = false →
    (s.deadOrder < t.deadOrder ↔ past.sinceFailure t.connection < past.sinceFailure s.connection)
  places : p.nextDeadOrder.toNat ≤ past.countP (·.1.isFailure)

variable {past : Past} {p q : Pool} {a : PoolCall} {answer : PoolAnswer} {c : Connection}

/-! ## Configuring and handing out -/

theorem freshSlots_connections (credentials : Option Credentials) (id : Nat) (urls : List String) :
    (freshSlots credentials id urls).map (·.connection) =
      (urls.zipIdx id).map fun (url, id) => ⟨id, Text.trimSlashes url, credentials⟩ := by
  induction urls generalizing id with
  | nil => rfl
  | cons url urls ih => simp only [freshSlots, List.map_cons, List.zipIdx_cons, ih]

theorem Recalls.configured (h : Recalls past p) (urls : List String)
    (credentials : Option Credentials) (answer : PoolAnswer) :
    Recalls ((.setConnections urls credentials, answer) :: past)
      (p.setConnections urls credentials) where
  nextId := congrArg (· + urls.length) h.nextId
  current := by
    simp only [connections, setConnections, freshSlots_connections, h.nextId, Past.current]
  cursor := (Nat.zero_mod _).symm
  live := fun s hs => by simp [Slot.isLive, (mem_freshSlots hs).2.2.1, Health.sound, Past.isLive,
    Past.failures]
  queue := fun s hs _ _ hd => by simp [Slot.isLive, (mem_freshSlots hs).2.2.1, Health.sound] at hd
  places := Nat.zero_le _

/-! ## Calls that change no slot -/

/-- A call that changes no slot, whatever it does to the cursor. -/
theorem Recalls.quiet (h : Recalls past p) (ha : a.isQuiet = true) (hslots : q.slots = p.slots)
    (hid : q.nextId = p.nextId) (hnext : q.nextDeadOrder = p.nextDeadOrder)
    (hcursor : q.cursor = Past.begun ((a, answer) :: past) % past.current.length) :
    Recalls ((a, answer) :: past) q where
  nextId := by rw [hid, h.nextId, Past.configured_quiet ha]
  current := by rw [connections, hslots, ← connections, h.current, Past.current_quiet ha]
  cursor := by rw [hcursor, Past.current_quiet ha]
  live := fun s hs => by
    rw [Past.isLive_quiet ha]
    exact h.live s (hslots ▸ hs)
  queue := fun s hs t ht hds hdt => by
    rw [hslots] at hs ht
    rw [h.queue s hs t ht hds hdt, Past.sinceFailure_quiet ha, Past.sinceFailure_quiet ha]
    omega
  places := by
    rw [hnext]
    exact h.places.trans (List.sublist_cons_self _ _).countP_le

theorem Recalls.taken (h : Recalls past p) (hwf : p.WellFormed) (ht : p.Takes c q) :
    Recalls ((.take, .connection (.ok c)) :: past) q := by
  have hslots := takes_slots ht
  refine h.quiet rfl hslots.1 ht.nextId_eq hslots.2 ?_
  cases ht with
  | @live l m s hturn hl hs =>
    have hmem : s ∈ p.slots := mem_inTurn.mp (hturn ▸ by simp)
    have hlive : past.isLive s.connection = true := h.live s hmem ▸ hs
    have hlen : p.connections.length = p.slots.length := List.length_map _
    have hlt : l.length < p.slots.length := by
      rw [← List.length_rotate p.slots p.cursor, ← inTurn, hturn]
      simp
    -- the place of the one that was handed out, by the turn and by its name
    have hplace : p.slots[(p.cursor + l.length) % p.slots.length]? = some s := by
      rw [inTurn_getElem? p hlt, hturn]
      simp
    obtain ⟨hi, hget⟩ := List.getElem?_eq_some_iff.mp hplace
    have hidx : past.current.idxOf s.connection = (p.cursor + l.length) % p.slots.length := by
      have hj : (p.cursor + l.length) % p.slots.length < p.connections.length := hlen ▸ hi
      have hconn : p.connections[(p.cursor + l.length) % p.slots.length] = s.connection := by
        simp [connections, hget]
      rw [← h.current, ← hconn]
      exact hwf.connections_nodup.idxOf_getElem _ hj
    have hbegun : Past.begun ((.take, .connection (.ok s.connection)) :: past) =
        (p.cursor + l.length) % p.slots.length + 1 := by
      simp only [Past.begun, Past.lastLive, hlive, if_true, Past.current, hidx]
    rw [hbegun, ← h.current, hlen, Nat.mod_add_mod]
  | @oldest s hall hs hle =>
    have hdead : past.isLive s.connection = false := h.live s hs ▸ hall s hs
    rw [h.cursor]
    simp only [Past.begun, Past.lastLive, hdead, Bool.false_eq_true, if_false, Past.current]

/-! ## Marks -/

theorem Recalls.markedDead (h : Recalls past p) (hwf : p.WellFormed)
    (hroom : p.nextDeadOrder.toNat + 1 < UInt64.size) (c : Connection) (answer : PoolAnswer) :
    Recalls ((.markDead c, answer) :: past) (p.markDead c) where
  nextId := (markDead_nextId p c).trans h.nextId
  current := (markDead_connections p c).trans h.current
  cursor := (markDead_cursor p c).trans h.cursor
  live := fun t ht => by
    rw [slots_markDead_eq] at ht
    obtain ⟨s, hs, rfl⟩ := mem_change.mp ht
    by_cases he : s.connection.id = c.id
    · simp [he, Past.isLive_markDead]
    · simpa [he, Past.isLive_markDead] using h.live s hs
  queue := fun s' hs' t' ht' hds hdt => by
    rw [slots_markDead_eq] at hs' ht'
    obtain ⟨s, hs, rfl⟩ := mem_change.mp hs'
    obtain ⟨t, ht, rfl⟩ := mem_change.mp ht'
    by_cases hsc : s.connection.id = c.id <;> by_cases htc : t.connection.id = c.id
    · -- both are the one that failed
      obtain rfl := hwf.slot_eq hs ht (hsc.trans htc.symm)
      simp [hsc]
    · -- the one that failed stands behind the other, whose failure is longer ago
      rw [if_neg htc] at hdt
      have hlt := (hwf.standing t ht).place hdt
      simp [hsc, htc, Past.sinceFailure_markDead, Slot.failed, UInt64.le_of_lt hlt]
    · rw [if_neg hsc] at hds
      have hlt := (hwf.standing s hs).place hds
      simp [hsc, htc, Past.sinceFailure_markDead, Slot.failed, hlt]
    · rw [if_neg hsc] at hds
      rw [if_neg htc] at hdt
      simp [hsc, htc, Past.sinceFailure_markDead, h.queue s hs t ht hds hdt]
  places := by
    refine (markDead_nextDeadOrder hroom c).2.trans ?_
    rw [List.countP_cons_of_pos rfl]
    exact Nat.succ_le_succ h.places

theorem Recalls.markedLive (h : Recalls past p) (c : Connection) (answer : PoolAnswer) :
    Recalls ((.markLive c, answer) :: past) (p.markLive c) where
  nextId := (markLive_nextId p c).trans h.nextId
  current := (markLive_connections p c).trans h.current
  cursor := (markLive_cursor p c).trans h.cursor
  live := fun t ht => by
    rw [slots_markLive_eq] at ht
    obtain ⟨s, hs, rfl⟩ := mem_change.mp ht
    by_cases he : s.connection.id = c.id
    · have hid : s.recovered.connection.id = c.id := he
      simp [he, hid, Past.isLive_markLive]
    · simpa [he, Past.isLive_markLive] using h.live s hs
  queue := fun s' hs' t' ht' hds hdt => by
    rw [slots_markLive_eq] at hs' ht'
    obtain ⟨s, hs, rfl⟩ := mem_change.mp hs'
    obtain ⟨t, ht, rfl⟩ := mem_change.mp ht'
    -- one that is dead is none that was answered
    split at hds
    next => simp at hds
    next hsc =>
      split at hdt
      next => simp at hdt
      next htc => simp [hsc, htc, Past.sinceFailure_markLive, h.queue s hs t ht hds hdt]
  places := by
    rw [markLive_nextDeadOrder]
    exact h.places.trans (List.sublist_cons_self _ _).countP_le

/-! ## Any calls -/

/-- The pool after a call is well formed and remembers the call, if there was room for it. -/
theorem Recalls.answers (h : Recalls past p) (hwf : p.WellFormed) (ha : p.Answers a answer q)
    (hroom : ((a, answer) :: past).countP (·.1.isFailure) < UInt64.size) :
    q.WellFormed ∧ Recalls ((a, answer) :: past) q := by
  have same : ∀ {a answer}, a.isQuiet = true →
      Past.begun ((a, answer) :: past) = past.begun → Recalls ((a, answer) :: past) p :=
    fun ha hb => h.quiet ha rfl rfl rfl (hb ▸ h.cursor)
  cases ha with
  | configured urls credentials =>
    exact ⟨wellFormed_setConnections p urls credentials, h.configured urls credentials _⟩
  | taken ht => exact ⟨hwf.takes ht, h.taken hwf ht⟩
  | empty => exact ⟨hwf, same rfl rfl⟩
  | markedDead c =>
    have hnext : p.nextDeadOrder.toNat + 1 < UInt64.size := by
      rw [List.countP_cons_of_pos rfl] at hroom
      have := h.places
      omega
    exact ⟨hwf.markDead (markDead_nextDeadOrder hnext c).1, h.markedDead hwf hnext c _⟩
  | markedLive c => exact ⟨hwf.markLive c, h.markedLive c _⟩
  | health | urls | size | liveCount => exact ⟨hwf, same rfl rfl⟩

end Pool

namespace Session

/-- The calls of a new session and their answers, the last one first. -/
def past (collector : Option Collector) (as : List PoolCall) : Past :=
  (start.calls collector as).1.reverse

theorem past_concat (collector : Option Collector) (as : List PoolCall) (a : PoolCall) :
    past collector (as ++ [a]) =
      (a, ((start.calls collector as).2.call collector a).1) :: past collector as := by
  simp [past, calls_concat]

theorem past_countP (collector : Option Collector) (as : List PoolCall) :
    (past collector as).countP (·.1.isFailure) = as.countP (·.isFailure) := by
  rw [past, List.countP_reverse]
  conv_rhs => rw [← calls_fst start collector as, List.countP_map]
  rfl

theorem calls_recalls (collector : Option Collector) (as : List PoolCall)
    (hfew : as.countP (·.isFailure) < UInt64.size) :
    (start.calls collector as).2.pool.WellFormed ∧
      Pool.Recalls (past collector as) (start.calls collector as).2.pool := by
  induction as using List.reverseRecOn with
  | nil =>
    refine ⟨Pool.wellFormed_empty, rfl, rfl, rfl, ?_, ?_, Nat.zero_le _⟩ <;>
      simp [calls, start, Pool.empty]
  | append_singleton as a ih =>
    have hroom := hfew
    rw [← past_countP collector, past_concat] at hroom
    rw [List.countP_append] at hfew
    obtain ⟨hwf, hrecalls⟩ := ih (by omega)
    rw [past_concat, calls_concat]
    exact hrecalls.answers hwf (call_answers _ collector a) hroom

end Session

namespace Pool

/-- What is handed out, by the rule. -/
theorem Recalls.takes {past : Past} {p q : Pool} {c : Connection} (h : Recalls past p)
    (hwf : p.WellFormed) (ht : p.Takes c q) :
    (∃ l m, past.turn = l ++ c :: m ∧ (∀ d ∈ l, past.isLive d = false) ∧ past.isLive c = true) ∨
      (∀ d ∈ past.current, past.isLive d = false) ∧ c ∈ past.current ∧
        (∀ d ∈ past.current, d ≠ c → past.sinceFailure d < past.sinceFailure c) ∧ q = p := by
  cases ht with
  | @live l m s hturn hl hs =>
    have hslots : ∀ t ∈ p.inTurn, t.isLive = past.isLive t.connection :=
      fun t ht => h.live t (mem_inTurn.mp ht)
    refine .inl ⟨l.map (·.connection), m.map (·.connection), ?_, ?_, ?_⟩
    · rw [Past.turn, ← List.rotate_mod, ← h.cursor, ← h.current, connections, ← List.map_rotate,
        ← inTurn, hturn, List.map_append, List.map_cons]
    · simp only [List.mem_map]
      rintro _ ⟨t, ht, rfl⟩
      exact hslots t (hturn ▸ by simp [ht]) ▸ hl t ht
    · exact hslots s (hturn ▸ by simp) ▸ hs
  | @oldest s hall hs hle =>
    refine .inr ⟨fun d hd => ?_, h.current ▸ mem_connections.mpr ⟨s, hs, rfl⟩, fun d hd hne => ?_, rfl⟩
    · obtain ⟨t, ht, rfl⟩ := mem_connections.mp (h.current ▸ hd)
      exact h.live t ht ▸ hall t ht
    · obtain ⟨t, ht, rfl⟩ := mem_connections.mp (h.current ▸ hd)
      rw [← h.queue s hs t ht (hall s hs) (hall t ht)]
      have hst : s ≠ t := fun he => hne (congrArg _ he.symm)
      exact UInt64.lt_of_le_of_ne (hle t ht) (hwf.place_ne hs ht hst (hall s hs) (hall t ht))

end Pool

/-- **Selection meets its history**: after any calls, on connections of whatever sets, the pool fails
to hand out a connection exactly where the present set is empty. Where some connection is live, it
hands out the first live one in the order of the turn. Where none is, it hands out the one whose last
failure is the longest ago, and the turn stays where it was. -/
theorem Session.take_recalls (collector : Option Collector) (before : List PoolCall)
    (hfew : before.countP (·.isFailure) < UInt64.size) :
    let s := (start.calls collector before).2
    let past := past collector before
    let after := (s.call collector .take).2
    ∃ r, (s.call collector .take).1 = .connection r ∧
      ((∃ e, r = .error e) ↔ past.current = []) ∧ (∀ e, r = .error e → e = .noConnections) ∧
      ((∃ c ∈ past.current, past.isLive c = true) → ∃ l c m, r = .ok c ∧ past.turn = l ++ c :: m ∧
        (∀ d ∈ l, past.isLive d = false) ∧ past.isLive c = true) ∧
      (past.current ≠ [] → (∀ c ∈ past.current, past.isLive c = false) →
        ∃ c ∈ past.current, r = .ok c ∧
          (∀ d ∈ past.current, d ≠ c → past.sinceFailure d < past.sinceFailure c) ∧
          after.pool.cursor = s.pool.cursor) := by
  intro s past after
  obtain ⟨hwf, hrecalls⟩ : s.pool.WellFormed ∧ Pool.Recalls past s.pool :=
    calls_recalls collector before hfew
  have hanswers : s.pool.Answers .take (s.call collector .take).1 after.pool :=
    call_answers s collector .take
  generalize (s.call collector .take).1 = answer at hanswers ⊢
  generalize after.pool = q at hanswers ⊢
  cases hanswers with
  | empty hempty =>
    have hnil : past.current = [] := by rw [← hrecalls.current, Pool.connections, hempty]; rfl
    exact ⟨_, rfl, by simp [hnil], by simp, by simp [hnil], fun hne => absurd hnil hne⟩
  | @taken c q ht =>
    have hmem : c ∈ past.current := hrecalls.current ▸ Pool.takes_mem ht
    refine ⟨_, rfl, by simp [List.ne_nil_of_mem hmem], by simp, ?_, ?_⟩
    · rintro ⟨d, hd, hlive⟩
      rcases hrecalls.takes hwf ht with ⟨l, m, hturn⟩ | ⟨hall, -⟩
      · exact ⟨l, c, m, rfl, hturn⟩
      · simp [hall d hd] at hlive
    · rintro - hall
      rcases hrecalls.takes hwf ht with ⟨l, m, -, -, hlive⟩ | ⟨-, -, hlongest, rfl⟩
      · simp [hall c hmem] at hlive
      · exact ⟨c, hmem, rfl, hlongest, rfl⟩

/-- Of two connections of one URL the first failed before the second, and again after it: the second
is tried next. -/
theorem Session.take_recalls_twins :
    let twin (id : Nat) : Connection := ⟨id, "http://a", none⟩
    let before : List PoolCall := [.setConnections ["http://a", "http://a/"] none, .take,
      .markDead (twin 0), .markDead (twin 1), .markDead (twin 0)]
    before.countP (·.isFailure) < UInt64.size ∧
      (past none before).current = [twin 0, twin 1] ∧
      (∀ c ∈ (past none before).current, (past none before).isLive c = false) ∧
      ((start.calls none before).2.call none .take).1 = .connection (.ok (twin 1)) := by
  intro twin before
  have hfew : before.countP (·.isFailure) < UInt64.size := by decide
  have hcurrent : (past none before).current = [twin 0, twin 1] := by decide +kernel
  have hdead : ∀ c ∈ (past none before).current, (past none before).isLive c = false := by
    decide +kernel
  obtain ⟨r, hr, -, -, -, holdest⟩ := take_recalls none before hfew
  obtain ⟨c, hc, rfl, hlongest, -⟩ := holdest (by simp [hcurrent]) hdead
  refine ⟨hfew, hcurrent, hdead, ?_⟩
  have hlonger : (past none before).sinceFailure (twin 0) ≤ (past none before).sinceFailure (twin 1) := by
    decide +kernel
  rw [hcurrent] at hc hlongest
  rcases List.mem_pair.mp hc with rfl | rfl
  · have := hlongest (twin 1) (by simp) (by simp [twin])
    omega
  · exact hr

end ClusterOutput
