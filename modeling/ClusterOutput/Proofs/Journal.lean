/-
What the journal of a session tells. Between two moments of it, steps of the
pool were done and requests were handed to the transport (`Session.Did`): the
pool is what the steps make of it, and the exchanges are what the network
carried, in this order.
-/
import ClusterOutput.Proofs.Pool.Replay

namespace ClusterOutput

/-! ## Exchanges -/

/-- The exchange did not succeed: no answer, not the whole of it, or one with a status above
499. -/
def Http.Reply.fails : Http.Reply → Bool
  | .failed _ | .interrupted | .cut .. => true
  | .answered status _ body => decide (499 < status) || body.isNone

/-- The run was interrupted before the end of the exchange. -/
def Http.Reply.isOpen : Http.Reply → Bool
  | .interrupted | .cut .. => true
  | .failed _ | .answered .. => false

/-- What an exchange means to the request that made it. -/
def Exchange.outcome (x : Exchange) : Except RequestError Bytes :=
  match x.reply with
  | .failed failure => .error (.transport x.url.text failure)
  | .interrupted => .error (.transport x.url.text (.unsent x.request.url))
  | .answered status final body =>
    if 499 < status then
      .error (.serverError status x.url.text (Utf8.decodeLossy (body.getD [])))
    else
      match body with
      | some bytes => .ok bytes
      | none => .error (.transport x.url.text (.brokenBody final))
  | .cut status final =>
    if 499 < status then .error (.serverError status x.url.text (Utf8.decodeLossy []))
    else .error (.transport x.url.text (.brokenBody final))

/-- What the pool is told of an exchange. -/
def Exchange.mark (x : Exchange) : PoolStep :=
  if x.reply.fails then .markedDead x.connection else .markedLive x.connection

/-- Exchanges that a network carries one after another, given those with hosts so far. -/
def Http.Network.Carries (net : Http.Network) :
    (wire : List Http.Request) → List Exchange → (wire' : List Http.Request) → Prop
  | wire, [], wire' => wire' = wire
  | wire, x :: sent, wire' =>
    ∃ next, Http.send net wire x.request = (x.reply, next) ∧ net.Carries next sent wire'

theorem Exchange.outcome_ok {x : Exchange} {b : Bytes} (h : x.outcome = .ok b) :
    ∃ status final, x.reply = .answered status final (some b) ∧ status < 500 := by
  unfold Exchange.outcome at h
  split at h
  · cases h
  · cases h
  next status final body hr =>
    split at h
    · cases h
    next hs =>
      split at h
      · cases h; exact ⟨status, final, hr, by omega⟩
      · cases h
  · split at h <;> cases h

theorem Exchange.fails_of_error {x : Exchange} {e : RequestError} (h : x.outcome = .error e) :
    x.reply.fails = true ∧ e.isTransient = true := by
  unfold Exchange.outcome at h
  split at h
  next hr => cases h; simp [hr, Http.Reply.fails, RequestError.isTransient]
  next hr => cases h; simp [hr, Http.Reply.fails, RequestError.isTransient]
  next status final body hr =>
    split at h
    next hs => cases h; simp [hr, hs, Http.Reply.fails, RequestError.isTransient]
    next hs =>
      split at h
      · cases h
      · cases h; simp [hr, Http.Reply.fails, RequestError.isTransient]
  next hr => split at h <;> cases h <;> simp [hr, Http.Reply.fails, RequestError.isTransient]

/-- An answer whose body was not waited for means what one means whose body breaks off. -/
theorem Exchange.outcome_of_answer {x : Exchange} {status : Nat} {final : Url} {body : Option Bytes}
    (h : x.reply = .answered status final body ∨ x.reply = .cut status final ∧ body = none) :
    x.outcome =
      if 499 < status then
        .error (.serverError status x.url.text (Utf8.decodeLossy (body.getD [])))
      else
        body.elim (.error (.transport x.url.text (.brokenBody final))) .ok := by
  rcases h with h | ⟨h, rfl⟩
  · cases body <;> simp only [outcome, h, Option.elim]
  · simp only [outcome, h, Option.getD_none, Option.elim]

theorem Exchange.ne_cancelled {x : Exchange} {e : RequestError} (h : x.outcome = .error e) :
    e ≠ .cancelled := by
  rintro rfl
  exact absurd (fails_of_error h).2 (by decide)

theorem Exchange.answers_of_ok {x : Exchange} {b : Bytes} (h : x.outcome = .ok b) :
    x.reply.fails = false := by
  obtain ⟨status, final, hr, hs⟩ := outcome_ok h
  simp only [hr, Http.Reply.fails, Option.isNone_some, Bool.or_false, decide_eq_false_iff_not]
  omega

theorem Exchange.mark_of_error {x : Exchange} {e : RequestError} (h : x.outcome = .error e) :
    x.mark = .markedDead x.connection := if_pos (fails_of_error h).1

theorem Exchange.mark_of_ok {x : Exchange} {b : Bytes} (h : x.outcome = .ok b) :
    x.mark = .markedLive x.connection := by simp [mark, answers_of_ok h]

theorem Http.Network.Carries.append {net : Http.Network} {sent later : List Exchange} :
    ∀ {wire wire' wire'' : List Http.Request}, net.Carries wire sent wire' →
      net.Carries wire' later wire'' → net.Carries wire (sent ++ later) wire'' := by
  induction sent with
  | nil => intro _ _ _ h h'; cases h; exact h'
  | cons x sent ih =>
    rintro _ _ _ ⟨next, hx, h⟩ h'
    exact ⟨next, hx, ih h h'⟩

/-! ## What is done in a session -/

/-- What was done between two moments of a session: steps of the pool, and exchanges. -/
structure Session.Did (world : World) (s : Session) (steps : List PoolStep) (sent : List Exchange)
    (s' : Session) : Prop where
  pool : s.pool.replay steps = some s'.pool
  noted : s'.journal.steps = s.journal.steps ++ steps
  handed : s'.journal.sent = s.journal.sent ++ sent
  wire : world.network.Carries s.journal.wire sent s'.journal.wire
  token : s.isCancelled = true → s'.isCancelled = true

namespace Session

/-- The exchanges since an earlier moment of the session. -/
def sentSince (s earlier : Session) : List Exchange :=
  s.journal.sent.drop earlier.journal.sent.length

/-- The steps of the pool since an earlier moment of the session. -/
def stepsSince (s earlier : Session) : List PoolStep :=
  s.journal.steps.drop earlier.journal.steps.length

variable {world : World} {s s₁ s₂ : Session} {steps later : List PoolStep}
  {sent sent' : List Exchange}

theorem Did.refl (world : World) (s : Session) : s.Did world [] [] s :=
  ⟨rfl, by simp, by simp, rfl, id⟩

theorem Did.trans (h₁ : s.Did world steps sent s₁) (h₂ : s₁.Did world later sent' s₂) :
    s.Did world (steps ++ later) (sent ++ sent') s₂ where
  pool := Pool.replay_append.mpr ⟨_, h₁.pool, h₂.pool⟩
  noted := by rw [h₂.noted, h₁.noted, List.append_assoc]
  handed := by rw [h₂.handed, h₁.handed, List.append_assoc]
  wire := h₁.wire.append h₂.wire
  token := h₂.token ∘ h₁.token

/-- Nothing was done before. -/
theorem Did.after (h₁ : s.Did world [] [] s₁) (h₂ : s₁.Did world steps sent s₂) :
    s.Did world steps sent s₂ := h₁.trans h₂

/-- Nothing was done later. -/
theorem Did.before (h₁ : s.Did world steps sent s₁) (h₂ : s₁.Did world [] [] s₂) :
    s.Did world steps sent s₂ := by
  simpa using h₁.trans h₂

theorem Did.connections (h : s.Did world steps sent s₁) :
    s₁.pool.connections = s.pool.connections := Pool.replay_connections h.pool

theorem Did.slots_eq_nil (h : s.Did world steps sent s₁) :
    s₁.pool.slots = [] ↔ s.pool.slots = [] := by
  have hmap := h.connections
  unfold Pool.connections at hmap
  rw [← List.map_eq_nil_iff (f := Slot.connection), hmap, List.map_eq_nil_iff]

theorem Did.sentSince_eq (h : s.Did world steps sent s₁) : s₁.sentSince s = sent := by
  simp [sentSince, h.handed]

theorem Did.stepsSince_eq (h : s.Did world steps sent s₁) : s₁.stepsSince s = steps := by
  simp [stepsSince, h.noted]

theorem did_log (world : World) (s : Session) (e : Event) : s.Did world [] [] (s.log e) :=
  ⟨rfl, by simp [log], by simp [log], rfl, id⟩

theorem did_record (world : World) (s : Session) (collector : Option Collector)
    (samples : List Sample) : s.Did world [] [] (s.record collector samples) :=
  ⟨rfl, by simp [record], by simp [record], rfl, id⟩

theorem did_cancel (world : World) (s : Session) :
    s.Did world [] [] { s with isCancelled := true } :=
  ⟨rfl, by simp, by simp, rfl, fun _ => rfl⟩

/-- A request is handed to the transport. -/
theorem did_hand {x : Exchange} {wire : List Http.Request}
    (h : Http.send world.network s.journal.wire x.request = (x.reply, wire)) :
    s.Did world [] [x]
      { s with journal := { s.journal with sent := s.journal.sent ++ [x], wire := wire } } :=
  ⟨rfl, by simp, rfl, ⟨wire, h, rfl⟩, id⟩

theorem did_take {c : Connection} (world : World) (h : s.take? = some (c, s₁)) :
    s.Did world [.taken c] [] s₁ := by
  simp only [take?, Option.map_eq_some_iff, Prod.mk.injEq] at h
  obtain ⟨choice, hc, rfl, rfl⟩ := h
  refine ⟨?_, rfl, by simp [done, log], rfl, id⟩
  refine Pool.replay_singleton.trans (Pool.follow_taken.mpr ?_)
  simp [Pool.take?, hc, done, log]

theorem take?_eq_none : s.take? = none ↔ s.pool.slots = [] := by
  rw [← Pool.take?_eq_none]
  simp [take?, Pool.take?]

theorem did_markDead (world : World) (s : Session) (collector : Option Collector) (c : Connection) :
    s.Did world [.markedDead c] [] (s.markDead collector c) := by
  have hmark : s.Did world [.markedDead c] []
      ({ s with pool := s.pool.markDead c }.done (.markedDead c)) :=
    ⟨rfl, rfl, by simp [done], rfl, id⟩
  unfold markDead
  simp only []
  split
  · exact hmark.before (did_log world _ _)
  · split
    · exact hmark.before ((did_log world _ _).after (did_record world _ _ _))
    · exact hmark.before (did_log world _ _)

theorem did_markLive (world : World) (s : Session) (collector : Option Collector) (c : Connection) :
    s.Did world [.markedLive c] [] (s.markLive collector c) := by
  have hmark : s.Did world [.markedLive c] []
      ({ s with pool := s.pool.markLive c }.done (.markedLive c)) :=
    ⟨rfl, rfl, by simp [done], rfl, id⟩
  unfold markLive
  simp only []
  split
  · exact hmark.before (did_log world _ _)
  · split
    · exact hmark
    · exact hmark.before ((did_log world _ _).after (did_record world _ _ _))

/-! ## What is counted -/

/-- How many errors and how many retries were noted. -/
def counts (s : Session) : Nat × Nat := (s.journal.errors, s.journal.retries)

@[simp] theorem log_counts (s : Session) (e : Event) : (s.log e).counts = s.counts := rfl

@[simp] theorem record_counts (s : Session) (collector : Option Collector) (samples : List Sample) :
    (s.record collector samples).counts = s.counts := rfl

theorem take?_counts {c : Connection} (h : s.take? = some (c, s₁)) : s₁.counts = s.counts := by
  simp only [take?, Option.map_eq_some_iff, Prod.mk.injEq] at h
  obtain ⟨choice, -, -, rfl⟩ := h
  rfl

@[simp] theorem markDead_counts (s : Session) (collector : Option Collector) (c : Connection) :
    (s.markDead collector c).counts = s.counts := by
  simp only [markDead]
  split
  · rfl
  · split <;> rfl

@[simp] theorem markLive_counts (s : Session) (collector : Option Collector) (c : Connection) :
    (s.markLive collector c).counts = s.counts := by
  simp only [markLive]
  split
  · rfl
  · split <;> rfl

end Session

end ClusterOutput
