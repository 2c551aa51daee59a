/-
Which connections turn live or dead is measured, each time and at no other time,
whatever is done in a session: every deed takes for its transitions just the
samples that its steps of the pool call for (`Deed.turns`). So the samples since
the connections were last replaced account for the dead (`transitions_account`).
-/
import ClusterOutput.Proofs.Client.Observers
import ClusterOutput.Proofs.Client.Transcript
import ClusterOutput.Proofs.Pool.Transitions

namespace ClusterOutput

/-! ## What is measured of the connections between two moments -/

namespace Session

variable {s s₁ s₂ : Session} {collector : Option Collector}

/-- Between two moments of a session connections turned live or dead along the steps of the pool,
and just that was measured of them. -/
def Turns (s s' : Session) : Prop :=
  ∃ steps samples, s.pool.replay steps = some s'.pool ∧
    s'.journal.steps = s.journal.steps ++ steps ∧
    s'.journal.samples = s.journal.samples ++ samples ∧
    Metric.transitions.of samples = (s.pool.transitions steps).map (.transition ·.2)

theorem Turns.refl (s : Session) : s.Turns s := ⟨[], [], rfl, by simp, by simp, rfl⟩

theorem Turns.trans (h₁ : s.Turns s₁) (h₂ : s₁.Turns s₂) : s.Turns s₂ := by
  obtain ⟨steps, samples, hr, hsteps, hsamples, hof⟩ := h₁
  obtain ⟨steps', samples', hr', hsteps', hsamples', hof'⟩ := h₂
  refine ⟨steps ++ steps', samples ++ samples', ?_, ?_, ?_, ?_⟩
  · exact Pool.replay_append.mpr ⟨_, hr, hr'⟩
  · rw [hsteps', hsteps, List.append_assoc]
  · rw [hsamples', hsamples, List.append_assoc]
  · rw [Metric.of_append, hof, hof', Pool.transitions_append hr, List.map_append]

theorem turns_log (s : Session) (e : Event) : s.Turns (s.log e) :=
  ⟨[], [], rfl, by simp [log], by simp [log], rfl⟩

theorem turns_hand (s : Session) (x : Exchange) (wire : List Http.Request) :
    s.Turns (s.hand x wire) := ⟨[], [], rfl, by simp [hand], by simp [hand], rfl⟩

theorem turns_interrupt (s : Session) : s.Turns s.interrupt :=
  ⟨[], [], rfl, by simp [interrupt], by simp [interrupt], rfl⟩

/-- Measurements of a request are none of connections. -/
theorem turns_record (s : Session) (collector : Option Collector) (samples : List Sample)
    (hnone : Metric.transitions.of samples = []) : s.Turns (s.record collector samples) := by
  refine ⟨[], Collector.keep collector samples, rfl, by simp [record], rfl, ?_⟩
  unfold Collector.keep
  split
  · exact hnone
  · rfl

theorem turns_take {c : Connection} (h : s.take? = some (c, s₁)) : s.Turns s₁ := by
  have hfollow : s.pool.follow (.taken c) = some s₁.pool := Pool.follow_taken.mpr (take?_pool h)
  simp only [take?, Option.map_eq_some_iff, Prod.mk.injEq] at h
  obtain ⟨choice, -, rfl, rfl⟩ := h
  refine ⟨[.taken choice.slot.connection], [], ?_, rfl, by simp [done, log], ?_⟩
  · exact Pool.replay_singleton.trans hfollow
  · rw [Pool.transitions_singleton hfollow]
    rfl

section

variable (henabled : collector.any (·.isEnabled) = true)

include henabled

/-- A mark, and what an enabled collector hears of it. -/
theorem turns_mark (step : PoolStep) {p : Pool} {turned : Prop} [Decidable turned] {id : Nat}
    {status : HealthStatus} (hf : s.pool.follow step = some p) (hpool : s₁.pool = p)
    (hsteps : s₁.journal.steps = s.journal.steps ++ [step])
    (hsamples : s₁.journal.samples = s.journal.samples ++
      if turned then Collector.keep collector [.transition status] else [])
    (hturn : s.pool.transition? step = if turned then some (id, status) else none) :
    s.Turns s₁ := by
  refine ⟨[step], _, ?_, hsteps, hsamples, ?_⟩
  · rw [Pool.replay_singleton, hf, hpool]
  · rw [Pool.transitions_singleton hf, hturn, Collector.keep, if_pos henabled]
    split <;> rfl

theorem turns_markDead (s : Session) (c : Connection) : s.Turns (s.markDead collector c) := by
  refine turns_mark henabled (.markedDead c) rfl (markDead_pool s collector c) ?_
    (markDead_samples s collector c) rfl
  simp only [markDead]
  split
  · rfl
  · split <;> rfl

theorem turns_markLive (s : Session) (c : Connection) : s.Turns (s.markLive collector c) := by
  refine turns_mark henabled (.markedLive c) rfl (markLive_pool s collector c) ?_
    (markLive_samples s collector c) rfl
  simp only [markLive]
  split
  · rfl
  · split <;> rfl

end

end Session

/-! ## The parts of a request -/

namespace Client

variable {c : Client} (henabled : c.collector.any (·.isEnabled) = true)

theorem noteError_turns (c : Client) (world : World) (op : Operation) (method : String)
    (e : RequestError) (s : Session) : s.Turns (c.noteError world op method e s) :=
  Session.turns_record s c.collector [.error op method (.of e)] rfl

theorem noteRetry_turns (c : Client) (world : World) (op : Operation) (method : String)
    (number : Nat) (s : Session) : s.Turns (c.noteRetry world op method number s) :=
  Session.turns_record s c.collector [.retry op method number] rfl

theorem conclude_turns (c : Client) (world : World) (op : Operation) (method : String)
    (r : Except RequestError Bytes) (s : Session) :
    s.Turns (c.conclude world op method (r, s)).2 := by
  cases r with
  | ok bytes => exact .refl s
  | error e =>
    simp only [conclude]
    split
    · exact .refl s
    · exact noteError_turns c world op method e s

theorem prepare_turns (c : Client) (world : World) (call : Call) (number : Nat) (s : Session) :
    s.Turns (c.prepare world call number s).2 := by
  unfold prepare
  split
  · exact .refl s
  simp only []
  generalize hs₁ : (if isRetry number = true then
    c.noteRetry world call.operation call.method number s else s) = s₁
  have h₁ : s.Turns s₁ := by
    rw [← hs₁]
    split
    · exact noteRetry_turns c world _ _ number s
    · exact .refl s
  split
  · exact h₁
  split
  · exact h₁
  next conn s₂ htake =>
    have h₂ := h₁.trans (Session.turns_take htake)
    split
    · exact h₂
    · split <;> exact h₂.trans (Session.turns_log _ _)

theorem setMaxRetries_turns (c : Client) (n : Nat) (s : Session) :
    s.Turns (c.setMaxRetries n s).2 := by
  simp only [setMaxRetries]
  split
  · exact Session.turns_log s _
  · exact .refl s

theorem reading_turns {α : Type} (c : Client) (world : World) (op : Operation) (method : String)
    (read : Bytes → Except RequestError α) {s : Session} {r : Except RequestError Bytes × Session}
    (h : s.Turns r.2) : s.Turns (c.reading world op method read r).2 := by
  obtain ⟨r, s₁⟩ := r
  cases r with
  | error e => exact h
  | ok bytes =>
    simp only [reading]
    split
    · exact h
    · exact h.trans (noteError_turns c world op method _ s₁)

include henabled

theorem unanswered_turns (op : Operation) (method : String) (conn : Connection) (url : Url)
    (failure : Http.Failure) (s : Session) :
    s.Turns (c.unanswered op method conn url failure s).2 :=
  (Session.turns_record s c.collector [.duration op method none] rfl).trans
    (Session.turns_markDead henabled _ conn)

theorem answered_turns (conn : Connection) (url final : Url) (status : Nat) (body : Option Bytes)
    (s : Session) : s.Turns (c.answered conn url final status body s).2 := by
  unfold answered
  split
  · exact Session.turns_markDead henabled s conn
  · split
    · exact Session.turns_markLive henabled s conn
    · exact Session.turns_markDead henabled s conn

theorem settle_turns (watched : Bool) (op : Operation) (method : String) (x : Exchange)
    (s : Session) : s.Turns (c.settle watched op method x s).2 := by
  have hup := Session.turns_interrupt s
  have hrecord (s : Session) (status : Nat) :
      s.Turns (s.record c.collector [.duration op method (some status)]) :=
    Session.turns_record s c.collector _ rfl
  unfold settle
  split
  · split
    · exact hup
    · exact hup.trans (unanswered_turns henabled op method x.connection x.url _ _)
  · exact unanswered_turns henabled op method x.connection x.url _ s
  next status final body _ =>
    exact (hrecord s status).trans (answered_turns henabled x.connection x.url final status body _)
  next status final _ =>
    have htaken := hup.trans (hrecord s.interrupt status)
    split
    · exact htaken
    · exact htaken.trans (answered_turns henabled x.connection x.url final status none _)

theorem attempt_turns (world : World) (watched : Bool) (op : Operation) (conn : Connection)
    (method : String) (url : Url) (payload : Option Bytes) (s : Session) :
    s.Turns (c.attempt world watched op conn method url payload s).2 := by
  rw [attempt_eq]
  have hstart : s.Turns (s.record c.collector [.attempt op method]) :=
    Session.turns_record s c.collector _ rfl
  exact hstart.trans ((Session.turns_hand _ _ _).trans (settle_turns henabled watched op method _ _))

theorem tryOn_turns (world : World) (call : Call) (number : Nat) (conn : Connection) (url : Url)
    (s : Session) : s.Turns (c.tryOn world call number conn url s).2 := by
  have hmade := attempt_turns henabled world c.carriesToken call.operation conn call.method url
    call.payload s
  cases hr : c.attempt world c.carriesToken call.operation conn call.method url call.payload s with
  | mk r s₁ =>
  rw [hr] at hmade
  cases r with
  | ok bytes =>
    rw [tryOn_ok hr]
    simp only []
    split
    · exact hmade.trans (Session.turns_log s₁ _)
    · exact hmade
  | error e =>
    by_cases hcancelled : e = .cancelled
    · subst hcancelled
      rw [tryOn_cancelled hr]
      exact hmade
    · rw [tryOn_failed hcancelled hr]
      exact hmade.trans ((Session.turns_log s₁ _).trans (noteError_turns c world _ _ e _))

end Client

namespace Ask

variable {a : Ask} (henabled : a.client.collector.any (·.isEnabled) = true)

theorem finish_turns (a : Ask) (world : World) (r : Except RequestError Bytes) (s : Session) :
    s.Turns (a.finish world (r, s)).2 :=
  Client.conclude_turns a.client world a.operation a.method r s

include henabled

theorem advance_turns (world : World) (stage : Stage) (s : Session) :
    s.Turns (a.advance world (stage, s)).2 := by
  cases stage with
  | asked =>
    simp only [advance]
    split
    · exact a.finish_turns world _ s
    · exact .refl s
  | ready call left number last =>
    cases left with
    | zero => exact (Session.turns_log s _).trans (a.finish_turns world _ _)
    | succ left =>
      have hmade := Client.prepare_turns a.client world call number s
      simp only [advance]
      generalize a.client.prepare world call number s = r at hmade ⊢
      obtain ⟨r, s₁⟩ := r
      cases r with
      | error e => exact hmade.trans (a.finish_turns world (.error e) s₁)
      | ok aim => exact hmade
  | holding call left number conn url =>
    have hmade := Client.tryOn_turns henabled world call number conn url s
    simp only [advance]
    generalize a.client.tryOn world call number conn url s = r at hmade ⊢
    split
    next bytes s₁ => exact hmade.trans (a.finish_turns world (.ok bytes) s₁)
    next s₁ => exact hmade.trans (a.finish_turns world (.error .cancelled) s₁)
    next => exact hmade
  | finished r => exact .refl s

theorem resume_turns (world : World) (stage : Stage) (s : Session) :
    s.Turns (a.resume world (stage, s)).2 := by
  have hadvance := advance_turns henabled world stage s
  cases stage with
  | holding call left number conn url =>
    simp only [resume]
    split
    · exact a.finish_turns world (.error .cancelled) s
    · exact hadvance
  | asked | ready | finished => exact hadvance

theorem serve_turns (world : World) (s : Session) : s.Turns (a.serve world s).2 := by
  have hall (n : Nat) : s.Turns ((a.advance world)^[n] (.asked, s)).2 := by
    induction n with
    | zero => exact .refl s
    | succ n ih =>
      rw [Function.iterate_succ_apply']
      exact ih.trans (advance_turns henabled world _ _)
  have hserved := hall (2 * a.client.maxRetries + 2)
  rwa [a.advance_alone] at hserved

end Ask

/-- An operation on a document or an index is a request whose answer is read. -/
theorem Client.operation_turns {α : Type} {c : Client} {s s₁ : Session}
    (henabled : c.collector.any (·.isEnabled) = true) (world : World) (op : Operation)
    (method path : String) (params : Option Url.Params) (body : Option Body)
    (read : Bytes → Except RequestError α) (h : s.Turns s₁) :
    s.Turns (c.reading world op method read (c.requestAs world op method path params body s₁)).2 :=
  c.reading_turns world op method read
    (h.trans (Ask.serve_turns (a := ⟨c, op, method, path, params, body⟩) henabled world s₁))

/-! ## Whatever is done in a session -/

namespace Deed

/-- The deed replaces all connections. -/
def replaces : Deed → Bool
  | pool _ (.setConnections ..) => true
  | setConnections urls _ => (normalizeHosts urls).isOk
  | _ => false

/-- What the deed does to connections is measured. -/
def isCounted : Deed → Bool
  | setConnections .. | cancel => true
  | d => d.collector?.any (·.isEnabled)

theorem turns {d : Deed} (hcounted : d.isCounted = true) (hkept : d.replaces = false) (world : World)
    (s : Session) : s.Turns (d.act world s) := by
  cases d with
  | ask a => exact Ask.serve_turns hcounted world s
  | index c | delete c | createIndex c | search c =>
    exact Client.operation_turns hcounted world _ _ _ _ _ _ (Session.turns_log s _)
  | refresh c => exact Client.operation_turns hcounted world _ _ _ _ _ _ (.refl s)
  | perform c conn method url payload =>
    exact Client.attempt_turns hcounted world false .request conn method url payload s
  | step a stage => exact Ask.resume_turns hcounted world stage s
  | setMaxRetries c n => exact c.setMaxRetries_turns n s
  | setConnections urls credentials =>
    cases hhosts : normalizeHosts urls with
    | error e =>
      rw [act, Client.setConnections, hhosts]
      exact .refl s
    | ok hosts =>
      rw [replaces, hhosts] at hkept
      cases hkept
  | pool collector asked =>
    cases asked with
    | setConnections => cases hkept
    | take =>
      simp only [act, Session.call]
      split
      · exact .refl s
      next htake => exact Session.turns_take htake
    | markDead c => exact Session.turns_markDead hcounted s c
    | markLive c => exact Session.turns_markLive hcounted s c
    | health | urls | size | liveCount => exact .refl s
  | cancel => exact Session.turns_interrupt s

end Deed

/-! ## Since the connections were replaced -/

theorem Deed.replaced_fresh {d : Deed} (h : d.replaces = true) (world : World) (s : Session) :
    (d.act world s).pool.Fresh := by
  cases d with
  | pool collector asked =>
    cases asked with
    | setConnections urls credentials => exact s.pool.fresh_setConnections urls credentials
    | take | markDead | markLive | health | urls | size | liveCount => cases h
  | setConnections urls credentials =>
    cases hhosts : normalizeHosts urls with
    | error e =>
      rw [replaces, hhosts] at h
      cases h
    | ok hosts =>
      rw [act, Client.setConnections, hhosts]
      exact s.pool.fresh_setConnections hosts credentials
  | ask | index | delete | createIndex | refresh | search | perform | step | setMaxRetries
  | cancel => cases h

namespace Session

/-- The session as it was when its connections were last replaced: `set` if they are not replaced
by the deeds. -/
def lastSet (set s : Session) : List (World × Deed) → Session
  | [] => set
  | (world, d) :: deeds =>
    lastSet (if d.replaces then d.act world s else set) (d.act world s) deeds

theorem lastSet_turns {deeds : List (World × Deed)} {set s : Session}
    (hcounted : ∀ turn ∈ deeds, turn.2.isCounted = true) (hfresh : set.pool.Fresh)
    (hturns : set.Turns s) :
    (lastSet set s deeds).pool.Fresh ∧ (lastSet set s deeds).Turns (s.later deeds) := by
  induction deeds generalizing set s with
  | nil => exact ⟨hfresh, hturns⟩
  | cons turn deeds ih =>
    obtain ⟨world, d⟩ := turn
    obtain ⟨hd, hrest⟩ := List.forall_mem_cons.mp hcounted
    rw [lastSet, later]
    split
    next hreplaces => exact ih hrest (d.replaced_fresh hreplaces world s) (.refl _)
    next hkeeps =>
      have hact := d.turns hd (Bool.eq_false_iff.mpr hkeeps) world s
      exact ih hrest hfresh (hturns.trans hact)

end Session

/-- The samples of a transition are as many as connections turned so. -/
theorem count_transitions {samples : List Sample} {turns : List Transition}
    (h : Metric.transitions.of samples = turns.map (.transition ·.2)) (status : HealthStatus) :
    samples.count (.transition status) = turns.countP (·.2 == status) := by
  have hof : (Metric.transitions.of samples).count (.transition status) =
      samples.count (.transition status) := List.count_filter rfl
  rw [← hof, h, List.count, List.countP_map]
  exact List.countP_congr fun turn _ => by simp

/-- **Measured transitions account for the dead.** Whatever is done from a new session on, if the
collectors are enabled: the samples of transitions since the connections were last replaced are those
of the connections that turned live or dead along the steps of the pool since then. As many
connections are dead as turned dead by these samples, less those that turned live. And the
transitions of one connection alternate, the first of them to dead. -/
theorem transitions_account (deeds : List (World × Deed))
    (hcounted : ∀ turn ∈ deeds, turn.2.isCounted = true) :
    let s := Session.start.later deeds
    let set := Session.lastSet .start .start deeds
    let turns := set.pool.transitions (s.stepsSince set)
    set.pool.replay (s.stepsSince set) = some s.pool ∧
    Metric.transitions.of (s.samplesSince set) = turns.map (.transition ·.2) ∧
    ((s.samplesSince set).count (.transition .dead) : Int) -
      (s.samplesSince set).count (.transition .live) = s.pool.size - s.pool.liveCount ∧
    (∀ turn ∈ turns, ∃ c ∈ s.pool.connections, c.id = turn.1) ∧
    ∀ c ∈ s.pool.connections, (HealthStatus.live :: turnsOf c.id turns).IsChain (· ≠ ·) := by
  intro s set turns
  have hstart : Session.start.pool.Fresh :=
    ⟨⟨List.nodup_nil, List.forall_mem_nil _⟩, List.forall_mem_nil _⟩
  have hlast : set.pool.Fresh ∧ set.Turns s := Session.lastSet_turns hcounted hstart (.refl .start)
  obtain ⟨hfresh, steps, samples, hreplay, hsteps, hsamples, hof⟩ := hlast
  have hsince : s.stepsSince set = steps := by rw [Session.stepsSince, hsteps, List.drop_left]
  have hmeasured : s.samplesSince set = samples := by
    rw [Session.samplesSince, hsamples, List.drop_left]
  obtain ⟨hdead, hids, halternate⟩ := hfresh.transitions hreplay
  have hcount (status : HealthStatus) := count_transitions hof status
  simp only [turns, hsince, hmeasured]
  refine ⟨hreplay, hof, ?_, hids, halternate⟩
  rw [hcount, hcount]
  omega

/-- Two nodes are configured, and the first fails a request, which the second answers; both are
marked dead from outside, and the first live again. Three transitions are measured since. -/
theorem transitions_account_halfDown :
    let pool : Option Collector := some .enabled
    let asked : Ask := { Ask.search with client := Client.patient.measuredBy pool }
    let deeds : List (World × Deed) := [
      (.halfDown, .pool pool (.setConnections ["http://a", "http://b"] none)),
      (.halfDown, .ask asked),
      (.halfDown, .pool pool (.markDead ⟨0, "http://a", none⟩)),
      (.halfDown, .pool pool (.markDead ⟨1, "http://b", none⟩)),
      (.halfDown, .pool pool (.markLive ⟨0, "http://a", none⟩))]
    let s := Session.start.later deeds
    let set := Session.lastSet .start .start deeds
    (∀ turn ∈ deeds, turn.2.isCounted = true) ∧ s.pool.size = 2 ∧ s.pool.liveCount = 1 ∧
      set.pool.transitions (s.stepsSince set) = [(0, .dead), (1, .dead), (0, .live)] ∧
      Metric.transitions.of (s.samplesSince set) =
        [.transition .dead, .transition .dead, .transition .live] := by
  intro pool asked deeds s set
  have hcounted : ∀ turn ∈ deeds, turn.2.isCounted = true := by decide
  have hpool : s.pool.size = 2 ∧ s.pool.liveCount = 1 := by decide +kernel
  have hturns : set.pool.transitions (s.stepsSince set) = [(0, .dead), (1, .dead), (0, .live)] := by
    decide +kernel
  obtain ⟨-, hof, -⟩ := transitions_account deeds hcounted
  exact ⟨hcounted, hpool.1, hpool.2, hturns, hof.trans (congrArg _ hturns)⟩

end ClusterOutput
