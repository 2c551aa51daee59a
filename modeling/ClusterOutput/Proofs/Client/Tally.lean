/-
What is measured of a request: the transcript of the exchanges that it makes, a
last retry that came to no exchange, and its final error (`Measured`). Each step
adds what these grow by, whatever others do between the steps; so the metrics of
a request balance (`metrics_balance`).
-/
import ClusterOutput.Proofs.Client.Marks
import ClusterOutput.Proofs.Client.Transcript

namespace ClusterOutput

/-! ## What is measured between two moments -/

/-- Between two moments of a session just these exchanges were made, and just these measurements
of requests were taken. -/
structure Session.Measures (s : Session) (sent : List Exchange) (samples : List Sample)
    (s' : Session) : Prop where
  handed : s'.journal.sent = s.journal.sent ++ sent
  taken : ∃ more, s'.journal.samples = s.journal.samples ++ more ∧
    more.filter Sample.isOfRequest = samples

namespace Session

variable {s s₁ s₂ : Session} {sent sent' : List Exchange} {samples samples' : List Sample}

theorem Measures.refl (s : Session) : s.Measures [] [] s := ⟨by simp, [], by simp, rfl⟩

theorem Measures.trans (h₁ : s.Measures sent samples s₁) (h₂ : s₁.Measures sent' samples' s₂) :
    s.Measures (sent ++ sent') (samples ++ samples') s₂ := by
  obtain ⟨hsent₁, more₁, hmore₁, rfl⟩ := h₁
  obtain ⟨hsent₂, more₂, hmore₂, rfl⟩ := h₂
  refine ⟨by rw [hsent₂, hsent₁, List.append_assoc], more₁ ++ more₂, ?_, List.filter_append ..⟩
  rw [hmore₂, hmore₁, List.append_assoc]

/-- Nothing was measured later. -/
theorem Measures.before (h₁ : s.Measures sent samples s₁) (h₂ : s₁.Measures [] [] s₂) :
    s.Measures sent samples s₂ := by
  simpa using h₁.trans h₂

theorem Measures.sentSince_eq (h : s.Measures sent samples s₁) : s₁.sentSince s = sent := by
  simp [sentSince, h.handed]

theorem Measures.samplesSince_eq (h : s.Measures sent samples s₁) :
    (s₁.samplesSince s).filter Sample.isOfRequest = samples := by
  obtain ⟨more, hmore, rfl⟩ := h.taken
  simp [samplesSince, hmore]

theorem measures_hand (s : Session) (x : Exchange) (wire : List Http.Request) :
    s.Measures [x] [] (s.hand x wire) := ⟨rfl, [], by simp [hand], rfl⟩

theorem measures_interrupt (s : Session) : s.Measures [] [] s.interrupt :=
  ⟨by simp [interrupt], [], by simp [interrupt], rfl⟩

theorem measures_log (s : Session) (e : Event) : s.Measures [] [] (s.log e) :=
  ⟨by simp [log], [], by simp [log], rfl⟩

/-- An enabled collector takes what is recorded. -/
theorem measures_record {collector : Option Collector} (h : collector.any (·.isEnabled) = true)
    (s : Session) (samples : List Sample) :
    s.Measures [] (samples.filter Sample.isOfRequest) (s.record collector samples) :=
  ⟨by simp [record], samples, by simp [record, Collector.keep, h], rfl⟩

/-- A transition of a connection is no measurement of a request. -/
theorem measures_transition (s : Session) (collector : Option Collector) (status : HealthStatus) :
    s.Measures [] [] (s.record collector [.transition status]) := by
  refine ⟨by simp [record], _, rfl, ?_⟩
  unfold Collector.keep
  split <;> rfl

theorem measures_markDead (s : Session) (collector : Option Collector) (c : Connection) :
    s.Measures [] [] (s.markDead collector c) := by
  have hmark : s.Measures [] [] ({ s with pool := s.pool.markDead c }.done (.markedDead c)) :=
    ⟨by simp [done], [], by simp [done], rfl⟩
  unfold markDead
  simp only []
  split
  · exact hmark.before (measures_log _ _)
  · split
    · exact hmark.before ((measures_log _ _).before (measures_transition _ _ _))
    · exact hmark.before (measures_log _ _)

theorem measures_markLive (s : Session) (collector : Option Collector) (c : Connection) :
    s.Measures [] [] (s.markLive collector c) := by
  have hmark : s.Measures [] [] ({ s with pool := s.pool.markLive c }.done (.markedLive c)) :=
    ⟨by simp [done], [], by simp [done], rfl⟩
  unfold markLive
  simp only []
  split
  · exact hmark.before (measures_log _ _)
  · split
    · exact hmark
    · exact hmark.before ((measures_log _ _).before (measures_transition _ _ _))

theorem measures_take {c : Connection} (h : s.take? = some (c, s₁)) : s.Measures [] [] s₁ := by
  simp only [take?, Option.map_eq_some_iff, Prod.mk.injEq] at h
  obtain ⟨choice, -, -, rfl⟩ := h
  exact ⟨by simp [done, log], [], by simp [done, log], rfl⟩

end Session

/-! ## The parts of an attempt -/

namespace Client

variable {c : Client} (henabled : c.collector.any (·.isEnabled) = true)

section

include henabled

theorem noteError_measures (world : World) (op : Operation) (method : String) (e : RequestError)
    (s : Session) :
    s.Measures [] [.error op method (.of e)] (c.noteError world op method e s) := by
  have h := Session.measures_record henabled s [.error op method (.of e)]
  exact ⟨h.handed, h.taken⟩

theorem noteRetry_measures (world : World) (op : Operation) (method : String) (number : Nat)
    (s : Session) :
    s.Measures [] [.retry op method number] (c.noteRetry world op method number s) := by
  have h := Session.measures_record henabled s [.retry op method number]
  exact ⟨h.handed, h.taken⟩

/-- An attempt without an answer is measured without a status. -/
theorem unanswered_measures (op : Operation) (method : String) (conn : Connection) (url : Url)
    (failure : Http.Failure) (s : Session) :
    s.Measures [] [.duration op method none] (c.unanswered op method conn url failure s).2 := by
  have h := Session.measures_record henabled s [.duration op method none]
  exact h.before (Session.measures_markDead _ c.collector conn)

omit henabled in
/-- What comes after an answer has its status is measured of the connection only. -/
theorem answered_measures (conn : Connection) (url final : Url) (status : Nat)
    (body : Option Bytes) (s : Session) :
    s.Measures [] [] (c.answered conn url final status body s).2 := by
  unfold answered
  split
  · exact Session.measures_markDead s c.collector conn
  · split
    · exact Session.measures_markLive s c.collector conn
    · exact Session.measures_markDead s c.collector conn

/-- What is measured of an exchange that is settled is its duration. -/
theorem settle_measures (watched : Bool) (op : Operation) (method : String) (x : Exchange)
    (s : Session) :
    s.Measures [] ((x.reply.measured watched).map (.duration op method))
      (c.settle watched op method x s).2 := by
  have hrecord (s : Session) (status : Nat) :=
    Session.measures_record henabled s [.duration op method (some status)]
  have hup := Session.measures_interrupt s
  unfold settle
  split
  next hr =>
    rw [hr]
    cases watched with
    | true => exact hup
    | false => exact hup.trans (unanswered_measures henabled op method x.connection x.url _ _)
  next failure hr =>
    rw [hr]
    exact unanswered_measures henabled op method x.connection x.url failure s
  next status final body hr =>
    rw [hr]
    exact (hrecord s status).before (answered_measures x.connection x.url final status body _)
  next status final hr =>
    rw [hr]
    have htaken := hup.trans (hrecord s.interrupt status)
    cases watched with
    | true => exact htaken
    | false => exact htaken.before (answered_measures x.connection x.url final status none _)

/-- Before its exchange an attempt measures the retry that it is, unless it is not to be made. -/
theorem prepare_measures (world : World) (call : Call) (number : Nat) (s : Session) :
    s.Measures [] (if c.givesUp s then [] else retrySamples call.operation call.method number)
      (c.prepare world call number s).2 := by
  unfold prepare
  split
  next hup => exact .refl s
  next hup =>
    simp only []
    generalize hs₁ : (if isRetry number = true then
      c.noteRetry world call.operation call.method number s else s) = s₁
    have h₁ : s.Measures [] (retrySamples call.operation call.method number) s₁ := by
      rw [← hs₁, retrySamples]
      split
      · exact noteRetry_measures henabled world _ _ number s
      · exact .refl s
    split
    · exact h₁
    split
    · exact h₁
    next conn s₂ htake =>
      have h₂ := h₁.before (Session.measures_take htake)
      split
      · exact h₂
      · split <;> exact h₂.before (Session.measures_log _ _)

/-- What is measured of an attempt from its exchange on is what is measured of the exchange. -/
theorem tryOn_measures (world : World) (call : Call) (number : Nat) (conn : Connection) (url : Url)
    (s : Session) :
    ∃ x : Exchange, s.Measures [x] (x.samples c.carriesToken call.operation call.method)
      (c.tryOn world call number conn url s).2 := by
  let x := exchangeOf world s.journal.wire conn call.method url call.payload
  have hmade := (Session.measures_record henabled s [.attempt call.operation call.method]).trans
    ((Session.measures_hand _ x (Http.send world.network s.journal.wire
      (.make call.method url conn.credentials call.payload)).2).trans
      (settle_measures henabled c.carriesToken call.operation call.method x _))
  have hresult := c.settle_result c.carriesToken call.operation call.method x
    ((s.record c.collector [.attempt call.operation call.method]).hand x
      (Http.send world.network s.journal.wire
        (.make call.method url conn.credentials call.payload)).2)
  rw [← attempt_eq] at hmade hresult
  refine ⟨x, ?_⟩
  rw [Exchange.samples, Exchange.failure?_eq, ← hresult]
  cases hr : c.attempt world c.carriesToken call.operation conn call.method url call.payload s with
  | mk r s₁ =>
  rw [hr] at hmade
  cases r with
  | ok bytes =>
    rw [tryOn_ok hr]
    simp only [failureOf, Option.toList_none, List.map_nil, List.append_nil]
    split
    · exact hmade.before (Session.measures_log _ _)
    · exact hmade
  | error e =>
    by_cases hcancelled : e = .cancelled
    · subst hcancelled
      rw [tryOn_cancelled hr]
      simp only [failureOf, Option.toList_none, List.map_nil, List.append_nil]
      exact hmade
    · rw [tryOn_failed hcancelled hr, failureOf_error hcancelled]
      exact hmade.trans ((Session.measures_log s₁ _).trans
        (noteError_measures henabled world call.operation call.method e _))

/-- What is measured of the end of a request is its error. -/
theorem conclude_measures (world : World) (op : Operation) (method : String)
    (r : Except RequestError Bytes) (s : Session) :
    s.Measures [] ((finalCategory r).map (.error op method))
      (c.conclude world op method (r, s)).2 := by
  cases r with
  | ok bytes => exact .refl s
  | error e =>
    simp only [conclude, finalCategory]
    split
    · exact .refl s
    · exact noteError_measures henabled world op method e s

end

end Client

/-! ## The steps of a request -/

/-- What a request itself measures between others. -/
def Spell.samples (t : Spell) : List Sample := t.left.samplesSince t.found

namespace Ask

/-- What was measured of a request so far: the transcript of its exchanges, the retry that it makes
next, and its final error. -/
inductive Measured (a : Ask) : Stage → List Exchange → List Sample → Prop
  | asked : Measured a .asked [] []
  | ready {call : Client.Call} {left : Nat} {last : Option RequestError} {sent : List Exchange}
    (hop : call.operation = a.operation) (hmethod : call.method = a.method) :
    Measured a (.ready call left (sent.length + 1) last) sent
      (transcript a.client.carriesToken a.operation a.method 1 sent)
  | holding {call : Client.Call} {left : Nat} {conn : Connection} {url : Url} {sent : List Exchange}
    (hop : call.operation = a.operation) (hmethod : call.method = a.method) :
    Measured a (.holding call left (sent.length + 1) conn url) sent
      (transcript a.client.carriesToken a.operation a.method 1 sent ++
        retrySamples a.operation a.method (sent.length + 1))
  | finished {r : Except RequestError Bytes} {sent : List Exchange} {early : List Sample}
    (hearly : early = [] ∨
      early = retrySamples a.operation a.method (sent.length + 1) ∧ EndsBetween r) :
    Measured a (.finished r) sent
      (transcript a.client.carriesToken a.operation a.method 1 sent ++ early ++
        (finalCategory r).map (.error a.operation a.method))

variable {a : Ask} {world : World} {s : Session} {stage : Stage} {sent : List Exchange}
  {samples : List Sample}

/-- Between two moments of a session a request comes to a stage, and just that is measured by which
what has to be measured there exceeds what was measured before. -/
def Grows (a : Ask) (s : Session) (sent : List Exchange) (samples : List Sample)
    (r : Stage × Session) : Prop :=
  ∃ sent' samples', s.Measures sent' samples' r.2 ∧ a.Measured r.1 (sent ++ sent') (samples ++ samples')

theorem Measured.grows (h : a.Measured stage sent samples) : a.Grows s sent samples (stage, s) :=
  ⟨[], [], .refl s, by simpa using h⟩

theorem Grows.after {s₁ : Session} {sent₁ : List Exchange} {samples₁ : List Sample}
    {r : Stage × Session} (h₁ : s.Measures sent₁ samples₁ s₁)
    (h : a.Grows s₁ (sent ++ sent₁) (samples ++ samples₁) r) : a.Grows s sent samples r := by
  obtain ⟨sent₂, samples₂, h₂, hmeasured⟩ := h
  rw [List.append_assoc, List.append_assoc] at hmeasured
  exact ⟨_, _, h₁.trans h₂, hmeasured⟩

section

variable (henabled : a.client.collector.any (·.isEnabled) = true)

include henabled

/-- A request ends with its final error. -/
theorem finish_grows (world : World) (s : Session) {r : Except RequestError Bytes}
    {early : List Sample}
    (hearly : early = [] ∨
      early = retrySamples a.operation a.method (sent.length + 1) ∧ EndsBetween r) :
    a.Grows s sent (transcript a.client.carriesToken a.operation a.method 1 sent ++ early)
      (a.finish world (r, s)) := by
  have hends := Client.conclude_measures henabled world a.operation a.method r s
  have hr := (Client.conclude_ends a.client world a.operation a.method r s).1
  refine ⟨[], _, hends, ?_⟩
  simp only [finish, hr, List.append_nil]
  exact .finished hearly

theorem finish_grows_nil (world : World) (s : Session) (r : Except RequestError Bytes) :
    a.Grows s sent (transcript a.client.carriesToken a.operation a.method 1 sent)
      (a.finish world (r, s)) := by
  have hfinished : a.Grows s sent
      (transcript a.client.carriesToken a.operation a.method 1 sent ++ [])
      (a.finish world (r, s)) := finish_grows henabled world s (.inl rfl)
  rwa [List.append_nil] at hfinished

/-- The turn of an attempt that holds a connection. -/
theorem holding_grows {call : Client.Call} {left : Nat} {conn : Connection} {url : Url}
    (world : World) (s : Session) (hop : call.operation = a.operation)
    (hmethod : call.method = a.method) :
    a.Grows s sent
      (transcript a.client.carriesToken a.operation a.method 1 sent ++
        retrySamples a.operation a.method (sent.length + 1))
      (a.advance world (.holding call left (sent.length + 1) conn url, s)) := by
  obtain ⟨x, hmade⟩ := Client.tryOn_measures henabled world call (sent.length + 1) conn url s
  rw [hop, hmethod] at hmade
  refine .after hmade ?_
  have hconcat := transcript_concat a.client.carriesToken a.operation a.method 1 sent x
  rw [Nat.add_comm 1] at hconcat
  rw [List.append_assoc, ← hconcat]
  simp only [advance]
  generalize a.client.tryOn world call (sent.length + 1) conn url s = r
  split
  next bytes s₁ => exact finish_grows_nil henabled world s₁ (.ok bytes)
  next s₁ => exact finish_grows_nil henabled world s₁ (.error .cancelled)
  next e s₁ _ =>
    have hready : a.Measured (.ready call left ((sent ++ [x]).length + 1) (some e)) (sent ++ [x])
        (transcript a.client.carriesToken a.operation a.method 1 (sent ++ [x])) :=
      .ready hop hmethod
    rw [List.length_append, List.length_singleton] at hready
    exact hready.grows

theorem ready_grows {call : Client.Call} {left : Nat} {last : Option RequestError} (world : World)
    (s : Session) (hop : call.operation = a.operation) (hmethod : call.method = a.method) :
    a.Grows s sent (transcript a.client.carriesToken a.operation a.method 1 sent)
      (a.advance world (.ready call left (sent.length + 1) last, s)) := by
  cases left with
  | zero =>
    refine .after (Session.measures_log s (.givenUp a.client.maxRetries call.method call.path)) ?_
    rw [List.append_nil, List.append_nil]
    exact finish_grows_nil henabled world _ _
  | succ left =>
    have hmade := Client.prepare_measures henabled world call (sent.length + 1) s
    have hprep := Client.prepare_ends a.client world call (sent.length + 1) s
    have hup := Client.prepare_up (c := a.client) (s := s) world call (sent.length + 1)
    rw [hop, hmethod] at hmade
    refine .after hmade ?_
    rw [List.append_nil]
    simp only [advance]
    generalize a.client.prepare world call (sent.length + 1) s = r at hprep hup ⊢
    obtain ⟨r, s₁⟩ := r
    cases r with
    | error e =>
      have hends : EndsBetween (.error e : Except RequestError Bytes) := by
        cases hprep with
        | noConnections => exact .noConnections
        | noUrl => exact .invalidUrl
        | gaveUp | gaveUpLate => exact .cancelled
      refine finish_grows henabled world s₁ ?_
      split
      · exact .inl rfl
      · exact .inr ⟨rfl, hends⟩
    | ok aim =>
      have hgoes : a.client.givesUp s = false := by
        by_contra h
        cases hup (by simpa using h)
      rw [hgoes, if_neg Bool.false_ne_true]
      exact (Measured.holding hop hmethod).grows

theorem Measured.advance (h : a.Measured stage sent samples) (world : World) (s : Session) :
    a.Grows s sent samples (a.advance world (stage, s)) := by
  cases h with
  | asked =>
    simp only [Ask.advance]
    split
    next e _ => exact finish_grows_nil henabled world s (.error (.serialization e))
    next payload _ => exact (Measured.ready rfl rfl).grows
  | ready hop hmethod => exact ready_grows henabled world s hop hmethod
  | holding hop hmethod => exact holding_grows henabled world s hop hmethod
  | finished hearly => exact (Measured.finished hearly).grows

theorem Measured.resume (h : a.Measured stage sent samples) (world : World) (s : Session) :
    a.Grows s sent samples (a.resume world (stage, s)) := by
  have hgrows := h.advance henabled world s
  cases h with
  | holding hop hmethod =>
    simp only [Ask.resume]
    split
    · exact finish_grows henabled world s (.inr ⟨rfl, .cancelled⟩)
    · exact hgrows
  | asked | ready | finished => exact hgrows

/-! ## All steps -/

/-- Steps on end. -/
theorem advance_measured (world : World) (s : Session) (n : Nat) :
    a.Grows s [] [] ((a.advance world)^[n] (.asked, s)) := by
  induction n with
  | zero => exact Measured.asked.grows
  | succ n ih =>
    obtain ⟨sent, samples, hmade, hmeasured⟩ := ih
    rw [Function.iterate_succ_apply']
    exact .after hmade (hmeasured.advance henabled world _)

/-- Steps between which others come: what the request itself measures is what it has to. -/
theorem spells_measured (h : a.Measured stage sent samples) (world : World)
    (found : List Session) :
    let run := a.spells world stage found
    a.Measured run.2 (sent ++ run.1.flatMap Spell.sent)
      (samples ++ (run.1.flatMap Spell.samples).filter Sample.isOfRequest) := by
  induction found generalizing stage sent samples with
  | nil => simpa [spells] using h
  | cons s found ih =>
    obtain ⟨sent₁, samples₁, hmade, h₁⟩ := h.resume henabled world s
    rw [← hmade.sentSince_eq, ← hmade.samplesSince_eq] at h₁
    rw [spells_cons]
    simp only [List.flatMap_cons, List.filter_append, ← List.append_assoc]
    exact ih h₁

end

/-- What is measured of a request to its end balances. -/
theorem Measured.balanced {r : Except RequestError Bytes}
    (h : a.Measured (.finished r) sent samples) :
    Balanced a.client.carriesToken a.operation a.method sent samples r := by
  generalize hstage : Stage.finished r = stage at h
  cases h with
  | asked | ready | holding => cases hstage
  | @finished r sent early hearly =>
    cases hstage
    have hother {m : Metric} (hm : m ≠ .retries) : m.of early = [] := by
      rcases hearly with rfl | ⟨rfl, -⟩
      · rfl
      · exact of_retrySamples a.operation a.method hm _
    simp only [List.append_assoc]
    refine ⟨?_, ?_, ?_, ?_⟩
    · rw [Metric.of_append, Metric.of_append, requests_transcript, hother (by decide), Metric.of_errors]
      exact List.append_nil _
    · rw [Metric.of_append, Metric.of_append, retries_transcript_one, Metric.of_errors]
      rcases hearly with rfl | ⟨rfl, hends⟩
      · exact ⟨sent.length, List.append_nil _, .inl rfl⟩
      · rcases Nat.eq_zero_or_pos sent.length with hnone | hsome
        · exact ⟨sent.length, by rw [hnone]; rfl, .inl rfl⟩
        · have hretry : Client.isRetry (sent.length + 1) = true := decide_eq_true (by omega)
          obtain ⟨n, hn⟩ := Nat.exists_eq_add_of_lt hsome
          refine ⟨sent.length + 1, ?_, .inr ⟨rfl, hsome, hends⟩⟩
          rw [retrySamples, if_pos hretry, hn, Nat.zero_add, Nat.add_sub_cancel, Nat.add_sub_cancel,
            List.range'_1_concat, List.map_append, Nat.add_comm 2 n]
          rfl
    · rw [Metric.of_append, Metric.of_append, errors_transcript, hother (by decide), Metric.of_errors,
        List.map_append]
      rfl
    · rw [Metric.of_append, Metric.of_append, durations_transcript, hother (by decide), Metric.of_errors]
      exact List.append_nil _

end Ask

namespace Client

variable {c : Client} {world : World} {s s₁ : Session} {op : Operation} {method : String} {α : Type}

/-! ## Operations that are requests -/

/-- On the way to a result a client made some exchanges, and took the measurements that balance with
them. -/
def Tallies (c : Client) (op : Operation) (method : String) (s : Session)
    (r : Except RequestError α × Session) : Prop :=
  ∃ sent samples, s.Measures sent samples r.2 ∧ Balanced c.carriesToken op method sent samples r.1

/-- What a client measured on the way to a result balances with the exchanges that it made. -/
def Balances (c : Client) (op : Operation) (method : String) (s : Session)
    (r : Except RequestError α × Session) : Prop :=
  Balanced c.carriesToken op method (r.2.sentSince s) (r.2.samplesSince s) r.1

theorem Tallies.balances {r : Except RequestError α × Session} (h : c.Tallies op method s r) :
    c.Balances op method s r := by
  obtain ⟨sent, samples, hmade, hbalanced⟩ := h
  refine Balanced.of_filter ?_
  rwa [hmade.sentSince_eq, hmade.samplesSince_eq]

theorem Tallies.after_log {e : Event} {r : Except RequestError α × Session}
    (h : c.Tallies op method (s.log e) r) : c.Tallies op method s r := by
  obtain ⟨sent, samples, hmade, hbalanced⟩ := h
  exact ⟨sent, samples, (Session.measures_log s e).trans hmade, hbalanced⟩

theorem serve_tallies (a : Ask) (henabled : a.client.collector.any (·.isEnabled) = true)
    (world : World) (s : Session) :
    a.client.Tallies a.operation a.method s (a.serve world s) := by
  obtain ⟨sent, samples, hmade, hmeasured⟩ :=
    a.advance_measured henabled world s (2 * a.client.maxRetries + 2)
  rw [a.advance_alone] at hmade hmeasured
  exact ⟨sent, samples, hmade, hmeasured.balanced⟩

/-- An answer that cannot be read is one more error, and the final one. -/
theorem Tallies.reading {r : Except RequestError Bytes × Session}
    {read : Bytes → Except RequestError α} (h : c.Tallies op method s r)
    (henabled : c.collector.any (·.isEnabled) = true) (world : World)
    (hread : ∀ bytes e, read bytes = .error e → ∃ target fault, e = .decode target fault) :
    c.Tallies op method s (c.reading world op method read r) := by
  obtain ⟨sent, samples, hmade, hbalanced⟩ := h
  obtain ⟨r, s'⟩ := r
  cases r with
  | error e => exact ⟨sent, samples, hmade, hbalanced.of_error⟩
  | ok bytes =>
    simp only [Client.reading]
    split
    next a _ =>
      refine ⟨sent, samples, hmade, ?_⟩
      have hread := hbalanced.of_ok (.ok a : Except RequestError α)
      rwa [finalCategory, List.map_nil, List.append_nil] at hread
    next e herror =>
      obtain ⟨target, fault, rfl⟩ := hread bytes e herror
      have hnoted := noteError_measures henabled world op method (.decode target fault) s'
      refine ⟨_, _, hmade.trans hnoted, ?_⟩
      rw [List.append_nil]
      exact hbalanced.of_ok (.error (.decode target fault))

/-- An operation on a document or an index: a request, and its answer is read. -/
theorem reading_tallies {decode : Bytes → Except Json.Error α} {target : String}
    (henabled : c.collector.any (·.isEnabled) = true) (world : World) (op : Operation)
    (method path : String) (params : Option Url.Params) (body : Option Body) (s : Session) :
    c.Tallies op method s
      (c.reading world op method (fun bytes => (decode bytes).mapError (.decode target))
        (c.requestAs world op method path params body s)) :=
  (serve_tallies ⟨c, op, method, path, params, body⟩ henabled world s).reading henabled world
    fun _ _ => decode_of_mapError

/-- **The metrics of a request balance.** Whatever the world answers, and wherever the run is
cancelled, a request or an operation on a document or an index records one attempt and one duration
for each exchange that it makes, one retry for each attempt after the first, one error for each that
fails, and one more for its final error unless that only says that all attempts failed: under its
own label and method. No sample is missing or taken twice, and an attempt that is cancelled before
its status has no duration. This holds too of a request between whose steps others come, and change
the pool or cancel the run. -/
theorem metrics_balance (c : Client) (world : World) (s : Session)
    (henabled : c.collector.any (·.isEnabled) = true) :
    (∀ method path params body,
      c.Balances .request method s (c.request world method path params body s)) ∧
    (∀ index docType id params body,
      c.Balances .index (if id = "" then "POST" else "PUT") s
        (c.index world index docType id params body s)) ∧
    (∀ index docType id params,
      c.Balances .delete "DELETE" s (c.delete world index docType id params s)) ∧
    (∀ index, c.Balances .createIndex "PUT" s (c.createIndex world index s)) ∧
    (∀ index, c.Balances .refresh "POST" s (c.refresh world index s)) ∧
    (∀ index docType params, c.Balances .search "GET" s (c.search world index docType params s)) ∧
    ∀ op method path params body found r,
      let run := Ask.spells ⟨c, op, method, path, params, body⟩ world .asked found
      run.2 = .finished r →
        Balanced c.carriesToken op method (run.1.flatMap Spell.sent) (run.1.flatMap Spell.samples) r := by
  refine ⟨?_, ?_, ?_, ?_, ?_, ?_, ?_⟩
  · intro method path params body
    exact (serve_tallies ⟨c, .request, method, path, params, body⟩ henabled world s).balances
  · intro index docType id params body
    exact (reading_tallies henabled world .index _ _ params (some body) _).after_log.balances
  · intro index docType id params
    exact (reading_tallies henabled world .delete _ _ params none _).after_log.balances
  · intro index
    exact (reading_tallies henabled world .createIndex _ _ none none _).after_log.balances
  · intro index
    exact (reading_tallies henabled world .refresh _ _ none none s).balances
  · intro index docType params
    exact (reading_tallies henabled world .search _ _ params none _).after_log.balances
  · intro op method path params body found r run hrun
    have hmeasured : Ask.Measured _ run.2 _ _ :=
      Ask.spells_measured (a := ⟨c, op, method, path, params, body⟩) henabled .asked world found
    rw [hrun, List.nil_append, List.nil_append] at hmeasured
    exact hmeasured.balanced.of_filter

/-- The first of two nodes is down: a request that the second one answers is measured as two
attempts, one retry and one failure. -/
theorem metrics_balance_failover :
    let c : Client := { Client.patient with collector := some .enabled }
    let r := c.request .halfDown "GET" "/_search" none none .twoNodes
    c.collector.any (·.isEnabled) = true ∧ c.Balances .request "GET" .twoNodes r ∧
      r.2.samplesSince .twoNodes =
        [.attempt .request "GET", .duration .request "GET" none, .transition .dead,
          .error .request "GET" .transport, .retry .request "GET" 2, .attempt .request "GET",
          .duration .request "GET" (some 200)] :=
  ⟨rfl, (metrics_balance { Client.patient with collector := some .enabled } .halfDown .twoNodes
    rfl).1 "GET" "/_search" none none, by decide +kernel⟩

end Client

end ClusterOutput
