/-
Two requests side by side that differ in their names, parameters and bodies
only. As long as their exchanges come to the same they are in step: they take the
same connections, mark them in the same way, give up at the same points and record
the same measurements (`attempts_inStep`). No names can make the URL of a
request wrong on a node, or right (`target_accepted`). So what is measured tells
nothing of names (`names_never_measured`).
-/
import ClusterOutput.Proofs.Client.Endpoint
import ClusterOutput.Proofs.Client.Nodes
import ClusterOutput.Proofs.Client.Tally
import ClusterOutput.Proofs.Url.Entrance

namespace ClusterOutput

/-! ## Exchanges and errors that are measured alike -/

/-- Exchanges come to the same, apart from the URLs that they tell of. -/
inductive Http.Reply.Alike : Http.Reply → Http.Reply → Prop
  | failed (failure failure' : Http.Failure) : Alike (.failed failure) (.failed failure')
  | interrupted : Alike .interrupted .interrupted
  | answered (status : Nat) (final final' : Url) (body : Option Bytes) :
    Alike (.answered status final body) (.answered status final' body)
  | cut (status : Nat) (final final' : Url) : Alike (.cut status final) (.cut status final')

/-- The exchanges of two runs come to the same, one after another, as far as both runs go. -/
def RepliesAlike (sent sent' : List Exchange) : Prop :=
  ∀ (k : Nat) (x y : Exchange), sent[k]? = some x → sent'[k]? = some y → x.reply.Alike y.reply

theorem RepliesAlike.head {x y : Exchange} {sent sent' : List Exchange}
    (h : RepliesAlike (x :: sent) (y :: sent')) : x.reply.Alike y.reply := h 0 x y rfl rfl

theorem RepliesAlike.tail {x y : Exchange} {sent sent' : List Exchange}
    (h : RepliesAlike (x :: sent) (y :: sent')) : RepliesAlike sent sent' :=
  fun k x y hx hy => h (k + 1) x y hx hy

/-- What measurements and the loop over attempts see of an error. -/
def RequestError.grade (e : RequestError) : ErrorCategory × Bool := (.of e, e.isExhaustion)

theorem RequestError.grade_cancelled {e : RequestError}
    (h : e.grade = RequestError.cancelled.grade) : e = .cancelled := by
  cases e with
  | cancelled => rfl
  | _ => simp [grade, ErrorCategory.of, isExhaustion] at h

theorem RequestError.grade_exhausted (n : Nat) {last last' : Option RequestError}
    (h : last.map grade = last'.map grade) :
    (retriesExhausted n last).grade = (retriesExhausted n last').grade := by
  cases last with
  | none =>
    cases last' with
    | none => rfl
    | some e' => cases h
  | some e =>
    cases last' with
    | none => cases h
    | some e' =>
      have hcategory : ErrorCategory.of e = .of e' := congrArg Prod.fst (Option.some.inj h)
      simp only [grade, ErrorCategory.of, hcategory, isExhaustion]

/-- The operation that a measurement is labelled with. -/
def Sample.operation? : Sample → Option Operation
  | .attempt op _ | .duration op _ _ | .retry op _ _ | .error op _ _ => some op
  | .transition _ => none

/-- All measurements that are labelled with an operation are labelled with this one. -/
def LabelledOnly (op : Operation) (samples : List Sample) : Prop :=
  ∀ x ∈ samples, ∀ o, x.operation? = some o → o = op

/-! ## Sessions side by side -/

namespace Session

/-- In two sessions the pools are the same, and so is whether the run is cancelled now and at which
moments from now on. -/
structure Beside (world world' : World) (s t : Session) : Prop where
  pool : s.pool = t.pool
  token : s.isCancelled = t.isCancelled
  errors : ∀ n, world.cancels (.error (s.journal.errors + n)) =
    world'.cancels (.error (t.journal.errors + n))
  pauses : ∀ n, world.cancels (.pause (s.journal.retries + n)) =
    world'.cancels (.pause (t.journal.retries + n))

/-- Since an earlier moment of each, two sessions recorded the same measurements, all of them under
one operation, and they are the same for what comes. -/
structure InStep (op : Operation) (world world' : World) (s₀ t₀ s t : Session) : Prop
    extends Beside world world' s t where
  samples : ∃ more, s.journal.samples = s₀.journal.samples ++ more ∧
    t.journal.samples = t₀.journal.samples ++ more ∧ LabelledOnly op more

variable {op : Operation} {world world' : World} {s₀ t₀ s t : Session}

theorem Beside.inStep (h : Beside world world' s t) (op : Operation) :
    InStep op world world' s t s t :=
  ⟨h, [], by simp, by simp, List.forall_mem_nil _⟩

theorem InStep.log (h : InStep op world world' s₀ t₀ s t) (e e' : Event) :
    InStep op world world' s₀ t₀ (s.log e) (t.log e') :=
  ⟨⟨h.pool, h.token, h.errors, h.pauses⟩, h.samples⟩

theorem InStep.interrupt (h : InStep op world world' s₀ t₀ s t) :
    InStep op world world' s₀ t₀ s.interrupt t.interrupt :=
  ⟨⟨h.pool, rfl, h.errors, h.pauses⟩, h.samples⟩

theorem InStep.hand (h : InStep op world world' s₀ t₀ s t) (x y : Exchange)
    (wire wire' : List Http.Request) :
    InStep op world world' s₀ t₀ (s.hand x wire) (t.hand y wire') :=
  ⟨⟨h.pool, h.token, h.errors, h.pauses⟩, h.samples⟩

theorem InStep.record (h : InStep op world world' s₀ t₀ s t) (collector : Option Collector)
    {samples : List Sample} (hsamples : LabelledOnly op samples) :
    InStep op world world' s₀ t₀ (s.record collector samples) (t.record collector samples) := by
  obtain ⟨more, hs, ht, hmore⟩ := h.samples
  refine ⟨⟨h.pool, h.token, h.errors, h.pauses⟩, more ++ Collector.keep collector samples, ?_, ?_, ?_⟩
  · simp [Session.record, hs]
  · simp [Session.record, ht]
  · refine List.forall_mem_append.mpr ⟨hmore, ?_⟩
    unfold Collector.keep
    split
    · exact hsamples
    · exact List.forall_mem_nil _

theorem InStep.take (h : InStep op world world' s₀ t₀ s t) :
    s.take? = none ∧ t.take? = none ∨
      ∃ conn s' t', s.take? = some (conn, s') ∧ t.take? = some (conn, t') ∧
        InStep op world world' s₀ t₀ s' t' := by
  unfold take?
  rw [h.pool]
  cases t.pool.choice? with
  | none => exact .inl ⟨rfl, rfl⟩
  | some choice =>
    exact .inr ⟨choice.slot.connection, _, _, rfl, rfl, ⟨rfl, h.token, h.errors, h.pauses⟩, h.samples⟩

theorem InStep.done (h : InStep op world world' s₀ t₀ s t) (step : PoolStep) {p : Pool} :
    InStep op world world' s₀ t₀ ({ s with pool := p }.done step) ({ t with pool := p }.done step) :=
  ⟨⟨rfl, h.token, h.errors, h.pauses⟩, h.samples⟩

theorem labelledOnly_transition (op : Operation) (status : HealthStatus) :
    LabelledOnly op [.transition status] := by
  rintro x hx o ho
  obtain rfl := List.mem_singleton.mp hx
  cases ho

theorem InStep.markDead (h : InStep op world world' s₀ t₀ s t) (collector : Option Collector)
    (c : Connection) :
    InStep op world world' s₀ t₀ (s.markDead collector c) (t.markDead collector c) := by
  unfold Session.markDead
  rw [h.pool]
  have hmark := h.done (.markedDead c) (p := t.pool.markDead c)
  simp only []
  split
  · exact hmark.log _ _
  · split
    · exact (hmark.log _ _).record collector (labelledOnly_transition op .dead)
    · exact hmark.log _ _

theorem InStep.markLive (h : InStep op world world' s₀ t₀ s t) (collector : Option Collector)
    (c : Connection) :
    InStep op world world' s₀ t₀ (s.markLive collector c) (t.markLive collector c) := by
  unfold Session.markLive
  rw [h.pool]
  have hmark := h.done (.markedLive c) (p := t.pool.markLive c)
  simp only []
  split
  · exact hmark.log _ _
  · split
    · exact hmark
    · exact (hmark.log _ _).record collector (labelledOnly_transition op .live)

end Session

/-- Results that neither measurements nor the loop over attempts tell apart. -/
inductive ResultsAlike {α : Type} (same : α → α → Prop) :
    Except RequestError α → Except RequestError α → Prop
  | ok {a a' : α} (h : same a a') : ResultsAlike same (.ok a) (.ok a')
  | error {e e' : RequestError} (h : e.grade = e'.grade) : ResultsAlike same (.error e) (.error e')

namespace Client

variable {c : Client} {op : Operation} {method : String} {world world' : World}
  {s₀ t₀ s t : Session}

/-- Two runs come to results that are not told apart, and their sessions are in step. -/
structure EndInStep {α : Type} (op : Operation) (world world' : World) (s₀ t₀ : Session)
    (same : α → α → Prop) (r r' : Except RequestError α × Session) : Prop where
  result : ResultsAlike same r.1 r'.1
  inStep : Session.InStep op world world' s₀ t₀ r.2 r'.2

theorem givesUp_inStep (h : Session.InStep op world world' s₀ t₀ s t) :
    c.givesUp s = c.givesUp t := by
  rw [givesUp, givesUp, h.token]

theorem labelledOnly_singleton (op : Operation) (x : Sample) (h : x.operation? = some op) :
    LabelledOnly op [x] := by
  rintro y hy o ho
  obtain rfl := List.mem_singleton.mp hy
  exact Option.some.inj (ho.symm.trans h)

theorem noteError_inStep (h : Session.InStep op world world' s₀ t₀ s t) {e e' : RequestError}
    (he : e.grade = e'.grade) :
    Session.InStep op world world' s₀ t₀ (c.noteError world op method e s)
      (c.noteError world' op method e' t) := by
  have hcategory : ErrorCategory.of e = .of e' := congrArg Prod.fst he
  have hrecorded := h.record c.collector
    (labelledOnly_singleton op (.error op method (.of e')) rfl)
  refine ⟨⟨h.pool, ?_, ?_, h.pauses⟩, ?_⟩
  · show (s.isCancelled || _) = (t.isCancelled || _)
    rw [h.token]
    exact congrArg _ (h.errors 1)
  · intro n
    have hn := h.errors (1 + n)
    rwa [← Nat.add_assoc, ← Nat.add_assoc] at hn
  · simp only [noteError, hcategory]
    exact hrecorded.samples

theorem noteRetry_inStep (h : Session.InStep op world world' s₀ t₀ s t) (number : Nat) :
    Session.InStep op world world' s₀ t₀ (c.noteRetry world op method number s)
      (c.noteRetry world' op method number t) := by
  have hrecorded := h.record c.collector
    (labelledOnly_singleton op (.retry op method number) rfl)
  refine ⟨⟨h.pool, ?_, h.errors, ?_⟩, hrecorded.samples⟩
  · show (s.isCancelled || _) = (t.isCancelled || _)
    rw [h.token]
    exact congrArg _ (h.pauses 1)
  · intro n
    have hn := h.pauses (1 + n)
    rwa [← Nat.add_assoc, ← Nat.add_assoc] at hn

/-! ## One attempt -/

theorem unanswered_inStep (h : Session.InStep op world world' s₀ t₀ s t) (conn : Connection)
    (url url' : Url) (failure failure' : Http.Failure) :
    EndInStep op world world' s₀ t₀ Eq (c.unanswered op method conn url failure s)
      (c.unanswered op method conn url' failure' t) where
  result := .error rfl
  inStep := (h.record c.collector
    (labelledOnly_singleton op (.duration op method none) rfl)).markDead c.collector conn

theorem answered_inStep (h : Session.InStep op world world' s₀ t₀ s t) (conn : Connection)
    (url url' final final' : Url) (status : Nat) (body : Option Bytes) :
    EndInStep op world world' s₀ t₀ Eq (c.answered conn url final status body s)
      (c.answered conn url' final' status body t) := by
  unfold answered
  split
  · exact ⟨.error rfl, h.markDead c.collector conn⟩
  · cases body with
    | some bytes => exact ⟨.ok rfl, h.markLive c.collector conn⟩
    | none => exact ⟨.error rfl, h.markDead c.collector conn⟩

theorem settle_inStep (h : Session.InStep op world world' s₀ t₀ s t) (watched : Bool)
    {x y : Exchange} (hconn : x.connection = y.connection) (halike : x.reply.Alike y.reply) :
    EndInStep op world world' s₀ t₀ Eq (c.settle watched op method x s)
      (c.settle watched op method y t) := by
  obtain ⟨conn, url, request, reply⟩ := x
  obtain ⟨_, url', request', reply'⟩ := y
  obtain rfl : conn = _ := hconn
  have hduration {s t : Session} (h : Session.InStep op world world' s₀ t₀ s t) (status : Nat) :=
    h.record c.collector
      (labelledOnly_singleton op (.duration op method (some status)) rfl)
  cases halike with
  | failed failure failure' => exact unanswered_inStep h conn url url' failure failure'
  | interrupted =>
    cases watched with
    | true => exact ⟨.error rfl, h.interrupt⟩
    | false => exact unanswered_inStep h.interrupt conn url url' _ _
  | answered status final final' body =>
    exact answered_inStep (hduration h status) conn url url' final final' status body
  | cut status final final' =>
    cases watched with
    | true => exact ⟨.error rfl, hduration h.interrupt status⟩
    | false => exact answered_inStep (hduration h.interrupt status) conn url url' final final' status none

theorem attempt_inStep (h : Session.InStep op world world' s₀ t₀ s t) (watched : Bool)
    (conn : Connection) (url url' : Url) {payload payload' : Option Bytes}
    (halike : (exchangeOf world s.journal.wire conn method url payload).reply.Alike
      (exchangeOf world' t.journal.wire conn method url' payload').reply) :
    EndInStep op world world' s₀ t₀ Eq (c.attempt world watched op conn method url payload s)
      (c.attempt world' watched op conn method url' payload' t) := by
  have hstarted := h.record c.collector
    (labelledOnly_singleton op (.attempt op method) rfl)
  rw [attempt_eq, attempt_eq]
  exact settle_inStep (hstarted.hand _ _ _ _) watched rfl halike

/-- On each connection two requests both have a URL or neither has. -/
def SameTargets (connections : List Connection) (path path' : String) (query query' : Option String) :
    Prop :=
  ∀ d ∈ connections, (target d.url path query).toBool = (target d.url path' query').toBool

variable {path path' : String} {query query' : Option String} {payload payload' : Option Bytes}

/-- Two requests on one connection both go to a URL, or both end in the same category of error. -/
theorem target_cases {base : String}
    (h : (target base path query).toBool = (target base path' query').toBool) :
    (∃ url url', target base path query = .ok url ∧ target base path' query' = .ok url') ∨
      ∃ message message', target base path query = .error (.invalidUrl message) ∧
        target base path' query' = .error (.invalidUrl message') := by
  cases hurl : target base path query with
  | ok url =>
    cases hurl' : target base path' query' with
    | ok url' => exact .inl ⟨url, url', rfl, rfl⟩
    | error e' => simp [hurl, hurl', Except.toBool] at h
  | error e =>
    cases hurl' : target base path' query' with
    | ok url' => simp [hurl, hurl', Except.toBool] at h
    | error e' =>
      obtain ⟨message, rfl⟩ := target_error hurl
      obtain ⟨message', rfl⟩ := target_error hurl'
      exact .inr ⟨message, message', rfl, rfl⟩

theorem prepare_inStep (h : Session.InStep op world world' s₀ t₀ s t)
    (htargets : SameTargets s.pool.connections path path' query query') (number : Nat) :
    EndInStep op world world' s₀ t₀ (fun aim aim' => aim.1 = aim'.1)
      (c.prepare world ⟨op, method, path, query, payload⟩ number s)
      (c.prepare world' ⟨op, method, path', query', payload'⟩ number t) := by
  unfold prepare
  rw [givesUp_inStep h]
  split
  · exact ⟨.error rfl, h⟩
  simp only []
  have hretry : Session.InStep op world world' s₀ t₀
      (if isRetry number then c.noteRetry world op method number s else s)
      (if isRetry number then c.noteRetry world' op method number t else t) := by
    split
    · exact noteRetry_inStep h number
    · exact h
  have hconnections :
      (if isRetry number then c.noteRetry world op method number s else s).pool.connections =
        s.pool.connections := by
    split <;> rfl
  generalize (if isRetry number then c.noteRetry world op method number s else s) = s₁
    at hretry hconnections ⊢
  generalize (if isRetry number then c.noteRetry world' op method number t else t) = t₁ at hretry ⊢
  rw [givesUp_inStep hretry]
  split
  · exact ⟨.error rfl, hretry⟩
  rcases hretry.take with ⟨hs, ht⟩ | ⟨conn, s₂, t₂, hs, ht, htaken⟩
  · rw [hs, ht]
    exact ⟨.error rfl, hretry⟩
  · have hmem : conn ∈ s.pool.connections :=
      hconnections ▸ Pool.replay_taken_mem (Session.did_take world hs).pool (List.mem_singleton_self _)
    rw [hs, ht]
    simp only []
    rcases target_cases (htargets conn hmem) with ⟨url, url', hurl, hurl'⟩ |
      ⟨message, message', hurl, hurl'⟩
    · have hlogged := htaken.log (.sending number c.maxRetries method url.text)
        (.sending number c.maxRetries method url'.text)
      simp only [hurl, hurl']
      rw [givesUp_inStep hlogged]
      split
      · exact ⟨.error rfl, hlogged⟩
      · exact ⟨.ok rfl, hlogged⟩
    · simp only [hurl, hurl']
      exact ⟨.error rfl, htaken⟩

theorem tryOn_inStep (h : Session.InStep op world world' s₀ t₀ s t) (number : Nat)
    (conn : Connection) (url url' : Url)
    (halike : (exchangeOf world s.journal.wire conn method url payload).reply.Alike
      (exchangeOf world' t.journal.wire conn method url' payload').reply) :
    EndInStep op world world' s₀ t₀ Eq
      (c.tryOn world ⟨op, method, path, query, payload⟩ number conn url s)
      (c.tryOn world' ⟨op, method, path', query', payload'⟩ number conn url' t) := by
  have hattempt := attempt_inStep (c := c) h c.carriesToken conn url url' halike
  cases hr : c.attempt world c.carriesToken op conn method url payload s with
  | mk r s₁ =>
  cases hr' : c.attempt world' c.carriesToken op conn method url' payload' t with
  | mk r' t₁ =>
  rw [hr, hr'] at hattempt
  obtain ⟨hresult, hstep⟩ := hattempt
  cases hresult with
  | ok hbytes =>
    obtain rfl := hbytes
    rw [tryOn_ok hr, tryOn_ok hr']
    refine ⟨.ok rfl, ?_⟩
    simp only []
    split
    · exact hstep.log _ _
    · exact hstep
  | @error e e' he =>
    by_cases hcancelled : e' = .cancelled
    · subst hcancelled
      obtain rfl := RequestError.grade_cancelled he
      rw [tryOn_cancelled hr, tryOn_cancelled hr']
      exact ⟨.error rfl, hstep⟩
    · have hcancelled' : e ≠ .cancelled := by
        rintro rfl
        exact hcancelled (RequestError.grade_cancelled he.symm)
      rw [tryOn_failed hcancelled' hr, tryOn_failed hcancelled hr']
      exact ⟨.error he, noteError_inStep (hstep.log _ _) he⟩

/-! ## A whole request -/

section

variable {call : Call} {left number : Nat} {last : Option RequestError} {conn : Connection}
  {url : Url} {s₁ : Session}

/-- A turn of the loop that comes to an exchange hands over just that, on one of the connections. -/
theorem turn_keeps (hprep : c.prepare world call number s = (.ok (conn, url), s₁)) :
    (c.tryOn world call number conn url s₁).2.pool.connections = s.pool.connections ∧
      (c.tryOn world call number conn url s₁).2.journal.sent = s.journal.sent ++
        [exchangeOf world s₁.journal.wire conn call.method url call.payload] := by
  have hends := prepare_ends c world call number s
  rw [hprep] at hends
  cases hends with
  | aimed _ hdid =>
    have hsent := hdid.handed
    rw [List.append_nil] at hsent
    refine ⟨?_, hsent ▸ c.tryOn_sent world call number conn url s₁⟩
    rw [← hdid.connections]
    have htried := tryOn_ends c world call number conn url s₁
    generalize c.tryOn world call number conn url s₁ = r at htried ⊢
    cases htried with
    | completed _ _ hdid' | interrupted _ _ hdid' => exact hdid'.connections

theorem sentSince_append {before after : Session} {sent : List Exchange}
    (h : after.journal.sent = before.journal.sent ++ sent) : after.sentSince before = sent := by
  rw [Session.sentSince, h, List.drop_left]

/-- Behind a failure come the attempts that are left. -/
theorem attempts_failed {s₂ : Session} {e : RequestError}
    (hprep : c.prepare world call number s = (.ok (conn, url), s₁))
    (htry : c.tryOn world call number conn url s₁ = (.error e, s₂)) (hne : e ≠ .cancelled) :
    c.attempts world call (left + 1) number last s =
        c.attempts world call left (number + 1) (some e) s₂ ∧
      (c.attempts world call (left + 1) number last s).2.sentSince s =
        exchangeOf world s₁.journal.wire conn call.method url call.payload ::
          (c.attempts world call left (number + 1) (some e) s₂).2.sentSince s₂ := by
  have hnext : c.attempts world call (left + 1) number last s =
      c.attempts world call left (number + 1) (some e) s₂ := by
    rw [attempts, hprep]
    simp only [htry]
  refine ⟨hnext, ?_⟩
  obtain ⟨hist, hran, -⟩ := attempts_course c world call left (number + 1) (some e) s₂
  have hsent := (turn_keeps hprep).2
  rw [htry] at hsent
  rw [hnext, sentSince_append hran.handed, sentSince_append]
  rw [hran.handed, hsent, List.append_assoc, List.singleton_append]

/-- An attempt that has a connection hands over its exchange first. -/
theorem attempts_sent (left : Nat) (last : Option RequestError)
    (hprep : c.prepare world call number s = (.ok (conn, url), s₁)) :
    ∃ rest, (c.attempts world call (left + 1) number last s).2.sentSince s =
      exchangeOf world s₁.journal.wire conn call.method url call.payload :: rest := by
  have hturn := sentSince_append (turn_keeps hprep).2
  cases htry : c.tryOn world call number conn url s₁ with
  | mk q s₂ =>
  rw [htry] at hturn
  have hended (h : c.attempts world call (left + 1) number last s = (q, s₂)) :
      ∃ rest, (c.attempts world call (left + 1) number last s).2.sentSince s =
        exchangeOf world s₁.journal.wire conn call.method url call.payload :: rest :=
    ⟨[], h ▸ hturn⟩
  cases q with
  | ok bytes => exact hended (by rw [attempts, hprep]; simp only [htry])
  | error e =>
    by_cases hne : e = .cancelled
    · subst hne
      exact hended (by rw [attempts, hprep]; simp only [htry])
    · exact ⟨_, (attempts_failed hprep htry hne).2⟩

end

/-- Attempts in step: if the exchanges of both requests come to the same, so do they. -/
theorem attempts_inStep (left number : Nat) {last last' : Option RequestError}
    (hlast : last.map RequestError.grade = last'.map RequestError.grade)
    (h : Session.InStep op world world' s₀ t₀ s t)
    (htargets : SameTargets s.pool.connections path path' query query')
    (hreplies : RepliesAlike
      ((c.attempts world ⟨op, method, path, query, payload⟩ left number last s).2.sentSince s)
      ((c.attempts world' ⟨op, method, path', query', payload'⟩ left number last' t).2.sentSince t)) :
    EndInStep op world world' s₀ t₀ Eq
      (c.attempts world ⟨op, method, path, query, payload⟩ left number last s)
      (c.attempts world' ⟨op, method, path', query', payload'⟩ left number last' t) := by
  induction left generalizing number last last' s t with
  | zero => exact ⟨.error (RequestError.grade_exhausted c.maxRetries hlast), h.log _ _⟩
  | succ left ih =>
    have hprepared : EndInStep op world world' s₀ t₀ (fun aim aim' => aim.1 = aim'.1)
        (c.prepare world ⟨op, method, path, query, payload⟩ number s)
        (c.prepare world' ⟨op, method, path', query', payload'⟩ number t) :=
      prepare_inStep h htargets number
    cases hprep : c.prepare world ⟨op, method, path, query, payload⟩ number s with
    | mk p s₁ =>
    cases hprep' : c.prepare world' ⟨op, method, path', query', payload'⟩ number t with
    | mk p' t₁ =>
    rw [hprep, hprep'] at hprepared
    obtain ⟨hresult, hstep⟩ := hprepared
    cases hresult with
    | error he =>
      rw [attempts, attempts, hprep, hprep']
      exact ⟨.error he, hstep⟩
    | @ok aim aim' haim =>
      obtain ⟨conn, url⟩ := aim
      obtain ⟨_, url'⟩ := aim'
      obtain rfl : conn = _ := haim
      obtain ⟨rest, hrest⟩ := attempts_sent left last hprep
      obtain ⟨rest', hrest'⟩ := attempts_sent left last' hprep'
      have hfirst := hreplies
      rw [hrest, hrest'] at hfirst
      have htried : EndInStep op world world' s₀ t₀ Eq
          (c.tryOn world ⟨op, method, path, query, payload⟩ number conn url s₁)
          (c.tryOn world' ⟨op, method, path', query', payload'⟩ number conn url' t₁) :=
        tryOn_inStep hstep number conn url url' hfirst.head
      cases htry : c.tryOn world ⟨op, method, path, query, payload⟩ number conn url s₁ with
      | mk q s₂ =>
      cases htry' : c.tryOn world' ⟨op, method, path', query', payload'⟩ number conn url' t₁ with
      | mk q' t₂ =>
      rw [htry, htry'] at htried
      obtain ⟨hresult, hstep₂⟩ := htried
      cases hresult with
      | ok hbytes =>
        rw [attempts, attempts, hprep, hprep']
        simp only [htry, htry']
        exact ⟨.ok hbytes, hstep₂⟩
      | @error e e' he =>
        by_cases hcancelled : e' = .cancelled
        · subst hcancelled
          obtain rfl := RequestError.grade_cancelled he
          rw [attempts, attempts, hprep, hprep']
          simp only [htry, htry']
          exact ⟨.error rfl, hstep₂⟩
        · have hcancelled' : e ≠ .cancelled := by
            rintro rfl
            exact hcancelled (RequestError.grade_cancelled he.symm)
          -- both go on, and what their exchanges come to is told by the replies behind the first
          obtain ⟨hnext, hsent⟩ := attempts_failed hprep htry hcancelled'
          obtain ⟨hnext', hsent'⟩ := attempts_failed hprep' htry' hcancelled
          have hkept := (turn_keeps hprep).1
          rw [htry] at hkept
          rw [hsent, hsent'] at hreplies
          rw [hnext, hnext']
          exact ih (number + 1) (congrArg some he) hstep₂ (hkept ▸ htargets) hreplies.tail

theorem conclude_inStep {r r' : Except RequestError Bytes × Session}
    (h : EndInStep op world world' s₀ t₀ Eq r r') :
    EndInStep op world world' s₀ t₀ Eq (c.conclude world op method r)
      (c.conclude world' op method r') := by
  obtain ⟨r, s⟩ := r
  obtain ⟨r', t⟩ := r'
  obtain ⟨hresult, hstep⟩ := h
  cases hresult with
  | ok hbytes => exact ⟨.ok hbytes, hstep⟩
  | @error e e' he =>
    refine ⟨.error he, ?_⟩
    have hexhausted : e.isExhaustion = e'.isExhaustion := congrArg Prod.snd he
    simp only [conclude, hexhausted]
    split
    · exact hstep
    · exact noteError_inStep hstep he

theorem conclude_sent (c : Client) (world : World) (op : Operation) (method : String)
    (r : Except RequestError Bytes × Session) :
    (c.conclude world op method r).2.journal.sent = r.2.journal.sent := by
  simpa using (conclude_ends c world op method r.1 r.2).2.handed

section

variable {params params' : Option Url.Params} {body body' : Option Body}

theorem requestAs_inStep (h : Session.InStep op world world' s₀ t₀ s t)
    (hbody : payloadOf body = .ok payload) (hbody' : payloadOf body' = .ok payload')
    (htargets : SameTargets s.pool.connections path path' (queryOf params) (queryOf params'))
    (hreplies : RepliesAlike ((c.requestAs world op method path params body s).2.sentSince s)
      ((c.requestAs world' op method path' params' body' t).2.sentSince t)) :
    EndInStep op world world' s₀ t₀ Eq (c.requestAs world op method path params body s)
      (c.requestAs world' op method path' params' body' t) := by
  simp only [requestAs, dispatch, hbody, hbody', Session.sentSince, conclude_sent] at hreplies ⊢
  exact conclude_inStep (attempts_inStep c.maxRetries 1 rfl h htargets hreplies)

/-- To read the same answer comes to the same. -/
theorem reading_inStep {α : Type} {read : Bytes → Except RequestError α}
    {r r' : Except RequestError Bytes × Session} (h : EndInStep op world world' s₀ t₀ Eq r r') :
    EndInStep op world world' s₀ t₀ Eq (c.reading world op method read r)
      (c.reading world' op method read r') := by
  obtain ⟨r, s⟩ := r
  obtain ⟨r', t⟩ := r'
  obtain ⟨hresult, hstep⟩ := h
  cases hresult with
  | error he => exact ⟨.error he, hstep⟩
  | @ok bytes _ hbytes =>
    obtain rfl := hbytes
    simp only [reading]
    cases read bytes with
    | ok a => exact ⟨.ok rfl, hstep⟩
    | error e => exact ⟨.error rfl, noteError_inStep hstep rfl⟩

end

/-! ## The URLs of requests on documents -/

theorem documentPath_head (index docType id : String) :
    ∃ later, (Url.documentPath index docType id).toList = '/' :: later := by
  obtain ⟨name, names, hnames⟩ := List.exists_cons_of_ne_nil (Url.components_ne_nil index docType id)
  rw [Url.documentPath, hnames, List.flatMap_cons, String.toList_ofList]
  exact ⟨_, rfl⟩

theorem target_toBool (base path : String) (query : Option String) :
    (target base path query).toBool =
      (Url.parseChars (base.toList ++ path.toList ++ queryTail query)).toBool := by
  cases hparse : Url.parseChars (base.toList ++ path.toList ++ queryTail query) with
  | ok url =>
    rw [target_eq_ok.mpr hparse]
    rfl
  | error fault =>
    cases query with
    | none =>
      simp only [queryTail, List.append_nil] at hparse
      simp [target, Url.parse, hparse, Except.toBool]
    | some q =>
      simp only [queryTail, List.append_assoc] at hparse
      simp [target, Url.parse, hparse, Except.toBool]

/-- Whether there is a URL for a request depends on the node only: no names and parameters make the
URL of a request on a document wrong, or right. -/
theorem target_accepted {raw base : String} (h : normalizeHost raw = .ok base)
    (index docType id index' docType' id' : String) (query query' : Option String) :
    (target base (Url.documentPath index docType id) query).toBool =
      (target base (Url.documentPath index' docType' id') query').toBool := by
  obtain ⟨v, hparse, hweb, -⟩ := normalizeHost_ok h
  obtain ⟨slashes, hcs, hslashes⟩ := normalizeHost_slashed h
  rw [Url.parse, hcs] at hparse
  obtain ⟨rest, henters⟩ := Url.Enters.of_slashed hparse (special_of_isWeb hweb) hslashes
  have hdecides (index docType id : String) (query : Option String) :
      (target base (Url.documentPath index docType id) query).toBool =
        (Url.parseAuthority v.scheme ((rest.dropWhile (Url.isSlash .special)).takeWhile
          (!Url.endsAuthority .special ·)) true).toBool := by
    obtain ⟨later, hpath⟩ := documentPath_head index docType id
    obtain ⟨back, hback⟩ := henters.parseChars_slash (later ++ queryTail query)
    rw [target_toBool, hpath, List.append_assoc, List.cons_append, hback]
    cases Url.parseAuthority v.scheme _ true <;> rfl
  rw [hdecides, hdecides]

theorem sameTargets_documents {connections : List Connection}
    (h : ∀ d ∈ connections, ∃ raw, normalizeHost raw = .ok d.url)
    (index docType id index' docType' id' : String) (query query' : Option String) :
    SameTargets connections (Url.documentPath index docType id)
      (Url.documentPath index' docType' id') query query' := by
  intro d hd
  obtain ⟨raw, hraw⟩ := h d hd
  exact target_accepted hraw _ _ _ _ _ _ query query'

/-! ## Operations on documents -/

/-- From two sessions on, runs record the same measurements, and each that is labelled with an
operation is labelled with this one. -/
def MeasuredAlike {α : Type} (label : String) (s t : Session) (r r' : Except RequestError α × Session) :
    Prop :=
  r.2.samplesSince s = r'.2.samplesSince t ∧
    ∀ x ∈ r.2.samplesSince s, ∀ o, x.operation? = some o → o.label = label

theorem EndInStep.measuredAlike {α : Type} {same : α → α → Prop}
    {r r' : Except RequestError α × Session} (h : EndInStep op world world' s t same r r') :
    MeasuredAlike op.label s t r r' := by
  obtain ⟨more, hs, ht, hmore⟩ := h.inStep.samples
  refine ⟨by simp [Session.samplesSince, hs, ht], fun x hx o ho => ?_⟩
  rw [Session.samplesSince, hs, List.drop_left] at hx
  rw [hmore x hx o ho]

theorem operation_inStep {α : Type} {read : Bytes → Except RequestError α}
    {params params' : Option Url.Params} {body body' : Option Body}
    (h : Session.InStep op world world' s₀ t₀ s t) (hbody : payloadOf body = .ok payload)
    (hbody' : payloadOf body' = .ok payload')
    (hpool : ∀ d ∈ s.pool.connections, ∃ raw, normalizeHost raw = .ok d.url)
    {index docType id index' docType' id' : String}
    (hreplies : RepliesAlike
      ((c.reading world op method read (c.requestAs world op method
        (Url.documentPath index docType id) params body s)).2.sentSince s)
      ((c.reading world' op method read (c.requestAs world' op method
        (Url.documentPath index' docType' id') params' body' t)).2.sentSince t)) :
    EndInStep op world world' s₀ t₀ Eq
      (c.reading world op method read (c.requestAs world op method
        (Url.documentPath index docType id) params body s))
      (c.reading world' op method read (c.requestAs world' op method
        (Url.documentPath index' docType' id') params' body' t)) := by
  rw [reading_sent, reading_sent] at hreplies
  exact reading_inStep (requestAs_inStep h hbody hbody'
    (sameTargets_documents hpool _ _ _ _ _ _ _ _) hreplies)

theorem payloadOf_some {body : Body} {bytes : Bytes} (h : body.encode = .ok bytes) :
    payloadOf (some body) = .ok (some bytes) := by
  rw [payloadOf, h]
  rfl

/-- **Names never reach what is measured.** Two calls of the same operation on documents, on pools in
the same state with nodes that a client has set, differ in their names, parameters and bodies. If
their exchanges come to the same, one after another, then both record the same measurements in the
same order, and each of these that has an operation has this one. -/
theorem names_never_measured (c : Client) (world world' : World) (s t : Session)
    (hbeside : Session.Beside world world' s t) (hnodes : s.Configured) :
    (∀ index docType id params body index' docType' id' params' body',
      (id = "" ↔ id' = "") → (∃ bytes, Body.encode body = .ok bytes) →
      (∃ bytes, Body.encode body' = .ok bytes) →
      let r := c.index world index docType id params body s
      let r' := c.index world' index' docType' id' params' body' t
      RepliesAlike (r.2.sentSince s) (r'.2.sentSince t) → MeasuredAlike "index" s t r r') ∧
    (∀ index docType id params index' docType' id' params',
      let r := c.delete world index docType id params s
      let r' := c.delete world' index' docType' id' params' t
      RepliesAlike (r.2.sentSince s) (r'.2.sentSince t) → MeasuredAlike "delete" s t r r') ∧
    (∀ index index',
      let r := c.createIndex world index s
      let r' := c.createIndex world' index' t
      RepliesAlike (r.2.sentSince s) (r'.2.sentSince t) → MeasuredAlike "create_index" s t r r') ∧
    (∀ index index',
      let r := c.refresh world index s
      let r' := c.refresh world' index' t
      RepliesAlike (r.2.sentSince s) (r'.2.sentSince t) → MeasuredAlike "refresh" s t r r') ∧
    ∀ index docType params index' docType' params',
      let r := c.search world index docType params s
      let r' := c.search world' index' docType' params' t
      RepliesAlike (r.2.sentSince s) (r'.2.sentSince t) → MeasuredAlike "search" s t r r' := by
  have hpool := hnodes.accepted
  refine ⟨?_, ?_, ?_, ?_, ?_⟩
  · rintro index docType id params body index' docType' id' params' body' hid ⟨bytes, hbody⟩
      ⟨bytes', hbody'⟩ r r' hreplies
    have hmethod : (if id' = "" then "POST" else "PUT") = if id = "" then "POST" else "PUT" := by
      simp only [hid]
    have hr' : r' = c.reading world' .index (if id = "" then "POST" else "PUT") Acknowledgement.read
        (c.requestAs world' .index (if id = "" then "POST" else "PUT")
          (Url.documentPath index' docType' id') params' (some body')
          (t.log (.indexing (if id = "" then "POST" else "PUT")
            (Url.documentPath index' docType' id')))) := by
      rw [← hmethod]
      rfl
    rw [hr'] at hreplies ⊢
    exact (operation_inStep ((hbeside.inStep .index).log _ _) (payloadOf_some hbody)
      (payloadOf_some hbody') hpool hreplies).measuredAlike
  · intro index docType id params index' docType' id' params' r r' hreplies
    exact (operation_inStep ((hbeside.inStep .delete).log _ _) rfl rfl hpool hreplies).measuredAlike
  · intro index index' r r' hreplies
    exact (operation_inStep ((hbeside.inStep .createIndex).log _ _) rfl rfl hpool
      hreplies).measuredAlike
  · intro index index' r r' hreplies
    exact (operation_inStep (hbeside.inStep .refresh) rfl rfl hpool hreplies).measuredAlike
  · intro index docType params index' docType' params' r r' hreplies
    exact (operation_inStep ((hbeside.inStep .search).log _ _) rfl rfl hpool hreplies).measuredAlike

/-- No node can be reached: to delete a document is measured as one failed attempt, whatever its
name is, even if this is dots that leave the path. -/
theorem names_never_measured_down :
    let c : Client := ⟨1, ⟨0⟩, some .enabled, false⟩
    let s := (setConnections ["http://a/"] none .start).2
    let r := c.delete .down "logs" "_doc" "alice" none s
    let r' := c.delete .down "" "a/b" ".." none s
    Session.Beside .down .down s s ∧ s.Configured ∧
      RepliesAlike (r.2.sentSince s) (r'.2.sentSince s) ∧ MeasuredAlike "delete" s s r r' ∧
      (Metric.requests.of (r'.2.samplesSince s)).length = 1 := by
  intro c s r r'
  have hbeside : Session.Beside .down .down s s := ⟨rfl, rfl, fun _ => rfl, fun _ => rfl⟩
  have hset : (setConnections ["http://a/"] none .start).1.toOption = some () := by
    decide +kernel
  have hreplaced : setConnections ["http://a/"] none .start = (.ok (), s) :=
    Prod.ext (ok_of_toOption hset) rfl
  have hnodes : s.Configured := .replaced hreplaced
  have hfailed (sent : List Exchange)
      (h : sent.all (fun x => match x.reply with | .failed _ => true | _ => false) = true) :
      ∀ (k : Nat) (x : Exchange), sent[k]? = some x → ∃ failure, x.reply = .failed failure := by
    intro k x hx
    have hall := List.all_eq_true.mp h x (List.mem_of_getElem? hx)
    split at hall
    next failure hreply => exact ⟨failure, hreply⟩
    · cases hall
  have hreplies : RepliesAlike (r.2.sentSince s) (r'.2.sentSince s) := by
    intro k x y hx hy
    obtain ⟨failure, hfailure⟩ := hfailed _ (by decide +kernel) k x hx
    obtain ⟨failure', hfailure'⟩ := hfailed _ (by decide +kernel) k y hy
    rw [hfailure, hfailure']
    exact .failed failure failure'
  exact ⟨hbeside, hnodes, hreplies,
    (names_never_measured c .down .down s s hbeside hnodes).2.1 "logs" "_doc" "alice" none
      "" "a/b" ".." none hreplies, by decide +kernel⟩

end Client

end ClusterOutput
