/-
Two runs side by side whose sessions differ in passwords only. They stay so: every
request and every operation of a client comes to the same result in both, notes
the same events and sends the same requests, apart from what authorizes them
(`requestAs_alike`, `reading_alike`).
-/
import ClusterOutput.Client.Documents
import ClusterOutput.Client.Options
import ClusterOutput.Proofs.Client.Settle
import ClusterOutput.Proofs.Config.Concealed
import ClusterOutput.Proofs.Http.Anonymous

namespace ClusterOutput

/-- Sessions that differ in passwords only, and in what authorizes the requests sent. -/
structure Session.Alike (s t : Session) : Prop where
  pool : s.pool.concealed = t.pool.concealed
  token : s.isCancelled = t.isCancelled
  sent : Http.WiresAlike (s.journal.sent.map (·.request)) (t.journal.sent.map (·.request))
  wire : Http.WiresAlike s.journal.wire t.journal.wire
  samples : s.journal.samples = t.journal.samples
  events : s.journal.events = t.journal.events
  errors : s.journal.errors = t.journal.errors
  retries : s.journal.retries = t.journal.retries

/-- Worlds that are the same for requests that differ in their authorization only. -/
structure World.Alike (world world' : World) : Prop where
  network : world.network.Alike world'.network
  cancels : world.cancels = world'.cancels

/-- Two runs come to the same, and leave sessions that differ in passwords only. -/
structure EndAlike {α : Type} (r r' : α × Session) : Prop where
  result : r.1 = r'.1
  session : r.2.Alike r'.2

theorem EndAlike.pair {α : Type} {r r' : α × Session} (h : EndAlike r r') :
    ∃ a s t, r = (a, s) ∧ r' = (a, t) ∧ s.Alike t :=
  ⟨r.1, r.2, r'.2, rfl, Prod.ext h.result.symm rfl, h.session⟩

namespace Session

variable {s t : Session} {world world' : World} {c c' : Connection}

theorem Alike.refl (s : Session) : s.Alike s := ⟨rfl, rfl, rfl, rfl, rfl, rfl, rfl, rfl⟩

theorem Alike.log (h : s.Alike t) (e : Event) : (s.log e).Alike (t.log e) :=
  ⟨h.pool, h.token, h.sent, h.wire, h.samples, congrArg (· ++ [e]) h.events, h.errors, h.retries⟩

theorem Alike.logIf (h : s.Alike t) (p : Prop) [Decidable p] (e : Event) :
    (if p then s.log e else s).Alike (if p then t.log e else t) := by
  split
  · exact h.log e
  · exact h

theorem Alike.record (h : s.Alike t) (collector : Option Collector) (samples : List Sample) :
    (s.record collector samples).Alike (t.record collector samples) :=
  ⟨h.pool, h.token, h.sent, h.wire, congrArg (· ++ Collector.keep collector samples) h.samples,
    h.events, h.errors, h.retries⟩

theorem Alike.interrupt (h : s.Alike t) : s.interrupt.Alike t.interrupt :=
  ⟨h.pool, rfl, h.sent, h.wire, h.samples, h.events, h.errors, h.retries⟩

theorem Alike.hand (h : s.Alike t) {x y : Exchange}
    (hrequest : x.request.anonymous = y.request.anonymous) {wire wire' : List Http.Request}
    (hwire : Http.WiresAlike wire wire') : (s.hand x wire).Alike (t.hand y wire') := by
  refine ⟨h.pool, h.token, ?_, hwire, h.samples, h.events, h.errors, h.retries⟩
  simp only [Session.hand, Http.WiresAlike, List.map_append, List.map_singleton, hrequest]
  exact congrArg (· ++ [y.request.anonymous]) h.sent

/-- The pool of each session changes. -/
theorem Alike.done (h : s.Alike t) {p q : Pool} (hpool : p.concealed = q.concealed)
    (step step' : PoolStep) :
    ({ s with pool := p }.done step).Alike ({ t with pool := q }.done step') :=
  ⟨hpool, h.token, h.sent, h.wire, h.samples, h.events, h.errors, h.retries⟩

theorem choiceEvent_concealed (choice : Pool.Choice) :
    choiceEvent choice.concealed = choiceEvent choice := by
  cases choice <;> rfl

theorem choice_connection_concealed (choice : Pool.Choice) :
    choice.concealed.slot.connection = choice.slot.connection.concealed := by
  cases choice <;> rfl

theorem Alike.take (h : s.Alike t) :
    s.take? = none ∧ t.take? = none ∨
      ∃ conn conn' s' t', s.take? = some (conn, s') ∧ t.take? = some (conn', t') ∧
        conn.concealed = conn'.concealed ∧ s'.Alike t' := by
  have hchoice : s.pool.choice?.map (·.concealed) = t.pool.choice?.map (·.concealed) := by
    rw [← Pool.choice?_concealed, ← Pool.choice?_concealed, h.pool]
  unfold take?
  cases hs : s.pool.choice? with
  | none =>
    cases ht : t.pool.choice? with
    | none => exact .inl ⟨rfl, rfl⟩
    | some choice => simp [hs, ht] at hchoice
  | some choice =>
    cases ht : t.pool.choice? with
    | none => simp [hs, ht] at hchoice
    | some choice' =>
      rw [hs, ht, Option.map_some, Option.map_some, Option.some_inj] at hchoice
      have hevent : choiceEvent choice = choiceEvent choice' := by
        rw [← choiceEvent_concealed, hchoice, choiceEvent_concealed]
      have hafter : (s.pool.after choice).concealed = (t.pool.after choice').concealed := by
        rw [← Pool.after_concealed, ← Pool.after_concealed, h.pool, hchoice]
      refine .inr ⟨_, _, _, _, rfl, rfl, ?_, ?_⟩
      · rw [← choice_connection_concealed, hchoice, choice_connection_concealed]
      · refine ⟨hafter, h.token, h.sent, h.wire, h.samples, ?_, h.errors, h.retries⟩
        show s.journal.events ++ [choiceEvent choice] = t.journal.events ++ [choiceEvent choice']
        rw [h.events, hevent]

theorem Alike.setConnections (h : s.Alike t) (urls : List String)
    {credentials credentials' : Option Credentials}
    (hcredentials : credentials.map (·.concealed) = credentials'.map (·.concealed)) :
    (s.setConnections urls credentials).Alike (t.setConnections urls credentials') := by
  have hpool : (s.pool.setConnections urls credentials).concealed =
      (t.pool.setConnections urls credentials').concealed := by
    rw [← Pool.setConnections_concealed, ← Pool.setConnections_concealed, h.pool, hcredentials]
  have hsome : credentials.isSome = credentials'.isSome := by
    simpa using congrArg Option.isSome hcredentials
  refine ⟨hpool, h.token, h.sent, h.wire, h.samples, ?_, h.errors, h.retries⟩
  show s.journal.events ++ [_] = t.journal.events ++ [_]
  rw [h.events, hsome]

/-- The slots of connections that differ in their passwords. -/
theorem slot?_alike (h : s.Alike t) (hconn : c.concealed = c'.concealed) :
    (s.pool.slot? c).map (·.concealed) = (t.pool.slot? c').map (·.concealed) := by
  rw [← Pool.slot?_concealed, ← Pool.slot?_concealed, h.pool, hconn]

theorem url_of_concealed (h : c.concealed = c'.concealed) : c.url = c'.url :=
  congrArg (·.url) h

theorem Alike.markDead (h : s.Alike t) (collector : Option Collector)
    (hconn : c.concealed = c'.concealed) :
    (s.markDead collector c).Alike (t.markDead collector c') := by
  have hpool : (s.pool.markDead c).concealed = (t.pool.markDead c').concealed := by
    rw [← Pool.markDead_concealed, ← Pool.markDead_concealed, h.pool, hconn]
  have hmarked := h.done hpool (.markedDead c) (.markedDead c')
  have hslot := slot?_alike h hconn
  have hclock : s.pool.clock = t.pool.clock := by
    simpa [Pool.concealed] using congrArg (·.clock) h.pool
  have hurl : c.url = c'.url := url_of_concealed hconn
  unfold Session.markDead
  simp only [hurl, hclock]
  cases hs : s.pool.slot? c with
  | none =>
    cases ht : t.pool.slot? c' with
    | none => exact hmarked.log _
    | some slot => simp [hs, ht] at hslot
  | some slot =>
    cases ht : t.pool.slot? c' with
    | none => simp [hs, ht] at hslot
    | some slot' =>
      rw [hs, ht, Option.map_some, Option.map_some, Option.some_inj] at hslot
      have hhealth : slot.health = slot'.health := by
        simpa [Slot.concealed] using congrArg (·.health) hslot
      simp only [hhealth]
      split
      · exact (hmarked.log _).record collector _
      · exact hmarked.log _

theorem Alike.markLive (h : s.Alike t) (collector : Option Collector)
    (hconn : c.concealed = c'.concealed) :
    (s.markLive collector c).Alike (t.markLive collector c') := by
  have hpool : (s.pool.markLive c).concealed = (t.pool.markLive c').concealed := by
    rw [← Pool.markLive_concealed, ← Pool.markLive_concealed, h.pool, hconn]
  have hmarked := h.done hpool (.markedLive c) (.markedLive c')
  have hslot := slot?_alike h hconn
  have hurl : c.url = c'.url := url_of_concealed hconn
  unfold Session.markLive
  simp only [hurl]
  cases hs : s.pool.slot? c with
  | none =>
    cases ht : t.pool.slot? c' with
    | none => exact hmarked.log _
    | some slot => simp [hs, ht] at hslot
  | some slot =>
    cases ht : t.pool.slot? c' with
    | none => simp [hs, ht] at hslot
    | some slot' =>
      rw [hs, ht, Option.map_some, Option.map_some, Option.some_inj] at hslot
      have hhealth : slot.health = slot'.health := by
        simpa [Slot.concealed] using congrArg (·.health) hslot
      simp only [hhealth]
      split
      · exact hmarked
      · exact (hmarked.log _).record collector _

end Session

namespace Client

variable {c : Client} {op : Operation} {method : String} {world world' : World} {s t : Session}
  {conn conn' : Connection}

theorem givesUp_alike (h : s.Alike t) : c.givesUp s = c.givesUp t := by
  rw [givesUp, givesUp, h.token]

theorem noteError_alike (hworld : world.Alike world') (h : s.Alike t) (e : RequestError) :
    (c.noteError world op method e s).Alike (c.noteError world' op method e t) := by
  have hrecorded := h.record c.collector [.error op method (.of e)]
  refine ⟨h.pool, ?_, h.sent, h.wire, hrecorded.samples, h.events, congrArg (· + 1) h.errors,
    h.retries⟩
  show (s.isCancelled || world.cancels (.error (s.journal.errors + 1))) =
    (t.isCancelled || world'.cancels (.error (t.journal.errors + 1)))
  rw [h.token, hworld.cancels, h.errors]

theorem noteRetry_alike (hworld : world.Alike world') (h : s.Alike t) (number : Nat) :
    (c.noteRetry world op method number s).Alike (c.noteRetry world' op method number t) := by
  have hrecorded := h.record c.collector [.retry op method number]
  refine ⟨h.pool, ?_, h.sent, h.wire, hrecorded.samples, h.events, h.errors,
    congrArg (· + 1) h.retries⟩
  show (s.isCancelled || world.cancels (.pause (s.journal.retries + 1))) =
    (t.isCancelled || world'.cancels (.pause (t.journal.retries + 1)))
  rw [h.token, hworld.cancels, h.retries]

/-! ## One attempt -/

theorem unanswered_alike (h : s.Alike t) (hconn : conn.concealed = conn'.concealed) (url : Url)
    (failure : Http.Failure) :
    EndAlike (c.unanswered op method conn url failure s)
      (c.unanswered op method conn' url failure t) :=
  ⟨rfl, (h.record c.collector _).markDead c.collector hconn⟩

theorem answered_alike (h : s.Alike t) (hconn : conn.concealed = conn'.concealed)
    (url final : Url) (status : Nat) (body : Option Bytes) :
    EndAlike (c.answered conn url final status body s)
      (c.answered conn' url final status body t) := by
  unfold answered
  split
  · exact ⟨rfl, h.markDead c.collector hconn⟩
  · cases body with
    | some bytes => exact ⟨rfl, h.markLive c.collector hconn⟩
    | none => exact ⟨rfl, h.markDead c.collector hconn⟩

/-- The exchanges differ in passwords only. -/
structure ExchangesAlike (x y : Exchange) : Prop where
  connection : x.connection.concealed = y.connection.concealed
  url : x.url = y.url
  request : x.request.anonymous = y.request.anonymous
  reply : x.reply = y.reply

theorem settle_alike (h : s.Alike t) (watched : Bool) {x y : Exchange} (hx : ExchangesAlike x y) :
    EndAlike (c.settle watched op method x s) (c.settle watched op method y t) := by
  unfold settle
  rw [hx.reply, hx.url, Http.Request.url_eq hx.request]
  split
  · split
    · exact ⟨rfl, h.interrupt⟩
    · exact unanswered_alike h.interrupt hx.connection _ _
  · exact unanswered_alike h hx.connection _ _
  · exact answered_alike (h.record c.collector _) hx.connection _ _ _ _
  · split
    · exact ⟨rfl, h.interrupt.record c.collector _⟩
    · exact answered_alike (h.interrupt.record c.collector _) hx.connection _ _ _ _

theorem attempt_alike (hworld : world.Alike world') (h : s.Alike t) (watched : Bool)
    (hconn : conn.concealed = conn'.concealed) (url : Url) (payload : Option Bytes) :
    EndAlike (c.attempt world watched op conn method url payload s)
      (c.attempt world' watched op conn' method url payload t) := by
  have hrequest := Http.Request.make_anonymous method url conn.credentials conn'.credentials payload
  obtain ⟨hreply, hwire⟩ := Http.send_alike hworld.network h.wire hrequest
  rw [attempt_eq, attempt_eq]
  refine settle_alike ((h.record c.collector _).hand ?_ hwire) watched ⟨hconn, rfl, ?_, hreply⟩
  · exact hrequest
  · exact hrequest

/-! ## A whole request -/

/-- Connections that differ in passwords only, and one URL for both. -/
structure AimsAlike (aim aim' : Connection × Url) : Prop where
  connection : aim.1.concealed = aim'.1.concealed
  url : aim.2 = aim'.2

theorem prepare_alike (hworld : world.Alike world') (h : s.Alike t) (call : Call) (number : Nat) :
    Agree AimsAlike (c.prepare world call number s).1 (c.prepare world' call number t).1 ∧
      (c.prepare world call number s).2.Alike (c.prepare world' call number t).2 := by
  unfold prepare
  rw [givesUp_alike h]
  split
  · exact ⟨.error _, h⟩
  simp only []
  have hretry : (if isRetry number then
      c.noteRetry world call.operation call.method number s else s).Alike
      (if isRetry number then c.noteRetry world' call.operation call.method number t else t) := by
    split
    · exact noteRetry_alike hworld h number
    · exact h
  generalize (if isRetry number then c.noteRetry world call.operation call.method number s else s) = s₁
    at hretry ⊢
  generalize (if isRetry number then c.noteRetry world' call.operation call.method number t else t) = t₁
    at hretry ⊢
  rw [givesUp_alike hretry]
  split
  · exact ⟨.error _, hretry⟩
  rcases hretry.take with ⟨hs, ht⟩ | ⟨conn, conn', s₂, t₂, hs, ht, hconn, htaken⟩
  · rw [hs, ht]
    exact ⟨.error _, hretry⟩
  · rw [hs, ht]
    simp only [Session.url_of_concealed hconn]
    split
    · exact ⟨.error _, htaken⟩
    next url _ =>
      have hlogged := htaken.log (.sending number c.maxRetries call.method url.text)
      rw [givesUp_alike hlogged]
      split
      · exact ⟨.error _, hlogged⟩
      · exact ⟨.ok ⟨hconn, rfl⟩, hlogged⟩

theorem tryOn_alike (hworld : world.Alike world') (h : s.Alike t) (call : Call) (number : Nat)
    (hconn : conn.concealed = conn'.concealed) (url : Url) :
    EndAlike (c.tryOn world call number conn url s) (c.tryOn world' call number conn' url t) := by
  have hattempted : EndAlike
      (c.attempt world c.carriesToken call.operation conn call.method url call.payload s)
      (c.attempt world' c.carriesToken call.operation conn' call.method url call.payload t) :=
    attempt_alike hworld h c.carriesToken hconn url call.payload
  obtain ⟨r, s₁, t₁, ha, ha', hattempted⟩ := hattempted.pair
  unfold tryOn
  rw [ha, ha']
  cases r with
  | ok bytes => exact ⟨rfl, hattempted.logIf _ _⟩
  | error e =>
    cases e with
    | cancelled => exact ⟨rfl, hattempted⟩
    | _ =>
      refine ⟨rfl, noteError_alike hworld ?_ _⟩
      rw [Session.url_of_concealed hconn]
      exact hattempted.log _

theorem attempts_alike (hworld : world.Alike world') (call : Call) (left : Nat) :
    ∀ (number : Nat) (last : Option RequestError) (s t : Session), s.Alike t →
      EndAlike (c.attempts world call left number last s)
        (c.attempts world' call left number last t) := by
  induction left with
  | zero => exact fun _ _ _ _ h => ⟨rfl, h.log _⟩
  | succ left ih =>
    intro number last s t h
    obtain ⟨haims, hprepared⟩ := prepare_alike (c := c) hworld h call number
    unfold attempts
    cases hp : c.prepare world call number s with
    | mk aim s₁ =>
    cases hp' : c.prepare world' call number t with
    | mk aim' t₁ =>
    rw [hp, hp'] at haims hprepared
    cases haims with
    | error e => exact ⟨rfl, hprepared⟩
    | @ok aim aim' haim =>
      obtain ⟨conn, url⟩ := aim
      obtain ⟨conn', _⟩ := aim'
      obtain ⟨hconn, rfl⟩ := haim
      obtain ⟨r, s₂, t₂, htry, htry', htried⟩ :=
        (tryOn_alike (c := c) hworld hprepared call number hconn url).pair
      simp only [htry, htry']
      cases r with
      | ok bytes => exact ⟨rfl, htried⟩
      | error e =>
        cases e with
        | cancelled => exact ⟨rfl, htried⟩
        | _ => exact ih _ _ _ _ htried

theorem requestAs_alike (hworld : world.Alike world') (h : s.Alike t) (path : String)
    (params : Option Url.Params) (body : Option Body) :
    EndAlike (c.requestAs world op method path params body s)
      (c.requestAs world' op method path params body t) := by
  have hdispatched : EndAlike (c.dispatch world op method path params body s)
      (c.dispatch world' op method path params body t) := by
    unfold dispatch
    cases payloadOf body with
    | error e => exact ⟨rfl, h⟩
    | ok payload => exact attempts_alike hworld _ _ _ _ _ _ h
  obtain ⟨r, s₁, t₁, hr, hr', hended⟩ := hdispatched.pair
  unfold requestAs
  rw [hr, hr']
  cases r with
  | ok bytes => exact ⟨rfl, hended⟩
  | error e =>
    refine ⟨rfl, ?_⟩
    simp only [conclude]
    split
    · exact hended
    · exact noteError_alike hworld hended e

theorem reading_alike {α : Type} (hworld : world.Alike world')
    {r r' : Except RequestError Bytes × Session} (h : EndAlike r r')
    (read : Bytes → Except RequestError α) :
    EndAlike (c.reading world op method read r) (c.reading world' op method read r') := by
  obtain ⟨r, s, t, rfl, rfl, hended⟩ := h.pair
  cases r with
  | error e => exact ⟨rfl, hended⟩
  | ok bytes =>
    simp only [reading]
    cases read bytes with
    | ok a => exact ⟨rfl, hended⟩
    | error e => exact ⟨rfl, noteError_alike hworld hended e⟩

/-! ## Operations -/

theorem index_alike (hworld : world.Alike world') (h : s.Alike t) (index docType id : String)
    (params : Option Url.Params) (body : Body) :
    EndAlike (c.index world index docType id params body s)
      (c.index world' index docType id params body t) :=
  reading_alike hworld (requestAs_alike hworld (h.log _) _ _ _) _

theorem delete_alike (hworld : world.Alike world') (h : s.Alike t) (index docType id : String)
    (params : Option Url.Params) :
    EndAlike (c.delete world index docType id params s)
      (c.delete world' index docType id params t) :=
  reading_alike hworld (requestAs_alike hworld (h.log _) _ _ _) _

theorem createIndex_alike (hworld : world.Alike world') (h : s.Alike t) (index : String) :
    EndAlike (c.createIndex world index s) (c.createIndex world' index t) :=
  reading_alike hworld (requestAs_alike hworld (h.log _) _ _ _) _

theorem refresh_alike (hworld : world.Alike world') (h : s.Alike t) (index : String) :
    EndAlike (c.refresh world index s) (c.refresh world' index t) :=
  reading_alike hworld (requestAs_alike hworld h _ _ _) _

theorem search_alike (hworld : world.Alike world') (h : s.Alike t) (index docType : String)
    (params : Option Url.Params) :
    EndAlike (c.search world index docType params s) (c.search world' index docType params t) :=
  reading_alike hworld (requestAs_alike hworld (h.log _) _ _ _) _

end Client

/-! ## Building a client -/

/-- Options with any password, always the same. -/
def ClientOptions.concealed (o : ClientOptions) : ClientOptions :=
  { o with credentials := o.credentials.map (·.concealed) }

/-- The client is the same, and the sessions differ in passwords only. -/
structure BuiltAlike (made made' : Client × Session) : Prop where
  client : made.1 = made'.1
  session : made.2.Alike made'.2

theorem ClientOptions.build_alike {o o' : ClientOptions} (ho : o.concealed = o'.concealed)
    {s t : Session} (h : s.Alike t) :
    Agree BuiltAlike (o.build s) (o'.build t) := by
  obtain ⟨hosts, credentials, skipVerify, timeout, connectTimeout, maxRetries, backoff, collector,
    token⟩ := o
  obtain ⟨_, credentials', _, _, _, _, _, _, _⟩ := o'
  simp only [concealed, ClientOptions.mk.injEq] at ho
  obtain ⟨rfl, hcredentials, rfl, rfl, rfl, rfl, rfl, rfl, rfl⟩ := ho
  unfold ClientOptions.build
  simp only
  cases normalizeHosts hosts with
  | error e => exact .error e
  | ok hosts => exact .ok ⟨rfl, ((h.logIf _ _).logIf _ _).setConnections hosts hcredentials⟩

end ClusterOutput
