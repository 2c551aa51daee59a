/-
A run that was cancelled stays cancelled, whatever is done in it later
(`Deed.keeps_cancelled`). The clients that carry its token are silent from then
on: what they are asked for is cancelled before anything is sent, and the pool
stays as it is.

An attempt on a connection of the caller's choice is the exception. It does not
look at the token, and is made as if the run went on (`cancelled_silent`).
-/
import ClusterOutput.Client.Options
import ClusterOutput.Proofs.Client.Cancellation

namespace ClusterOutput

/-! ## What may be done in a session -/

/-- What is done in a session, by a client, by another user of its pool, or from outside. -/
inductive Deed where
  | ask (a : Ask)
  | index (c : Client) (index docType id : String) (params : Option Url.Params) (body : Body)
  | delete (c : Client) (index docType id : String) (params : Option Url.Params)
  | createIndex (c : Client) (index : String)
  | refresh (c : Client) (index : String)
  | search (c : Client) (index docType : String) (params : Option Url.Params)
  | perform (c : Client) (conn : Connection) (method : String) (url : Url) (payload : Option Bytes)
  /-- One step of a request that others come between. -/
  | step (a : Ask) (stage : Stage)
  | setMaxRetries (c : Client) (n : Nat)
  | setConnections (urls : List String) (credentials : Option Credentials)
  | pool (collector : Option Collector) (asked : PoolCall)
  | cancel

/-- The session after a deed. -/
def Deed.act (world : World) (s : Session) : Deed → Session
  | ask a => (a.serve world s).2
  | index c name docType id params body => (c.index world name docType id params body s).2
  | delete c name docType id params => (c.delete world name docType id params s).2
  | createIndex c name => (c.createIndex world name s).2
  | refresh c name => (c.refresh world name s).2
  | search c name docType params => (c.search world name docType params s).2
  | perform c conn method url payload => (c.perform world conn method url payload s).2
  | step a stage => (a.resume world (stage, s)).2
  | setMaxRetries c n => (c.setMaxRetries n s).2
  | setConnections urls credentials => (Client.setConnections urls credentials s).2
  | pool collector asked => (s.call collector asked).2
  | cancel => { s with isCancelled := true }

/-- The session after deeds, each of which meets a world of its own. -/
def Session.later (s : Session) : List (World × Deed) → Session
  | [] => s
  | (world, d) :: deeds => (d.act world s).later deeds

/-! ## The token stays fired -/

section

variable {world : World} {s s' : Session} {c : Client} {α : Type}

theorem Client.Tells.keeps_cancelled {r : Except RequestError α × Session}
    (h : c.Tells world s r) (hcancelled : s.isCancelled = true) : r.2.isCancelled = true := by
  obtain ⟨hist, -, hran⟩ := h
  exact hran.token hcancelled

theorem Ask.resume_did (a : Ask) (world : World) (stage : Stage) (s : Session) :
    ∃ steps sent, s.Did world steps sent (a.resume world (stage, s)).2 := by
  have hadvance := (a.advance_moves world stage s).did
  cases stage with
  | holding call left number conn url =>
    simp only [Ask.resume]
    split
    · obtain ⟨s', hdid, he⟩ := a.finish_ends world (.error .cancelled) s
      rw [he]
      exact ⟨_, _, hdid⟩
    · exact hadvance
  | asked | ready | finished => exact hadvance

theorem Ask.resume_keeps_cancelled (a : Ask) (stage : Stage) (hcancelled : s.isCancelled = true) :
    (a.resume world (stage, s)).2.isCancelled = true := by
  obtain ⟨steps, sent, hdid⟩ := a.resume_did world stage s
  exact hdid.token hcancelled

theorem Session.call_keeps_cancelled (world : World) (collector : Option Collector)
    (asked : PoolCall) (hcancelled : s.isCancelled = true) :
    (s.call collector asked).2.isCancelled = true := by
  cases asked with
  | take =>
    simp only [Session.call]
    split
    · exact hcancelled
    next c s' htake => exact (Session.did_take world htake).token hcancelled
  | markDead c => exact (Session.did_markDead world s collector c).token hcancelled
  | markLive c => exact (Session.did_markLive world s collector c).token hcancelled
  | setConnections | health | urls | size | liveCount => exact hcancelled

theorem Deed.keeps_cancelled (d : Deed) (world : World) (hcancelled : s.isCancelled = true) :
    (d.act world s).isCancelled = true := by
  cases d with
  | ask a => exact (Client.serve_tells a world s).keeps_cancelled hcancelled
  | index c | delete c | createIndex c | refresh c | search c =>
    exact (Client.reading_tells c world _ _ _ _ _ _).keeps_cancelled hcancelled
  | perform c conn method url payload =>
    obtain ⟨x, -, -, hdid⟩ := Client.perform_marks c world conn method url payload s
    exact hdid.token hcancelled
  | step a stage => exact a.resume_keeps_cancelled stage hcancelled
  | setMaxRetries c n =>
    simp only [Deed.act, Client.setMaxRetries]
    split <;> exact hcancelled
  | setConnections urls credentials =>
    simp only [Deed.act, Client.setConnections]
    split <;> exact hcancelled
  | pool collector asked => exact Session.call_keeps_cancelled world collector asked hcancelled
  | cancel => rfl

theorem Session.later_cancelled (deeds : List (World × Deed)) (hcancelled : s.isCancelled = true) :
    (s.later deeds).isCancelled = true := by
  induction deeds generalizing s with
  | nil => exact hcancelled
  | cons d deeds ih => exact ih (d.2.keeps_cancelled d.1 hcancelled)

end

namespace Client

/-! ## Clients of a cancelled run -/

/-- An operation was cancelled before it did anything: nothing was sent, and the pool is as it
was. -/
structure Silent {α : Type} (s : Session) (r : Except RequestError α × Session) : Prop where
  result : r.1 = .error .cancelled
  sent : r.2.journal.sent = s.journal.sent
  wire : r.2.journal.wire = s.journal.wire
  pool : r.2.pool = s.pool

section

variable {c : Client} {world : World} {op : Operation} {method path : String}
  {params : Option Url.Params} {body : Option Body} {payload : Option Bytes} {s : Session}

theorem requestAs_silent (world : World) (op : Operation) (method path : String)
    (params : Option Url.Params) (hup : c.givesUp s = true) (hretries : 1 ≤ c.maxRetries)
    (hbody : payloadOf body = .ok payload) :
    Silent s (c.requestAs world op method path params body s) := by
  obtain ⟨left, hleft⟩ : ∃ left, c.maxRetries = left + 1 := ⟨c.maxRetries - 1, by omega⟩
  have he : c.requestAs world op method path params body s =
      (.error .cancelled, c.noteError world op method .cancelled s) := by
    simp [requestAs, dispatch, hbody, hleft, attempts, prepare_up _ _ _ hup, conclude,
      RequestError.isExhaustion]
  rw [he]
  exact ⟨rfl, rfl, rfl, rfl⟩

/-- What reads an answer has none to read. -/
theorem Silent.reading {α : Type} {r : Except RequestError Bytes × Session} (h : Silent s r)
    (c : Client) (world : World) (op : Operation) (method : String)
    (read : Bytes → Except RequestError α) : Silent s (c.reading world op method read r) := by
  obtain ⟨r, s'⟩ := r
  obtain rfl : r = .error .cancelled := h.result
  exact ⟨rfl, h.sent, h.wire, h.pool⟩

end

/-- **A cancelled run is silent.** Once the run is cancelled, it is so in every later state. A client
that carries its token, and could make an attempt, then gives up whatever operation it is asked for
before anything is sent, if the body has an encoding, and leaves the pool as it is. An attempt on a
connection of the caller's choice is made all the same: its request is handed to the transport, the
result is what comes of it, and the connection is marked. -/
theorem cancelled_silent (c : Client) (world : World) (s₀ : Session) (deeds : List (World × Deed))
    (htoken : c.carriesToken = true) (hretries : 1 ≤ c.maxRetries)
    (hcancelled : s₀.isCancelled = true) :
    let s := s₀.later deeds
    s.isCancelled = true ∧
    (∀ method path params body payload, payloadOf body = .ok payload →
      Silent s (c.request world method path params body s)) ∧
    (∀ index docType id params body bytes, body.encode = .ok bytes →
      Silent s (c.index world index docType id params body s)) ∧
    (∀ index docType id params, Silent s (c.delete world index docType id params s)) ∧
    (∀ index, Silent s (c.createIndex world index s)) ∧
    (∀ index, Silent s (c.refresh world index s)) ∧
    (∀ index docType params, Silent s (c.search world index docType params s)) ∧
    ∀ conn method url payload, ∃ x : Exchange, x.IsOf method payload conn url ∧
      (c.perform world conn method url payload s).1 = x.outcome ∧
      (c.perform world conn method url payload s).1 ≠ .error .cancelled ∧
      s.Did world [x.mark] [x] (c.perform world conn method url payload s).2 := by
  intro s
  have hs : s.isCancelled = true := Session.later_cancelled deeds hcancelled
  have hup : ∀ e, c.givesUp (s.log e) = true := fun e => by simp [givesUp, htoken, Session.log, hs]
  have hlogged (e : Event) {op method path params body payload}
      (hbody : payloadOf body = .ok payload) :
      Silent s (c.requestAs world op method path params body (s.log e)) := by
    obtain ⟨hr, hsent, hwire, hpool⟩ :=
      requestAs_silent world op method path params (hup e) hretries hbody
    exact ⟨hr, hsent, hwire, hpool⟩
  have hup : c.givesUp s = true := by simp [givesUp, htoken, hs]
  refine ⟨hs, ?_, ?_, ?_, ?_, ?_, ?_, ?_⟩
  · intro method path params body payload hbody
    exact requestAs_silent world .request method path params hup hretries hbody
  · intro index docType id params body bytes hbody
    have hpayload : payloadOf (some body) = .ok (some bytes) := by simp [payloadOf, hbody, Except.map]
    exact (hlogged _ hpayload).reading c world _ _ _
  · intro index docType id params
    exact (hlogged _ rfl).reading c world _ _ _
  · intro index
    exact (hlogged _ rfl).reading c world _ _ _
  · intro index
    exact (requestAs_silent world _ _ _ _ hup hretries rfl).reading c world _ _ _
  · intro index docType params
    exact (hlogged _ rfl).reading c world _ _ _
  · intro conn method url payload
    obtain ⟨x, hx, hr, hdid⟩ := perform_marks c world conn method url payload s
    refine ⟨x, hx, hr, ?_, hdid⟩
    rw [hr]
    exact fun hout => Exchange.ne_cancelled hout rfl

/-- A client that was given the token is asked for a search when the run is cancelled and its nodes
were replaced: nothing is sent to the new one. -/
theorem cancelled_silent_replaced :
    let c := { patient with carriesToken := false }.withToken
    let s₀ : Session := { Session.twoNodes with isCancelled := true }
    let deeds : List (World × Deed) := [(.halfDown, .setConnections ["http://b"] none)]
    let r := c.request .halfDown "GET" "/_search" none none (s₀.later deeds)
    c.carriesToken = true ∧ 1 ≤ c.maxRetries ∧ s₀.isCancelled = true ∧
      r.1 = .error .cancelled ∧ r.2.journal.sent = [] ∧ r.2.pool.urls = ["http://b"] := by
  intro c s₀ deeds r
  have htoken : c.carriesToken = true := rfl
  have hretries : 1 ≤ c.maxRetries := by decide
  have hcancelled : s₀.isCancelled = true := rfl
  obtain ⟨hr, hsent, -, hpool⟩ :=
    (cancelled_silent c .halfDown s₀ deeds htoken hretries hcancelled).2.1
      "GET" "/_search" none none none rfl
  have hset : (s₀.later deeds).journal.sent = [] ∧ (s₀.later deeds).pool.urls = ["http://b"] := by
    decide +kernel
  exact ⟨htoken, hretries, hcancelled, hr, hsent.trans hset.1,
    (congrArg Pool.urls hpool).trans hset.2⟩

/-- The run was cancelled, and its client carries the token: an attempt on a connection of the
caller's choice is made all the same, and answered. -/
theorem perform_unsilenced :
    let s : Session :=
      { Session.start.setConnections ["http://es1:9200"] none with isCancelled := true }
    let body := Utf8.encode "still sent"
    let world : World := ⟨.scripted [.answer 200 body none true], fun _ => false⟩
    patient.carriesToken = true ∧ 1 ≤ patient.maxRetries ∧ s.isCancelled = true ∧
      ∃ url, Url.parse "http://es1:9200/" = .ok url ∧
        let r := patient.perform world ⟨0, "http://es1:9200", none⟩ "GET" url none s
        r.1 = .ok body ∧ (r.2.sentSince s).length = 1 := by
  intro s body world
  have hsends : (Url.parse "http://es1:9200/").toOption.map (fun url =>
      let r := patient.perform world ⟨0, "http://es1:9200", none⟩ "GET" url none s
      (r.1.toOption, (r.2.sentSince s).length)) = some (some body, 1) := by
    decide +kernel
  obtain ⟨url, hurl, hr⟩ := Option.map_eq_some_iff.mp hsends
  obtain ⟨hr, hlen⟩ := Prod.mk.inj hr
  exact ⟨rfl, by decide, rfl, url, ok_of_toOption hurl, ok_of_toOption hr, hlen⟩

end Client

end ClusterOutput
