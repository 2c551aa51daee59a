/-
What a request hands to the transport. Its body is encoded once, and its path and
query are fixed; so its attempts differ in their connections only, whichever
these are and whatever others do to the pool between two of them (`sent_alike`).

What says who is asking is the connection's: its credentials, and the user name
and the password that its URL carries.
-/
import ClusterOutput.Proofs.Client.Marks
import ClusterOutput.Proofs.Client.Settle
import ClusterOutput.Proofs.Pool.RoundRobin

namespace ClusterOutput

/-- The header that a URL with a user name or a password calls for. -/
def Url.authorization (url : Url) : List String :=
  (Http.userinfo? url).toList.map fun u => basicAuthorization u.1 (u.2.getD "")

/-- The header that credentials call for. -/
def Connection.authorization (c : Connection) : List String :=
  c.credentials.toList.map fun u => basicAuthorization u.username u.password.reveal

theorem Http.Request.eq_of_parts {r r' : Request} (hmethod : r.method = r'.method)
    (hurl : r.url = r'.url) (haccept : r.headers.accept = r'.headers.accept)
    (htype : r.headers.contentType = r'.headers.contentType)
    (hauth : r.headers.authorization = r'.headers.authorization) (hbody : r.body = r'.body) :
    r = r' := by
  obtain ⟨method, url, ⟨accept, contentType, authorization⟩, body⟩ := r
  obtain ⟨method', url', ⟨accept', contentType', authorization'⟩, body'⟩ := r'
  obtain rfl : method = method' := hmethod
  obtain rfl : url = url' := hurl
  obtain rfl : accept = accept' := haccept
  obtain rfl : contentType = contentType' := htype
  obtain rfl : authorization = authorization' := hauth
  obtain rfl : body = body' := hbody
  rfl

namespace Ask

/-- The exchange is what the request makes of its connection. -/
structure Hands (a : Ask) (x : Exchange) : Prop where
  /-- The URL is composed of that of the connection, the path and the query. -/
  aimed : Client.target x.connection.url a.path (Client.queryOf a.params) = .ok x.url
  /-- It is sent without a user name and a password. -/
  url : x.request.url = if (Http.userinfo? x.url).isSome then x.url.withoutUserinfo else x.url
  method : x.request.method = a.method
  body : Client.payloadOf a.body = .ok x.request.body
  accept : x.request.headers.accept = ["application/json"]
  contentType : x.request.headers.contentType =
    if x.request.body.isSome then ["application/json"] else []
  authorization : x.request.headers.authorization = x.url.authorization ++ x.connection.authorization

/-- What a request keeps from step to step: the call that it comes to, and where it goes. -/
inductive Keeps (a : Ask) : Stage → Prop
  | asked : Keeps a .asked
  | ready {payload : Option Bytes} {left number : Nat} {last : Option RequestError}
    (hbody : Client.payloadOf a.body = .ok payload) :
    Keeps a (.ready (a.call payload) left number last)
  | holding {payload : Option Bytes} {left number : Nat} {conn : Connection} {url : Url}
    (hbody : Client.payloadOf a.body = .ok payload)
    (htarget : Client.target conn.url a.path (Client.queryOf a.params) = .ok url) :
    Keeps a (.holding (a.call payload) left number conn url)
  | finished {r : Except RequestError Bytes} : Keeps a (.finished r)

variable {a : Ask} {stage : Stage} {world : World} {s : Session}

theorem hands_of_isOf {payload : Option Bytes} {conn : Connection} {url : Url} {x : Exchange}
    (hx : x.IsOf a.method payload conn url) (hbody : Client.payloadOf a.body = .ok payload)
    (htarget : Client.target conn.url a.path (Client.queryOf a.params) = .ok url) : a.Hands x := by
  obtain ⟨rfl, rfl, hr⟩ := hx
  refine ⟨htarget, ?_, ?_, ?_, ?_, ?_, ?_⟩
  · simp only [hr, Http.Request.make]
    split
    next huser => rw [huser, Option.isSome_some, if_pos rfl]
    next huser => rw [huser, Option.isSome_none, if_neg Bool.false_ne_true]
  · rw [hr]
    rfl
  · rw [hr]
    exact hbody
  · rw [hr]
    rfl
  · simp only [hr, Http.Request.make]
    cases payload <;> rfl
  · simp only [hr, Http.Request.make, Url.authorization, Connection.authorization]
    cases Http.userinfo? x.url <;> cases x.connection.credentials <;> rfl

/-! ## One step -/

/-- The request comes to a stage, and what it hands to the transport on the way is its own. -/
structure Sends (a : Ask) (world : World) (s : Session) (r : Stage × Session) : Prop where
  keeps : a.Keeps r.1
  hands : ∃ steps sent, s.Did world steps sent r.2 ∧ ∀ x ∈ sent, a.Hands x

theorem Sends.of_sentSince {r : Stage × Session} (h : a.Sends world s r) :
    ∀ x ∈ r.2.sentSince s, a.Hands x := by
  obtain ⟨-, steps, sent, hdid, hsent⟩ := h
  rwa [hdid.sentSince_eq]

/-- The request goes on from the stage to which it came. -/
theorem Sends.trans {s₁ : Session} {r : Stage × Session} (h₁ : a.Sends world s (stage, s₁))
    (h₂ : a.Sends world s₁ r) : a.Sends world s r := by
  obtain ⟨-, steps₁, sent₁, hdid₁, hsent₁⟩ := h₁
  obtain ⟨hkeeps, steps₂, sent₂, hdid₂, hsent₂⟩ := h₂
  exact ⟨hkeeps, _, _, hdid₁.trans hdid₂, List.forall_mem_append.mpr ⟨hsent₁, hsent₂⟩⟩

theorem Keeps.sends_nothing {steps : List PoolStep} {r : Stage × Session} (h : a.Keeps r.1)
    (hdid : s.Did world steps [] r.2) : a.Sends world s r :=
  ⟨h, steps, [], hdid, List.forall_mem_nil _⟩

theorem finish_sends (world : World) {s₁ : Session} {steps : List PoolStep} {sent : List Exchange}
    (hdid : s.Did world steps sent s₁) (hsent : ∀ x ∈ sent, a.Hands x)
    (r : Except RequestError Bytes) : a.Sends world s (a.finish world (r, s₁)) := by
  obtain ⟨s', hends, he⟩ := a.finish_ends world r s₁
  rw [he]
  exact ⟨.finished, steps, sent, hdid.before hends, hsent⟩

theorem Keeps.advance (h : a.Keeps stage) (world : World) (s : Session) :
    a.Sends world s (a.advance world (stage, s)) := by
  cases h with
  | asked =>
    simp only [Ask.advance]
    cases hbody : Client.payloadOf a.body with
    | error e => exact finish_sends world (.refl world s) (List.forall_mem_nil _) _
    | ok payload => exact (Keeps.ready hbody).sends_nothing (.refl world s)
  | @ready payload left number last hbody =>
    cases left with
    | zero =>
      have hgive := Session.did_log world s (.givenUp a.client.maxRetries a.method a.path)
      exact finish_sends world hgive (List.forall_mem_nil _) (.error _)
    | succ left =>
      have hprep := Client.prepare_ends a.client world (a.call payload) number s
      simp only [Ask.advance]
      generalize a.client.prepare world (a.call payload) number s = r at hprep ⊢
      cases hprep with
      | aimed htarget hdid => exact (Keeps.holding hbody htarget).sends_nothing hdid
      | noConnections _ hdid | noUrl _ hdid | gaveUp hdid | gaveUpLate hdid =>
        exact finish_sends world hdid (List.forall_mem_nil _) _
  | @holding payload left number conn url hbody htarget =>
    have htry := Client.tryOn_ends a.client world (a.call payload) number conn url s
    simp only [Ask.advance]
    generalize a.client.tryOn world (a.call payload) number conn url s = r at htry ⊢
    cases htry with
    | @interrupted x s₁ hx _ hdid =>
      have hsent := List.forall_mem_singleton.mpr (hands_of_isOf hx hbody htarget)
      exact finish_sends world hdid hsent _
    | @completed x s₁ hx _ hdid =>
      have hsent := List.forall_mem_singleton.mpr (hands_of_isOf hx hbody htarget)
      generalize x.outcome = outcome
      split
      next heq => cases heq; exact finish_sends world hdid hsent _
      next heq => cases heq; exact finish_sends world hdid hsent _
      next heq => cases heq; exact ⟨.ready hbody, _, _, hdid, hsent⟩
  | finished => exact Keeps.finished.sends_nothing (.refl world s)

theorem Keeps.resume (h : a.Keeps stage) (world : World) (s : Session) :
    a.Sends world s (a.resume world (stage, s)) := by
  have hadvance := h.advance world s
  cases h with
  | holding =>
    simp only [Ask.resume]
    split
    · exact finish_sends world (.refl world s) (List.forall_mem_nil _) _
    · exact hadvance
  | asked | ready | finished => exact hadvance

/-! ## All steps -/

theorem advance_sends (a : Ask) (world : World) (s : Session) (n : Nat) :
    a.Sends world s ((a.advance world)^[n] (.asked, s)) := by
  induction n with
  | zero => exact Keeps.asked.sends_nothing (.refl world s)
  | succ n ih =>
    rw [Function.iterate_succ_apply']
    exact ih.trans (ih.keeps.advance world _)

theorem spells_hands (h : a.Keeps stage) (world : World) (found : List Session) :
    ∀ x ∈ (a.spells world stage found).1.flatMap Spell.sent, a.Hands x := by
  induction found generalizing stage with
  | nil => exact List.forall_mem_nil _
  | cons s found ih =>
    have hsends := h.resume world s
    rw [spells_cons, List.flatMap_cons, List.forall_mem_append]
    exact ⟨hsends.of_sentSince, ih hsends.keeps⟩

/-! ## In the order of the connections -/

theorem taken?_mark (x : Exchange) : x.mark.taken? = none := by
  unfold Exchange.mark
  split <;> rfl

theorem taken_completed (x : Exchange) :
    (Attempt.completed x).steps.filterMap PoolStep.taken? = [x.connection] := by
  rw [Attempt.steps, List.filterMap_cons, List.filterMap_cons, taken?_mark]
  rfl

/-- An attempt sends on the connection that it was handed, if it sends. -/
theorem attempt_in_turn (t : Attempt) :
    t.exchanges.map (·.connection) <+: t.steps.filterMap PoolStep.taken? := by
  cases t with
  | completed x =>
    rw [taken_completed]
    exact List.prefix_rfl
  | interrupted x => simp [Attempt.exchanges, Attempt.steps, PoolStep.taken?]
  | unsent c => simp [Attempt.exchanges]

/-- Attempts send on the connections that were handed out, one after another: only the last of them
may have sent nothing. -/
theorem attempts_in_turn (failed : List Exchange) (tail : List Attempt) (htail : tail.length ≤ 1) :
    ((failed.map Attempt.completed ++ tail).flatMap Attempt.exchanges).map (·.connection) <+:
      ((failed.map Attempt.completed ++ tail).flatMap Attempt.steps).filterMap PoolStep.taken? := by
  have hfailed : ((failed.map Attempt.completed).flatMap Attempt.steps).filterMap PoolStep.taken? =
      failed.map (·.connection) := by
    induction failed with
    | nil => rfl
    | cons x failed ih =>
      rw [List.map_cons, List.flatMap_cons, List.filterMap_append, taken_completed, ih]
      rfl
  rw [List.flatMap_append, List.flatMap_append, List.map_append, List.filterMap_append, hfailed,
    exchanges_completed, List.prefix_append_right_inj]
  cases tail with
  | nil => exact List.nil_prefix
  | cons t tail =>
    obtain rfl : tail = [] := List.length_eq_zero_iff.mp (by simpa using htail)
    rw [List.flatMap_singleton, List.flatMap_singleton]
    exact attempt_in_turn t

theorem Reached.in_turn {hist : List Attempt} (h : a.Reached stage hist) :
    (hist.flatMap Attempt.exchanges).map (·.connection) <+:
      (hist.flatMap Attempt.steps).filterMap PoolStep.taken? := by
  cases h with
  | asked => exact List.nil_prefix
  | @ready _ _ _ _ failed _ =>
    have hturn := attempts_in_turn failed [] (Nat.zero_le 1)
    rwa [List.append_nil] at hturn
  | holding => exact attempts_in_turn _ _ (Nat.le_refl 1)
  | finished hleads =>
    obtain ⟨-, hcloses⟩ := hleads
    refine attempts_in_turn _ _ ?_
    cases hcloses <;> simp

/-! ## All attempts of a request -/

/-- What a request hands to the transport on one connection is one thing. -/
theorem Hands.request_eq {x y : Exchange} (hx : a.Hands x) (hy : a.Hands y)
    (hconn : x.connection = y.connection) : x.request = y.request := by
  have hurl : x.url = y.url := by
    have haimed := hx.aimed
    rw [hconn, hy.aimed, Except.ok.injEq] at haimed
    exact haimed.symm
  have hbody : x.request.body = y.request.body := by
    have hencoded := hx.body
    rw [hy.body, Except.ok.injEq] at hencoded
    exact hencoded.symm
  refine Http.Request.eq_of_parts ?_ ?_ ?_ ?_ ?_ hbody
  · rw [hx.method, hy.method]
  · rw [hx.url, hy.url, hurl]
  · rw [hx.accept, hy.accept]
  · rw [hx.contentType, hy.contentType, hbody]
  · rw [hx.authorization, hy.authorization, hurl, hconn]

/-- What a request handed to the transport along the steps that it took of the pool. -/
structure SentAlike (a : Ask) (steps : List PoolStep) (sent : List Exchange) : Prop where
  /-- Each went out on the connection that was handed out for it. -/
  inTurn : sent.map (·.connection) <+: steps.filterMap PoolStep.taken?
  hands : ∀ x ∈ sent, a.Hands x
  alike : ∀ x ∈ sent, ∀ y ∈ sent, x.connection = y.connection → x.request = y.request

theorem Reached.sentAlike {hist : List Attempt} {steps : List PoolStep} {sent : List Exchange}
    (h : a.Reached stage hist) (hsteps : hist.flatMap Attempt.steps = steps)
    (hsent : hist.flatMap Attempt.exchanges = sent) (hhands : ∀ x ∈ sent, a.Hands x) :
    a.SentAlike steps sent where
  inTurn := hsteps ▸ hsent ▸ h.in_turn
  hands := hhands
  alike x hx y hy := (hhands x hx).request_eq (hhands y hy)

end Ask

/-- **The attempts of a request differ in their connections only.** Whatever a request meets, the
k-th that it hands to the transport is on the k-th connection that was handed out for it. It has the
method of the request, the URL that the connection's URL, the path and the query give, and the bytes
to which the body was encoded, if there is one; it accepts JSON, and says that its body is JSON if it
has one. It authenticates by the user name and the password of the connection's URL, then by the
credentials of the connection, and not where there are none of either. So it is too if others change
the pool or cancel the run between the steps of the request. -/
theorem sent_alike (a : Ask) (world : World) :
    (∀ s : Session,
      let s' := (a.serve world s).2
      s.Did world (s'.stepsSince s) (s'.sentSince s) s' ∧
        a.SentAlike (s'.stepsSince s) (s'.sentSince s)) ∧
    ∀ found : List Session,
      let run := (a.spells world .asked found).1
      (∀ t ∈ run, t.found.Did world t.steps t.sent t.left) ∧
        a.SentAlike (run.flatMap Spell.steps) (run.flatMap Spell.sent) := by
  constructor
  · intro s s'
    obtain ⟨hist, hreached, hran⟩ := a.advance_reached world s (2 * a.client.maxRetries + 2)
    have hsends := a.advance_sends world s (2 * a.client.maxRetries + 2)
    rw [a.advance_alone] at hreached hran hsends
    have hdid : s.Did world (hist.flatMap Attempt.steps) (hist.flatMap Attempt.exchanges) s' := hran
    have hsteps := hdid.stepsSince_eq
    have hsent := hdid.sentSince_eq
    refine ⟨?_, hreached.sentAlike hsteps.symm hsent.symm hsends.of_sentSince⟩
    rw [hsteps, hsent]
    exact hdid
  · intro found run
    obtain ⟨hist, hreached, hsteps, hsent, hdid⟩ := Ask.spells_reached (a := a) .asked world found
    exact ⟨hdid, hreached.sentAlike hsteps hsent (Ask.spells_hands .asked world found)⟩

/-- The URL of a node carries a user name and a password: a request to it authenticates by these,
although its connection has no credentials. -/
theorem authorization_of_url :
    let s := Session.start.setConnections ["http://u:p@es1:9200"] none
    let a : Ask := ⟨.patient, .request, "GET", "/logs", none, none⟩
    let world : World := ⟨.scripted [.answer 200 [0x7b, 0x7d] none true], fun _ => false⟩
    ¬ ∀ x ∈ (a.serve world s).2.sentSince s,
      (x.request.headers.authorization = [] ↔ x.connection.credentials = none) := by
  decide +kernel

/-- A search fails on a node, and the nodes are replaced by one with credentials: the second attempt
authenticates by these, and is otherwise the same request. -/
theorem sent_alike_replaced :
    let replaced := Session.start.setConnections ["http://b"] (some ⟨"u", ⟨"p"⟩⟩)
    let found := [.twoNodes, .twoNodes, .twoNodes, replaced, replaced]
    let sent := (Ask.search.spells .halfDown .asked found).1.flatMap Spell.sent
    sent.map (·.request.url.text) = ["http://a/_search", "http://b/_search"] ∧
      sent.map (·.request.headers.authorization) = [[], ["Basic dTpw"]] ∧
      ∀ x ∈ sent, x.request.method = "GET" ∧ x.request.body = none := by
  intro replaced found sent
  have hurls : sent.map (·.request.url.text) = ["http://a/_search", "http://b/_search"] := by
    decide +kernel
  have hauth : sent.map (·.request.headers.authorization) = [[], ["Basic dTpw"]] := by
    decide +kernel
  have hhands := ((sent_alike .search .halfDown).2 found).2.hands
  refine ⟨hurls, hauth, fun x hx => ⟨(hhands x hx).method, ?_⟩⟩
  exact (Except.ok.inj (hhands x hx).body).symm

end ClusterOutput
