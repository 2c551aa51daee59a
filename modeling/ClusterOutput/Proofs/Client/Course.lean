/-
The course of a request: which attempts it makes, what each of them does to the
pool and hands to the transport, and how the last of them ends the request.

Every turn of the loop over attempts is described once, by what it adds to the
session (`attempts_turned`). `attempts_course` puts the turns together: whatever
the world answers, the journal of a request is that of its attempts, and their
outcomes decide its result.
-/
import ClusterOutput.Proofs.Client.Attempt
import ClusterOutput.Proofs.Result

namespace ClusterOutput

/-! ## Attempts -/

/-- An attempt of a request: one whose exchange is over, one that was interrupted in its exchange,
and one that was handed a connection but sent nothing. -/
inductive Attempt where
  | completed (x : Exchange)
  | interrupted (x : Exchange)
  | unsent (c : Connection)

/-- What an attempt does to the pool. -/
def Attempt.steps : Attempt → List PoolStep
  | completed x => [.taken x.connection, x.mark]
  | interrupted x => [.taken x.connection]
  | unsent c => [.taken c]

/-- What an attempt hands to the transport. -/
def Attempt.exchanges : Attempt → List Exchange
  | completed x | interrupted x => [x]
  | unsent _ => []

theorem exchanges_completed (failed : List Exchange) :
    (failed.map Attempt.completed).flatMap Attempt.exchanges = failed := by
  simp [List.flatMap_map, Attempt.exchanges]

/-- What was done between two moments of a session is what these attempts do. -/
def Session.Ran (world : World) (s : Session) (hist : List Attempt) (s' : Session) : Prop :=
  s.Did world (hist.flatMap Attempt.steps) (hist.flatMap Attempt.exchanges) s'

section

variable {method : String} {payload : Option Bytes} {conn : Connection} {url : Url} {x : Exchange}
  {world : World} {s s₁ s₂ : Session}

/-- An attempt whose exchange came to its end. -/
theorem Exchange.IsOf.ran_completed (hx : x.IsOf method payload conn url)
    (htaken : s.Did world [.taken conn] [] s₁) (hdid : s₁.Did world [x.mark] [x] s₂) :
    s.Ran world [.completed x] s₂ := by
  have h := htaken.trans hdid
  rw [← hx.connection_eq] at h
  exact h

/-- An attempt that was interrupted in its exchange. -/
theorem Exchange.IsOf.ran_interrupted (hx : x.IsOf method payload conn url)
    (htaken : s.Did world [.taken conn] [] s₁) (hdid : s₁.Did world [] [x] s₂) :
    s.Ran world [.interrupted x] s₂ := by
  have h := htaken.trans hdid
  rw [← hx.connection_eq] at h
  exact h

end

/-- The exchange is one that the request makes on its connection. -/
def Client.Call.Makes (call : Client.Call) (x : Exchange) : Prop :=
  Client.target x.connection.url call.path call.query = .ok x.url ∧
    x.IsOf call.method call.payload x.connection x.url

theorem Exchange.IsOf.makes {call : Client.Call} {conn : Connection} {url : Url} {x : Exchange}
    (hx : x.IsOf call.method call.payload conn url)
    (htarget : Client.target conn.url call.path call.query = .ok url) : call.Makes x := by
  obtain ⟨rfl, rfl, hr⟩ := hx
  exact ⟨htarget, rfl, rfl, hr⟩

namespace Client

variable {c : Client} {world : World} {call : Call} {s : Session}

/-- What ends a request while more attempts could be made: the last attempt, if one was made, and
the result. -/
inductive Stops (call : Call) : List Attempt → Except RequestError Bytes → Prop
  | answered {x : Exchange} {b : Bytes} (hx : call.Makes x) (hout : x.outcome = .ok b) :
    Stops call [.completed x] (.ok b)
  | noConnections : Stops call [] (.error .noConnections)
  | noUrl {conn : Connection} {message : String}
    (htarget : target conn.url call.path call.query = .error (.invalidUrl message)) :
    Stops call [.unsent conn] (.error (.invalidUrl message))
  | gaveUp : Stops call [] (.error .cancelled)
  | gaveUpLate {conn : Connection} : Stops call [.unsent conn] (.error .cancelled)
  | interrupted {x : Exchange} (hx : call.Makes x) :
    Stops call [.interrupted x] (.error .cancelled)

/-- What one turn of the loop over attempts comes to. It ends the request, or its attempt fails, and
the loop goes on behind it. -/
inductive Turned (c : Client) (world : World) (call : Call) (left number : Nat) (s : Session) :
    Except RequestError Bytes × Session → Prop
  | stops {hist : List Attempt} {r : Except RequestError Bytes} {s' : Session}
    (hstop : Stops call hist r) (hran : s.Ran world hist s')
    (hopen : ∀ x, hist = [.interrupted x] → x.reply.isOpen = true)
    (hup : r = .error .cancelled → c.givesUp s' = true)
    (hempty : r = .error .noConnections → s.pool.slots = [])
    (hcounts : s'.counts =
      (s.journal.errors, s.journal.retries + if isRetry number && !c.givesUp s then 1 else 0)) :
    Turned c world call left number s (r, s')
  | fails {x : Exchange} {e : RequestError} {s' : Session} (hx : call.Makes x)
    (hout : x.outcome = .error e) (hover : (c.carriesToken && x.reply.isOpen) = false)
    (hran : s.Ran world [.completed x] s') (hgoes : c.givesUp s = false)
    (hcounts : s'.counts =
      (s.journal.errors + 1, s.journal.retries + if isRetry number then 1 else 0)) :
    Turned c world call left number s (c.attempts world call left (number + 1) (some e) s')

theorem attempts_turned (c : Client) (world : World) (call : Call) (left number : Nat)
    (last : Option RequestError) (s : Session) :
    Turned c world call left number s (c.attempts world call (left + 1) number last s) := by
  have hcounts := prepare_counts c world call number s
  have hprep := prepare_ends c world call number s
  unfold attempts
  generalize hr : c.prepare world call number s = r at hcounts hprep ⊢
  cases hprep with
  | noConnections hempty hdid =>
    exact .stops .noConnections hdid (by simp) (by simp) (fun _ => hempty) hcounts
  | noUrl htarget hdid =>
    exact .stops (.noUrl htarget) hdid (by simp) (by simp) (by simp) hcounts
  | gaveUp hdid hup => exact .stops .gaveUp hdid (by simp) (fun _ => hup) (by simp) hcounts
  | gaveUpLate hdid hup =>
    exact .stops .gaveUpLate hdid (by simp) (fun _ => hup) (by simp) hcounts
  | @aimed conn url s₁ htarget hdid =>
    have hgoes : c.givesUp s = false := by
      by_contra hup
      rw [prepare_up world call number (by simpa using hup)] at hr
      cases hr
    obtain ⟨herrors, hretries⟩ := Prod.mk.inj hcounts
    have htried := tryOn_counts c world call number conn url s₁
    rw [herrors, hretries] at htried
    have htry := tryOn_ends c world call number conn url s₁
    simp only []
    generalize c.tryOn world call number conn url s₁ = r at htried htry ⊢
    cases htry with
    | interrupted hx hopen hdid₂ hwatched hs₂ =>
      exact .stops (.interrupted (hx.makes htarget)) (hx.ran_interrupted hdid hdid₂)
        (by simp [hopen]) (fun _ => by simp [givesUp, hwatched, hs₂]) (by simp) htried
    | @completed x s₂ hx hover hdid₂ =>
      have hran := hx.ran_completed hdid hdid₂
      cases hout : x.outcome with
      | ok b =>
        rw [hout] at htried
        exact .stops (.answered (hx.makes htarget) hout) hran (by simp) (by simp) (by simp) htried
      | error e =>
        have hne := Exchange.ne_cancelled hout
        rw [hout, failures_error hne, hgoes, Bool.not_false, Bool.and_true] at htried
        split
        next heq => cases heq
        next heq => cases heq; exact absurd rfl hne
        next heq =>
          cases heq
          exact .fails (hx.makes htarget) hout hover hran hgoes htried

/-- How the attempts of a request go, `left` of which may still be made after one that ended in
`last`, and what the request comes to. -/
inductive Course (c : Client) (call : Call) :
    (left : Nat) → (last : Option RequestError) → List Attempt → Except RequestError Bytes → Prop
  | spent {last : Option RequestError} :
    Course c call 0 last [] (.error (.retriesExhausted c.maxRetries last))
  | failed {left : Nat} {last : Option RequestError} {x : Exchange} {e : RequestError}
    {hist : List Attempt} {r : Except RequestError Bytes} (hx : call.Makes x)
    (hout : x.outcome = .error e) (hrest : Course c call left (some e) hist r) :
    Course c call (left + 1) last (.completed x :: hist) r
  | stops {left : Nat} {last : Option RequestError} {hist : List Attempt}
    {r : Except RequestError Bytes} (hstop : Stops call hist r) : Course c call (left + 1) last hist r

/-- A request, or what is left of it, goes as its attempts do, and its journal is theirs. It is
cancelled only for a client that has to give up, and finds no connection only in an empty pool. -/
def Goes (c : Client) (world : World) (call : Call) (left : Nat) (last : Option RequestError)
    (s : Session) (r : Except RequestError Bytes × Session) : Prop :=
  ∃ hist, s.Ran world hist r.2 ∧ Course c call left last hist r.1 ∧
    (r.1 = .error .cancelled → c.givesUp r.2 = true) ∧
    (r.1 = .error .noConnections → s.pool.slots = [])

theorem attempts_course (c : Client) (world : World) (call : Call) (left number : Nat)
    (last : Option RequestError) (s : Session) :
    c.Goes world call left last s (c.attempts world call left number last s) := by
  induction left generalizing number last s with
  | zero =>
    exact ⟨[], Session.did_log world s _, .spent, by simp [attempts, giveUp],
      by simp [attempts, giveUp]⟩
  | succ left ih =>
    have hturned := attempts_turned c world call left number last s
    generalize c.attempts world call (left + 1) number last s = r at hturned ⊢
    cases hturned with
    | stops hstop hran _ hup hempty => exact ⟨_, hran, .stops hstop, hup, hempty⟩
    | @fails x e s₁ hx hout _ hran =>
      obtain ⟨hist, hrest, hcourse, hup, hempty⟩ := ih (number + 1) (some e) s₁
      refine ⟨.completed x :: hist, hran.trans hrest, .failed hx hout hcourse, hup, fun hno => ?_⟩
      exact hran.slots_eq_nil.mp (hempty hno)

/-- The error of the last of some exchanges that failed, or an earlier one if there are none. -/
def lastError (earlier : Option RequestError) (failed : List Exchange) : Option RequestError :=
  match failed.getLast? with
  | none => earlier
  | some x => match x.outcome with | .ok _ => none | .error e => some e

theorem lastError_cons {x : Exchange} {e : RequestError} (h : x.outcome = .error e)
    (earlier : Option RequestError) (failed : List Exchange) :
    lastError earlier (x :: failed) = lastError (some e) failed := by
  cases failed with
  | nil => simp [lastError, h]
  | cons y failed =>
    have hne : (y :: failed).getLast? = some ((y :: failed).getLast (by simp)) :=
      List.getLast?_eq_some_getLast _
    simp only [lastError, List.getLast?_cons_cons, hne]

/-- A request fails on some connections, and then has no attempt left or stops. -/
theorem Course.split {left : Nat} {last : Option RequestError} {hist : List Attempt}
    {r : Except RequestError Bytes} (h : Course c call left last hist r) :
    ∃ failed tail, hist = failed.map .completed ++ tail ∧
      (∀ x ∈ failed, call.Makes x ∧ x.reply.fails = true) ∧
      (failed.length = left ∧ tail = [] ∧
          r = .error (.retriesExhausted c.maxRetries (lastError last failed)) ∨
        failed.length < left ∧ Stops call tail r) := by
  induction h with
  | spent => exact ⟨[], [], rfl, by simp, .inl ⟨rfl, rfl, rfl⟩⟩
  | @stops _ _ hist _ hstop => exact ⟨[], hist, rfl, by simp, .inr ⟨Nat.succ_pos _, hstop⟩⟩
  | @failed left last x e hist r hx hout hrest ih =>
    obtain ⟨failed, tail, rfl, hfailed, hend⟩ := ih
    refine ⟨x :: failed, tail, rfl, ?_, ?_⟩
    · exact List.forall_mem_cons.mpr ⟨⟨hx, (Exchange.fails_of_error hout).1⟩, hfailed⟩
    · simpa [lastError_cons hout] using hend

/-- Everything that a request hands to the transport is an exchange that it makes. -/
theorem Course.makes {left : Nat} {last : Option RequestError} {hist : List Attempt}
    {r : Except RequestError Bytes} (h : Course c call left last hist r) :
    ∀ x ∈ hist.flatMap Attempt.exchanges, call.Makes x := by
  induction h with
  | spent => simp
  | failed hx _ _ ih =>
    rw [List.flatMap_cons, List.forall_mem_append]
    exact ⟨List.forall_mem_singleton.mpr hx, ih⟩
  | stops hstop =>
    cases hstop with
    | answered hx | interrupted hx => exact List.forall_mem_singleton.mpr hx
    | noConnections | noUrl | gaveUp | gaveUpLate => simp [Attempt.exchanges]

/-! ## A whole request -/

variable {op : Operation} {method path : String} {params : Option Url.Params} {body : Option Body}

/-- What is noted of the end of a request changes neither its result nor the pool. -/
theorem conclude_ends (c : Client) (world : World) (op : Operation) (method : String)
    (r : Except RequestError Bytes) (s : Session) :
    (c.conclude world op method (r, s)).1 = r ∧
      s.Did world [] [] (c.conclude world op method (r, s)).2 := by
  cases r with
  | ok bytes => exact ⟨rfl, .refl world s⟩
  | error e =>
    refine ⟨rfl, ?_⟩
    simp only [conclude]
    split
    · exact .refl world s
    · exact did_noteError c world op method e s

/-- A request whose body has no encoding. -/
theorem requestAs_unencodable {e : Json.Error} (h : payloadOf body = .error e) :
    (c.requestAs world op method path params body s).1 = .error (.serialization e) ∧
      s.Did world [] [] (c.requestAs world op method path params body s).2 := by
  simp only [requestAs, dispatch, h]
  exact conclude_ends c world op method _ s

/-- A request whose body is encoded. -/
theorem requestAs_course {payload : Option Bytes} (h : payloadOf body = .ok payload) :
    c.Goes world ⟨op, method, path, queryOf params, payload⟩ c.maxRetries none s
      (c.requestAs world op method path params body s) := by
  have hattempts := attempts_course c world ⟨op, method, path, queryOf params, payload⟩
    c.maxRetries 1 none s
  simp only [requestAs, dispatch, h]
  generalize c.attempts world ⟨op, method, path, queryOf params, payload⟩ c.maxRetries 1 none s = r
    at hattempts ⊢
  obtain ⟨hist, hran, hcourse, hup, hempty⟩ := hattempts
  obtain ⟨hr, hdid⟩ := conclude_ends c world op method r.1 r.2
  rw [← hr] at hcourse hup hempty
  exact ⟨hist, Session.Did.before hran hdid, hcourse, fun he => givesUp_mono hdid (hup he), hempty⟩

end Client

/-! ## A small cluster -/

/-- Two nodes, just configured. -/
def Session.twoNodes : Session := Session.start.setConnections ["http://a", "http://b"] none

/-- A world in which of the two nodes only the second can be reached. -/
def World.halfDown : World where
  network := ⟨fun url => url.text == "http://b/_search", fun _ _ => .answer 200 [0x7b, 0x7d] none true⟩
  cancels _ := false

/-- A search can be sent to both of them. -/
theorem Session.twoNodes_target {d : Connection} (hd : d ∈ twoNodes.pool.connections) :
    ∃ url, Client.target d.url "/_search" none = .ok url := by
  have hall : ∀ d ∈ twoNodes.pool.connections,
      (Client.target d.url "/_search" none).toBool = true := by decide +kernel
  cases htarget : Client.target d.url "/_search" none with
  | ok url => exact ⟨url, rfl⟩
  | error e => simpa [htarget, Except.toBool] using hall d hd

/-- A world in which no node can be reached. -/
def World.down : World := ⟨.dead, fun _ => false⟩

/-- A client that tries three times. -/
def Client.patient : Client := ⟨3, ⟨0⟩, none, true⟩

end ClusterOutput
