/-
An attempt in two parts: its request is handed to the transport, and the
exchange that comes of it is settled (`attempt_eq`). What an exchange comes to
depends on the session in nothing (`settle_result`).
-/
import ClusterOutput.Client.Dispatch
import ClusterOutput.Proofs.Journal

namespace ClusterOutput

/-- An exchange was made. -/
def Session.hand (s : Session) (x : Exchange) (wire : List Http.Request) : Session :=
  { s with journal := { s.journal with sent := s.journal.sent ++ [x], wire := wire } }

/-- The run was interrupted. -/
def Session.interrupt (s : Session) : Session := { s with isCancelled := true }

theorem Session.markDead_sent (s : Session) (collector : Option Collector) (c : Connection) :
    (s.markDead collector c).journal.sent = s.journal.sent := by
  simp only [markDead]
  split
  · rfl
  · split <;> rfl

theorem Session.markLive_sent (s : Session) (collector : Option Collector) (c : Connection) :
    (s.markLive collector c).journal.sent = s.journal.sent := by
  simp only [markLive]
  split
  · rfl
  · split <;> rfl

namespace Client

/-- The exchange of an attempt. -/
def exchangeOf (world : World) (wire : List Http.Request) (conn : Connection) (method : String)
    (url : Url) (payload : Option Bytes) : Exchange :=
  let request := Http.Request.make method url conn.credentials payload
  ⟨conn, url, request, (Http.send world.network wire request).1⟩

/-- What an attempt comes to once its exchange was made. -/
def settle (c : Client) (watched : Bool) (op : Operation) (method : String) (x : Exchange)
    (s : Session) : Except RequestError Bytes × Session :=
  match x.reply with
  | .interrupted =>
    if watched then (.error .cancelled, s.interrupt)
    else c.unanswered op method x.connection x.url (.unsent x.request.url) s.interrupt
  | .failed failure => c.unanswered op method x.connection x.url failure s
  | .answered status final body =>
    c.answered x.connection x.url final status body
      (s.record c.collector [.duration op method (some status)])
  | .cut status final =>
    if watched then
      (.error .cancelled, s.interrupt.record c.collector [.duration op method (some status)])
    else
      c.answered x.connection x.url final status none
        (s.interrupt.record c.collector [.duration op method (some status)])

theorem attempt_eq (c : Client) (world : World) (watched : Bool) (op : Operation)
    (conn : Connection) (method : String) (url : Url) (payload : Option Bytes) (s : Session) :
    c.attempt world watched op conn method url payload s =
      c.settle watched op method (exchangeOf world s.journal.wire conn method url payload)
        ((s.record c.collector [.attempt op method]).hand
          (exchangeOf world s.journal.wire conn method url payload)
          (Http.send world.network s.journal.wire
            (.make method url conn.credentials payload)).2) := rfl

theorem answered_result (c : Client) (x : Exchange) {status : Nat} {final : Url}
    {body : Option Bytes} (s : Session)
    (h : x.reply = .answered status final body ∨ x.reply = .cut status final ∧ body = none) :
    (c.answered x.connection x.url final status body s).1 = x.outcome := by
  rw [Exchange.outcome_of_answer h]
  simp only [answered, isUnhealthyStatus, decide_eq_true_eq]
  split
  · rfl
  · cases body <;> rfl

theorem settle_result (c : Client) (watched : Bool) (op : Operation) (method : String)
    (x : Exchange) (s : Session) :
    (c.settle watched op method x s).1 =
      if watched && x.reply.isOpen then .error .cancelled else x.outcome := by
  unfold settle
  split
  next hr =>
    cases watched with
    | true => simp [hr, Http.Reply.isOpen]
    | false => simp [hr, Http.Reply.isOpen, unanswered, Exchange.outcome]
  next failure hr => simp [hr, Http.Reply.isOpen, unanswered, Exchange.outcome]
  next status final body hr =>
    rw [hr, Http.Reply.isOpen, Bool.and_false, if_neg Bool.false_ne_true]
    exact c.answered_result x _ (.inl hr)
  next status final hr =>
    cases watched with
    | true => simp [hr, Http.Reply.isOpen]
    | false => exact c.answered_result x _ (.inr ⟨hr, rfl⟩)

/-! ## What is noted of an attempt -/

section

variable {c : Client} {world : World} {call : Call} {number : Nat} {conn : Connection} {url : Url}
  {s s₁ : Session}

theorem tryOn_ok {bytes : Bytes}
    (h : c.attempt world c.carriesToken call.operation conn call.method url call.payload s =
      (.ok bytes, s₁)) :
    c.tryOn world call number conn url s =
      (.ok bytes, if isRetry number then s₁.log (.succeededAfterRetry number) else s₁) := by
  rw [tryOn, h]

theorem tryOn_cancelled
    (h : c.attempt world c.carriesToken call.operation conn call.method url call.payload s =
      (.error .cancelled, s₁)) :
    c.tryOn world call number conn url s = (.error .cancelled, s₁) := by
  rw [tryOn, h]

/-- A failure is counted. -/
theorem tryOn_failed {e : RequestError} (hne : e ≠ .cancelled)
    (h : c.attempt world c.carriesToken call.operation conn call.method url call.payload s =
      (.error e, s₁)) :
    c.tryOn world call number conn url s =
      (.error e, c.noteError world call.operation call.method e
        (s₁.log (.attemptFailed number c.maxRetries conn.url e))) := by
  rw [tryOn, h]
  cases e with
  | cancelled => exact absurd rfl hne
  | _ => rfl

end

/-! ## What is handed to the transport -/

theorem answered_sent (c : Client) (conn : Connection) (url final : Url) (status : Nat)
    (body : Option Bytes) (s : Session) :
    (c.answered conn url final status body s).2.journal.sent = s.journal.sent := by
  unfold answered
  split
  · exact Session.markDead_sent ..
  · split
    · exact Session.markLive_sent ..
    · exact Session.markDead_sent ..

theorem unanswered_sent (c : Client) (op : Operation) (method : String) (conn : Connection)
    (url : Url) (failure : Http.Failure) (s : Session) :
    (c.unanswered op method conn url failure s).2.journal.sent = s.journal.sent :=
  Session.markDead_sent ..

/-- To settle an exchange makes no other. -/
theorem settle_sent (c : Client) (watched : Bool) (op : Operation) (method : String)
    (x : Exchange) (s : Session) :
    (c.settle watched op method x s).2.journal.sent = s.journal.sent := by
  unfold settle
  split
  · split
    · rfl
    · exact unanswered_sent ..
  · exact unanswered_sent ..
  · exact answered_sent ..
  · split
    · rfl
    · exact answered_sent ..

/-- An attempt that has a connection makes its exchange, and no other. -/
theorem tryOn_sent (c : Client) (world : World) (call : Call) (number : Nat) (conn : Connection)
    (url : Url) (s : Session) :
    (c.tryOn world call number conn url s).2.journal.sent =
      s.journal.sent ++
        [exchangeOf world s.journal.wire conn call.method url call.payload] := by
  have hsettled := c.settle_sent c.carriesToken call.operation call.method
    (exchangeOf world s.journal.wire conn call.method url call.payload)
    ((s.record c.collector [.attempt call.operation call.method]).hand
      (exchangeOf world s.journal.wire conn call.method url call.payload)
      (Http.send world.network s.journal.wire
        (.make call.method url conn.credentials call.payload)).2)
  rw [← attempt_eq] at hsettled
  cases hr : c.attempt world c.carriesToken call.operation conn call.method url call.payload s with
  | mk r s₁ =>
  rw [hr] at hsettled
  cases r with
  | ok bytes =>
    rw [tryOn_ok hr]
    simp only []
    split <;> exact hsettled
  | error e =>
    by_cases hcancelled : e = .cancelled
    · subst hcancelled
      rw [tryOn_cancelled hr]
      exact hsettled
    · rw [tryOn_failed hcancelled hr]
      exact hsettled

end Client

end ClusterOutput
