/-
Clients with other collectors. Each operation of a client commutes with an
exchange of its collector for one that takes nothing, and of the samples so far
(`requestAs_measured`, `resume_remeasured`). So it does nothing with either of them
but to put samples behind those that there are.
-/
import ClusterOutput.Proofs.Client.Settle
import ClusterOutput.Proofs.Client.Silence

namespace ClusterOutput

/-! ## Other collectors -/

/-- The collector, if there is one, takes no measurements. -/
def Collector.IsIdle (collector : Option Collector) : Prop :=
  ∀ q ∈ collector, q.isEnabled = false

/-- The session with other samples. -/
def Session.measured (s : Session) (xs : List Sample) : Session :=
  { s with journal := { s.journal with samples := xs } }

/-- The client with another collector, or with none. -/
def Client.measuredBy (c : Client) (q : Option Collector) : Client := { c with collector := q }

/-- A result, and a session with other samples. -/
abbrev remeasured {α : Type} (xs : List Sample) (r : α × Session) : α × Session :=
  Prod.map id (Session.measured · xs) r

namespace Session

variable {q : Option Collector} {xs : List Sample} {s : Session}

theorem keep_idle (hq : Collector.IsIdle q) (ys : List Sample) : Collector.keep q ys = [] := by
  cases q with
  | none => rfl
  | some q => simp [Collector.keep, hq q rfl]

theorem measured_self (s : Session) : s.measured s.journal.samples = s := rfl

/-- What one collector takes, another that is idle leaves alone. -/
theorem record_measured (hq : Collector.IsIdle q) (p : Option Collector) (ys : List Sample) :
    (s.measured xs).record q ys = (s.record p ys).measured xs := by
  simp [record, measured, keep_idle hq]

theorem log_measured (e : Event) : (s.measured xs).log e = (s.log e).measured xs := rfl

theorem take?_measured :
    (s.measured xs).take? = s.take?.map (remeasured xs) := by
  simp only [take?, Option.map_map]
  rfl

theorem markDead_measured (hq : Collector.IsIdle q) (p : Option Collector) (conn : Connection) :
    (s.measured xs).markDead q conn = (s.markDead p conn).measured xs := by
  have hpool : (s.measured xs).pool = s.pool := rfl
  let marked := ({ s with pool := s.pool.markDead conn } : Session).done (.markedDead conn)
  unfold markDead
  simp only [hpool]
  cases s.pool.slot? conn with
  | none => rfl
  | some slot =>
    cases h : slot.health.status with
    | live =>
      simp only [h]
      exact record_measured (s := marked.log (.markedDead conn.url)) hq p _
    | dead =>
      simp only [h]
      rfl

theorem markLive_measured (hq : Collector.IsIdle q) (p : Option Collector) (conn : Connection) :
    (s.measured xs).markLive q conn = (s.markLive p conn).measured xs := by
  have hpool : (s.measured xs).pool = s.pool := rfl
  let marked := ({ s with pool := s.pool.markLive conn } : Session).done (.markedLive conn)
  unfold markLive
  simp only [hpool]
  cases s.pool.slot? conn with
  | none => rfl
  | some slot =>
    cases h : slot.health.status with
    | live =>
      simp only [h]
      rfl
    | dead =>
      simp only [h]
      exact record_measured (s := marked.log (.recovered conn.url)) hq p _

theorem call_measured (hq : Collector.IsIdle q) (p : Option Collector) (asked : PoolCall) :
    (s.measured xs).call q asked = remeasured xs (s.call p asked) := by
  cases asked with
  | take =>
    simp only [call, take?_measured]
    cases s.take? with
    | none => rfl
    | some r => rfl
  | markDead conn => exact congrArg (Prod.mk _) (markDead_measured hq p conn)
  | markLive conn => exact congrArg (Prod.mk _) (markLive_measured hq p conn)
  | setConnections | health | urls | size | liveCount => rfl

end Session

namespace Client

section

variable {q : Option Collector} {xs : List Sample} {s : Session} {c : Client} {world : World}
  {op : Operation} {method : String}

theorem noteError_measured (hq : Collector.IsIdle q) (e : RequestError) :
    (c.measuredBy q).noteError world op method e (s.measured xs) =
      (c.noteError world op method e s).measured xs := by
  simp only [noteError, measuredBy, Session.record_measured hq c.collector]
  rfl

theorem noteRetry_measured (hq : Collector.IsIdle q) (number : Nat) :
    (c.measuredBy q).noteRetry world op method number (s.measured xs) =
      (c.noteRetry world op method number s).measured xs := by
  simp only [noteRetry, measuredBy, Session.record_measured hq c.collector]
  rfl

/-! ### One attempt -/

theorem unanswered_measured (hq : Collector.IsIdle q) (conn : Connection) (url : Url)
    (failure : Http.Failure) :
    (c.measuredBy q).unanswered op method conn url failure (s.measured xs) =
      remeasured xs (c.unanswered op method conn url failure s) := by
  simp only [unanswered, measuredBy, Session.record_measured hq c.collector,
    Session.markDead_measured hq c.collector]
  rfl

theorem answered_measured (hq : Collector.IsIdle q) (conn : Connection) (url final : Url)
    (status : Nat) (body : Option Bytes) :
    (c.measuredBy q).answered conn url final status body (s.measured xs) =
      remeasured xs (c.answered conn url final status body s) := by
  simp only [answered, measuredBy, Session.markDead_measured hq c.collector,
    Session.markLive_measured hq c.collector]
  split
  · rfl
  · cases body <;> rfl

theorem settle_measured (hq : Collector.IsIdle q) (watched : Bool) (x : Exchange) :
    (c.measuredBy q).settle watched op method x (s.measured xs) =
      remeasured xs (c.settle watched op method x s) := by
  have hrecord (s : Session) (ys : List Sample) :
      (s.measured xs).record (c.measuredBy q).collector ys =
        (s.record c.collector ys).measured xs := Session.record_measured hq c.collector ys
  have hinterrupt : (s.measured xs).interrupt = s.interrupt.measured xs := rfl
  unfold settle
  rw [hinterrupt]
  simp only [hrecord]
  split
  · split
    · rfl
    · exact unanswered_measured hq _ _ _
  · exact unanswered_measured hq _ _ _
  · exact answered_measured hq _ _ _ _ _
  · split
    · rfl
    · exact answered_measured hq _ _ _ _ _

theorem attempt_measured (hq : Collector.IsIdle q) (watched : Bool) (conn : Connection)
    (url : Url) (payload : Option Bytes) :
    (c.measuredBy q).attempt world watched op conn method url payload (s.measured xs) =
      remeasured xs (c.attempt world watched op conn method url payload s) := by
  rw [attempt_eq, attempt_eq, ← settle_measured hq]
  show settle _ _ _ _ _ (((s.measured xs).record q _).hand _ _) = _
  rw [Session.record_measured hq c.collector]
  rfl

/-! ### A whole request -/

theorem prepare_measured (hq : Collector.IsIdle q) (call : Call) (number : Nat) :
    (c.measuredBy q).prepare world call number (s.measured xs) =
      remeasured xs (c.prepare world call number s) := by
  have hup (s : Session) : (c.measuredBy q).givesUp (s.measured xs) = c.givesUp s := rfl
  have hretry : (if isRetry number then
      (c.measuredBy q).noteRetry world call.operation call.method number (s.measured xs)
      else s.measured xs) =
      (if isRetry number then c.noteRetry world call.operation call.method number s
        else s).measured xs := by
    split
    · exact noteRetry_measured hq number
    · rfl
  have hbackoff : (c.measuredBy q).backoff = c.backoff := rfl
  have hretries : (c.measuredBy q).maxRetries = c.maxRetries := rfl
  unfold prepare
  simp only [hretry, hup, hbackoff, hretries]
  generalize (if isRetry number then c.noteRetry world call.operation call.method number s
    else s) = s₁
  split
  · rfl
  split
  · rfl
  rw [Session.take?_measured]
  cases s₁.take? with
  | none => rfl
  | some r =>
    obtain ⟨conn, s₂⟩ := r
    simp only [Option.map_some, Prod.map_apply, id]
    cases target conn.url call.path call.query with
    | error e => rfl
    | ok url =>
      simp only [Session.log_measured, hup]
      split <;> simp

theorem tryOn_measured (hq : Collector.IsIdle q) (call : Call) (number : Nat) (conn : Connection)
    (url : Url) :
    (c.measuredBy q).tryOn world call number conn url (s.measured xs) =
      remeasured xs (c.tryOn world call number conn url s) := by
  have htoken : (c.measuredBy q).carriesToken = c.carriesToken := rfl
  unfold tryOn
  rw [htoken, attempt_measured hq]
  obtain ⟨r, s'⟩ := c.attempt world c.carriesToken call.operation conn call.method url
    call.payload s
  have hnote (e : RequestError) : (c.measuredBy q).noteError world call.operation call.method e
      ((s'.measured xs).log (.attemptFailed number c.maxRetries conn.url e)) =
      (c.noteError world call.operation call.method e
        (s'.log (.attemptFailed number c.maxRetries conn.url e))).measured xs := by
    rw [Session.log_measured]
    exact noteError_measured hq e
  cases r with
  | ok bytes =>
    simp only [remeasured, Prod.map_apply, id]
    split <;> rfl
  | error e =>
    cases e with
    | cancelled => rfl
    | _ => exact congrArg (Prod.mk _) (hnote _)

theorem attempts_measured (hq : Collector.IsIdle q) (call : Call) (left number : Nat)
    (last : Option RequestError) :
    (c.measuredBy q).attempts world call left number last (s.measured xs) =
      remeasured xs (c.attempts world call left number last s) := by
  induction left generalizing number last s with
  | zero => rfl
  | succ left ih =>
    simp only [attempts, prepare_measured hq]
    obtain ⟨r, s₁⟩ := c.prepare world call number s
    cases r with
    | error e => rfl
    | ok aim =>
      obtain ⟨conn, url⟩ := aim
      simp only [remeasured, Prod.map_apply, id, tryOn_measured hq]
      obtain ⟨r, s₂⟩ := c.tryOn world call number conn url s₁
      cases r with
      | ok bytes => rfl
      | error e =>
        cases e with
        | cancelled => rfl
        | _ => exact ih _ _

theorem conclude_measured (hq : Collector.IsIdle q) (r : Except RequestError Bytes × Session) :
    (c.measuredBy q).conclude world op method (remeasured xs r) =
      remeasured xs (c.conclude world op method r) := by
  obtain ⟨r, s⟩ := r
  cases r with
  | ok bytes => rfl
  | error e =>
    simp only [conclude, remeasured, Prod.map_apply, id, noteError_measured hq]
    split <;> rfl

/-- A request does the same whatever collector its client has: it only measures other samples. -/
theorem requestAs_measured (hq : Collector.IsIdle q) (path : String) (params : Option Url.Params)
    (body : Option Body) :
    (c.measuredBy q).requestAs world op method path params body (s.measured xs) =
      remeasured xs (c.requestAs world op method path params body s) := by
  have hdispatch : (c.measuredBy q).dispatch world op method path params body (s.measured xs) =
      remeasured xs (c.dispatch world op method path params body s) := by
    unfold dispatch
    cases payloadOf body with
    | error e => rfl
    | ok payload => exact attempts_measured hq _ _ _ _
  rw [requestAs, hdispatch, conclude_measured hq]
  rfl

theorem reading_measured {α : Type} (hq : Collector.IsIdle q)
    (read : Bytes → Except RequestError α) (r : Except RequestError Bytes × Session) :
    (c.measuredBy q).reading world op method read (remeasured xs r) =
      remeasured xs (c.reading world op method read r) := by
  obtain ⟨r, s⟩ := r
  cases r with
  | error e => rfl
  | ok bytes =>
    simp only [reading, remeasured, Prod.map_apply, id, noteError_measured hq]
    cases read bytes <;> rfl

/-- What an operation on documents or indices comes to. -/
theorem operation_measured {α : Type} (hq : Collector.IsIdle q)
    (read : Bytes → Except RequestError α) (path : String) (params : Option Url.Params)
    (body : Option Body) :
    (c.measuredBy q).reading world op method read
        ((c.measuredBy q).requestAs world op method path params body (s.measured xs)) =
      remeasured xs (c.reading world op method read
        (c.requestAs world op method path params body s)) := by
  rw [requestAs_measured hq, reading_measured hq]

theorem setMaxRetries_measured (n : Nat) :
    (c.measuredBy q).setMaxRetries n (s.measured xs) =
      ((c.setMaxRetries n s).1.measuredBy q, (c.setMaxRetries n s).2.measured xs) := by
  simp only [setMaxRetries]
  split <;> rfl

theorem setConnections_measured (urls : List String) (credentials : Option Credentials) :
    setConnections urls credentials (s.measured xs) =
      remeasured xs (setConnections urls credentials s) := by
  unfold setConnections
  cases normalizeHosts urls <;> rfl

end

end Client

/-! ## Requests that others come between -/

namespace Ask

/-- The same request of a client with another collector. -/
def measuredBy (a : Ask) (q : Option Collector) : Ask := { a with client := a.client.measuredBy q }

section

variable {a : Ask} {world : World} {q : Option Collector} {xs : List Sample} {s : Session}

theorem finish_remeasured (hq : Collector.IsIdle q) (r : Except RequestError Bytes × Session) :
    (a.measuredBy q).finish world (remeasured xs r) = remeasured xs (a.finish world r) := by
  simp only [finish, measuredBy, Client.conclude_measured hq]
  rfl

theorem advance_remeasured (hq : Collector.IsIdle q) (stage : Stage) :
    (a.measuredBy q).advance world (stage, s.measured xs) =
      remeasured xs (a.advance world (stage, s)) := by
  have hclient : (a.measuredBy q).client = a.client.measuredBy q := rfl
  have hfinish (r : Except RequestError Bytes) (s : Session) :
      (a.measuredBy q).finish world (r, s.measured xs) = remeasured xs (a.finish world (r, s)) :=
    finish_remeasured hq (r, s)
  cases stage with
  | asked =>
    have hbody : (a.measuredBy q).body = a.body := rfl
    simp only [advance, hbody]
    cases Client.payloadOf a.body with
    | error e => exact hfinish _ _
    | ok payload => rfl
  | ready call left number last =>
    cases left with
    | zero => exact finish_remeasured hq (a.client.giveUp call last s)
    | succ left =>
      simp only [advance, hclient, Client.prepare_measured hq]
      obtain ⟨r, s₁⟩ := a.client.prepare world call number s
      cases r with
      | error e => exact hfinish _ _
      | ok aim => rfl
  | holding call left number conn url =>
    simp only [advance, hclient, Client.tryOn_measured hq]
    obtain ⟨r, s₁⟩ := a.client.tryOn world call number conn url s
    cases r with
    | ok bytes => exact hfinish _ _
    | error e =>
      cases e with
      | cancelled => exact hfinish _ _
      | _ => rfl
  | finished r => rfl

theorem resume_remeasured (hq : Collector.IsIdle q) (stage : Stage) :
    (a.measuredBy q).resume world (stage, s.measured xs) =
      remeasured xs (a.resume world (stage, s)) := by
  have hadvance : (a.measuredBy q).advance world (stage, s.measured xs) =
      remeasured xs (a.advance world (stage, s)) := advance_remeasured hq stage
  cases stage with
  | holding call left number conn url =>
    have hup : (a.measuredBy q).client.givesUp (s.measured xs) = a.client.givesUp s := rfl
    simp only [resume, hup]
    split
    · exact finish_remeasured hq (.error .cancelled, s)
    · exact hadvance
  | asked | ready | finished => exact hadvance

end

end Ask

end ClusterOutput
