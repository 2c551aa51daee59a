/-
One attempt of a request: how its parts end, and what they add to the session.
Looking for a connection comes to a connection and a URL, or stops the request.
The exchange there comes to its end, and the pool is told of it, or the run is
interrupted before, and the pool is not.
-/
import ClusterOutput.Client.Dispatch
import ClusterOutput.Proofs.Journal

namespace ClusterOutput

/-- The exchange is one of a request, on a connection and at the URL composed for it. -/
structure Exchange.IsOf (method : String) (payload : Option Bytes) (conn : Connection) (url : Url)
    (x : Exchange) : Prop where
  connection_eq : x.connection = conn
  url_eq : x.url = url
  request_eq : x.request = .make method url conn.credentials payload

namespace Client

variable {c : Client} {world : World} {call : Call} {s s' : Session}

theorem did_noteError (c : Client) (world : World) (op : Operation) (method : String)
    (e : RequestError) (s : Session) : s.Did world [] [] (c.noteError world op method e s) :=
  ⟨rfl, by simp [noteError, Session.record, Session.pass],
    by simp [noteError, Session.record, Session.pass], rfl,
    fun h => by simp [noteError, Session.record, Session.pass, h]⟩

theorem did_noteRetry (c : Client) (world : World) (op : Operation) (method : String)
    (number : Nat) (s : Session) : s.Did world [] [] (c.noteRetry world op method number s) :=
  ⟨rfl, by simp [noteRetry, Session.record, Session.pass],
    by simp [noteRetry, Session.record, Session.pass], rfl,
    fun h => by simp [noteRetry, Session.record, Session.pass, h]⟩

@[simp] theorem noteError_counts (c : Client) (world : World) (op : Operation) (method : String)
    (e : RequestError) (s : Session) :
    (c.noteError world op method e s).counts = (s.journal.errors + 1, s.journal.retries) := rfl

@[simp] theorem noteRetry_counts (c : Client) (world : World) (op : Operation) (method : String)
    (number : Nat) (s : Session) :
    (c.noteRetry world op method number s).counts = (s.journal.errors, s.journal.retries + 1) := rfl

/-! ## One attempt -/

/-- How an attempt on a connection ends: a watched one is cancelled if the run is interrupted before
the end of its exchange. -/
inductive Attempted (world : World) (watched : Bool) (method : String) (payload : Option Bytes)
    (conn : Connection) (url : Url) (s : Session) : Except RequestError Bytes × Session → Prop
  | completed {x : Exchange} {s' : Session} (hx : x.IsOf method payload conn url)
    (hover : (watched && x.reply.isOpen) = false) (hdid : s.Did world [x.mark] [x] s') :
    Attempted world watched method payload conn url s (x.outcome, s')
  | interrupted {x : Exchange} {s' : Session} (hx : x.IsOf method payload conn url)
    (hopen : x.reply.isOpen = true) (hdid : s.Did world [] [x] s') (hwatched : watched = true)
    (hs' : s'.isCancelled = true) :
    Attempted world watched method payload conn url s (.error .cancelled, s')

section

variable {watched : Bool} {op : Operation} {method : String} {payload : Option Bytes}
  {conn : Connection} {url : Url} {x : Exchange} {s₁ : Session}

/-- What an exchange that is over comes to, when the pool was told of it. -/
theorem Attempted.of_outcome {r : Except RequestError Bytes × Session} {marked : PoolStep}
    (hx : x.IsOf method payload conn url) (hover : (watched && x.reply.isOpen) = false)
    (hout : x.outcome = r.1) (hmark : x.mark = marked)
    (hdid : s.Did world [marked] [x] r.2) : Attempted world watched method payload conn url s r := by
  obtain ⟨r, s'⟩ := r
  obtain rfl : x.outcome = r := hout
  exact .completed hx hover (hmark ▸ hdid)

theorem unanswered_ends {failure : Http.Failure} (hx : x.IsOf method payload conn url)
    (hover : (watched && x.reply.isOpen) = false)
    (hout : x.outcome = .error (.transport url.text failure)) (hdid : s.Did world [] [x] s₁) :
    Attempted world watched method payload conn url s
      (c.unanswered op method conn url failure s₁) := by
  refine .of_outcome hx hover hout (Exchange.mark_of_error hout) ?_
  rw [hx.connection_eq]
  exact hdid.trans ((Session.did_record world s₁ _ _).after (Session.did_markDead world _ _ _))

theorem answered_ends {status : Nat} {final : Url} {body : Option Bytes}
    (hx : x.IsOf method payload conn url) (hover : (watched && x.reply.isOpen) = false)
    (hreply : x.reply = .answered status final body ∨ x.reply = .cut status final ∧ body = none)
    (hdid : s.Did world [] [x] s₁) :
    Attempted world watched method payload conn url s
      (c.answered conn url final status body s₁) := by
  have hdead : s.Did world [.markedDead x.connection] [x] (s₁.markDead c.collector conn) := by
    rw [hx.connection_eq]
    exact hdid.trans (Session.did_markDead world s₁ c.collector conn)
  have hlive : s.Did world [.markedLive x.connection] [x] (s₁.markLive c.collector conn) := by
    rw [hx.connection_eq]
    exact hdid.trans (Session.did_markLive world s₁ c.collector conn)
  have hmeans := Exchange.outcome_of_answer hreply
  rw [hx.url_eq] at hmeans
  simp only [answered, isUnhealthyStatus, decide_eq_true_eq]
  split
  next hs =>
    have hout := hmeans.trans (if_pos hs)
    exact .of_outcome hx hover hout (Exchange.mark_of_error hout) hdead
  next hs =>
    have hout := hmeans.trans (if_neg hs)
    cases body with
    | some bytes => exact .of_outcome hx hover hout (Exchange.mark_of_ok hout) hlive
    | none => exact .of_outcome hx hover hout (Exchange.mark_of_error hout) hdead

theorem attempt_ends (c : Client) (world : World) (watched : Bool) (op : Operation)
    (conn : Connection) (method : String) (url : Url) (payload : Option Bytes) (s : Session) :
    Attempted world watched method payload conn url s
      (c.attempt world watched op conn method url payload s) := by
  unfold attempt
  generalize hs₀ : s.record c.collector [.attempt op method] = s₀
  have h₀ : s.Did world [] [] s₀ := hs₀ ▸ Session.did_record world s _ _
  cases hsend : Http.send world.network s₀.journal.wire
      (Http.Request.make method url conn.credentials payload) with
  | mk reply wire =>
    simp only [hsend]
    generalize hx : (⟨conn, url, Http.Request.make method url conn.credentials payload, reply⟩ :
      Exchange) = x
    have hof : x.IsOf method payload conn url := hx ▸ ⟨rfl, rfl, rfl⟩
    have hreply : x.reply = reply := hx ▸ rfl
    have h₁ := h₀.after (Session.did_hand (x := x) (by rw [← hx]; exact hsend))
    cases reply with
    | interrupted =>
      have h₂ := h₁.before (Session.did_cancel world _)
      cases watched with
      | true => exact .interrupted hof (by rw [hreply]; rfl) h₂ rfl rfl
      | false =>
        refine unanswered_ends hof rfl ?_ h₂
        simp only [Exchange.outcome, hreply, hof.url_eq, hof.request_eq]
    | failed failure =>
      refine unanswered_ends hof (by rw [hreply]; exact Bool.and_false _) ?_ h₁
      simp only [Exchange.outcome, hreply, hof.url_eq]
    | answered status final body =>
      refine answered_ends hof (by rw [hreply]; exact Bool.and_false _) (.inl hreply) ?_
      exact h₁.before (Session.did_record world _ _ _)
    | cut status final =>
      have h₂ := h₁.before ((Session.did_cancel world _).before (Session.did_record world _
        c.collector [.duration op method (some status)]))
      cases watched with
      | true => exact .interrupted hof (by rw [hreply]; rfl) h₂ rfl rfl
      | false => exact answered_ends hof rfl (.inr ⟨hreply, rfl⟩) h₂

/-- An attempt itself counts nothing. -/
theorem attempt_counts (c : Client) (world : World) (watched : Bool) (op : Operation)
    (conn : Connection) (method : String) (url : Url) (payload : Option Bytes) (s : Session) :
    (c.attempt world watched op conn method url payload s).2.counts = s.counts := by
  have hunanswered (failure : Http.Failure) (s₁ : Session) :
      (c.unanswered op method conn url failure s₁).2.counts = s₁.counts := by
    simp [unanswered]
  have hanswered (final : Url) (status : Nat) (body : Option Bytes) (s₁ : Session) :
      (c.answered conn url final status body s₁).2.counts = s₁.counts := by
    unfold answered
    split
    · simp
    · cases body <;> simp
  unfold attempt
  simp only []
  split
  · split
    · rfl
    · exact hunanswered _ _
  · exact hunanswered _ _
  · exact hanswered _ _ _ _
  · split
    · rfl
    · exact hanswered _ _ _ _

end

/-! ## The parts of an attempt -/

/-- What comes of looking for a connection and a URL. -/
inductive Prepared (c : Client) (world : World) (call : Call) (s : Session) :
    Except RequestError (Connection × Url) × Session → Prop
  | aimed {conn : Connection} {url : Url} {s' : Session}
    (htarget : target conn.url call.path call.query = .ok url)
    (hdid : s.Did world [.taken conn] [] s') : Prepared c world call s (.ok (conn, url), s')
  | noConnections {s' : Session} (hempty : s.pool.slots = []) (hdid : s.Did world [] [] s') :
    Prepared c world call s (.error .noConnections, s')
  | noUrl {conn : Connection} {message : String} {s' : Session}
    (htarget : target conn.url call.path call.query = .error (.invalidUrl message))
    (hdid : s.Did world [.taken conn] [] s') :
    Prepared c world call s (.error (.invalidUrl message), s')
  | gaveUp {s' : Session} (hdid : s.Did world [] [] s') (hup : c.givesUp s' = true) :
    Prepared c world call s (.error .cancelled, s')
  | gaveUpLate {conn : Connection} {s' : Session} (hdid : s.Did world [.taken conn] [] s')
    (hup : c.givesUp s' = true) : Prepared c world call s (.error .cancelled, s')

theorem givesUp_mono {steps : List PoolStep} {sent : List Exchange}
    (hdid : s.Did world steps sent s') (h : c.givesUp s = true) : c.givesUp s' = true := by
  simp only [givesUp, Bool.and_eq_true] at h ⊢
  exact ⟨h.1, hdid.token h.2⟩

/-- A URL that cannot be composed is the only fault of a target. -/
theorem target_error {base path : String} {query : Option String} {e : RequestError}
    (h : target base path query = .error e) : ∃ message, e = .invalidUrl message := by
  unfold target at h
  simp only [] at h
  split at h
  · cases h
  · cases h; exact ⟨_, rfl⟩

theorem prepare_ends (c : Client) (world : World) (call : Call) (number : Nat) (s : Session) :
    Prepared c world call s (c.prepare world call number s) := by
  unfold prepare
  split
  next hup => exact .gaveUp (.refl world s) hup
  simp only []
  generalize hs₁ : (if isRetry number = true then
    c.noteRetry world call.operation call.method number s else s) = s₁
  have h₁ : s.Did world [] [] s₁ := by
    rw [← hs₁]
    split
    · exact did_noteRetry c world _ _ _ s
    · exact .refl world s
  split
  next hup =>
    simp only [Bool.and_eq_true] at hup
    exact .gaveUp h₁ hup.2
  split
  next hnone =>
    exact .noConnections (h₁.slots_eq_nil.mp (Session.take?_eq_none.mp hnone)) h₁
  next conn s₂ htake =>
    have h₂ := h₁.after (Session.did_take world htake)
    split
    next e htarget =>
      obtain ⟨message, rfl⟩ := target_error htarget
      exact .noUrl htarget h₂
    next url htarget =>
      have h₃ := h₂.before (Session.did_log world s₂ (.sending number c.maxRetries call.method url.text))
      split
      next hup => exact .gaveUpLate h₃ hup
      next => exact .aimed htarget h₃

/-- Before its exchange an attempt counts a retry if it is one, unless it is not to be made. -/
theorem prepare_counts (c : Client) (world : World) (call : Call) (number : Nat) (s : Session) :
    (c.prepare world call number s).2.counts =
      (s.journal.errors,
        s.journal.retries + if isRetry number && !c.givesUp s then 1 else 0) := by
  unfold prepare
  split
  next hup => simp [hup, Session.counts]
  next hup =>
    simp only []
    generalize hs₁ : (if isRetry number = true then
      c.noteRetry world call.operation call.method number s else s) = s₁
    have h₁ : s₁.counts = (s.journal.errors,
        s.journal.retries + if isRetry number && !c.givesUp s then 1 else 0) := by
      rw [← hs₁]
      split
      next hretry => simp [hretry, hup]
      next hretry => simp [hretry, Session.counts]
    split
    · exact h₁
    split
    · exact h₁
    next conn s₂ htake =>
      have h₂ := (Session.take?_counts htake).trans h₁
      split
      · exact h₂
      · split <;> exact h₂

/-- A client that has to give up makes no attempt. -/
theorem prepare_up (world : World) (call : Call) (number : Nat) (hup : c.givesUp s = true) :
    c.prepare world call number s = (.error .cancelled, s) := by
  rw [prepare, if_pos hup]

theorem tryOn_ends (c : Client) (world : World) (call : Call) (number : Nat) (conn : Connection)
    (url : Url) (s : Session) :
    Attempted world c.carriesToken call.method call.payload conn url s
      (c.tryOn world call number conn url s) := by
  have h := attempt_ends c world c.carriesToken call.operation conn call.method url call.payload s
  unfold tryOn
  generalize c.attempt world c.carriesToken call.operation conn call.method url call.payload s = r
    at h ⊢
  cases h with
  | interrupted hx hopen hdid hwatched hs' => exact .interrupted hx hopen hdid hwatched hs'
  | @completed x s₁ hx hover hdid =>
    cases hout : x.outcome with
    | ok bytes =>
      refine .of_outcome hx hover hout rfl ?_
      show s.Did world [x.mark] [x] (if isRetry number = true then _ else _)
      split
      · exact hdid.before (Session.did_log world _ _)
      · exact hdid
    | error e =>
      have hne := Exchange.ne_cancelled hout
      have hfail : s.Did world [x.mark] [x]
          (c.noteError world call.operation call.method e
            (s₁.log (.attemptFailed number c.maxRetries conn.url e))) :=
        hdid.before ((Session.did_log world _ _).after (did_noteError c world _ _ _ _))
      split
      next heq => cases heq
      next heq => cases heq; exact absurd rfl hne
      next heq => cases heq; exact .of_outcome hx hover hout rfl hfail

/-- How many failures the result of an attempt counts for. -/
def failures : Except RequestError Bytes → Nat
  | .ok _ | .error .cancelled => 0
  | .error _ => 1

theorem failures_error {e : RequestError} (h : e ≠ .cancelled) : failures (.error e) = 1 := by
  cases e with
  | cancelled => exact absurd rfl h
  | _ => rfl

theorem tryOn_counts (c : Client) (world : World) (call : Call) (number : Nat) (conn : Connection)
    (url : Url) (s : Session) :
    (c.tryOn world call number conn url s).2.counts =
      (s.journal.errors + failures (c.tryOn world call number conn url s).1,
        s.journal.retries) := by
  have h := attempt_counts c world c.carriesToken call.operation conn call.method url call.payload s
  unfold tryOn
  generalize c.attempt world c.carriesToken call.operation conn call.method url call.payload s = r
    at h ⊢
  obtain ⟨r, s₁⟩ := r
  cases r with
  | ok bytes =>
    simp only []
    split <;> exact h
  | error e =>
    obtain ⟨herrors, hretries⟩ := Prod.mk.inj h
    cases e with
    | cancelled => exact h
    | _ => exact Prod.ext (congrArg (· + 1) herrors) hretries

end Client

end ClusterOutput
