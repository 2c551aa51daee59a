/-
What becomes of the requests of a command. Their exchanges alone tell it: whether
a request was answered and what the command makes of the answer, or why there was
none (`Replied`). No exchanges tell two tales (`Replied.det`), and what a client
reports of a request is what its exchanges tell (`reading_replied`).
-/
import ClusterOutput.Proofs.Cli.ExitCode
import ClusterOutput.Proofs.Client.Calm
import ClusterOutput.Proofs.Client.Cancellation
import ClusterOutput.Proofs.Client.Ending

namespace ClusterOutput.Cli

/-! ## Requests that are not answered -/

/-- Why a request was not answered. -/
inductive Miss where
  /-- The run was interrupted within the last exchange. -/
  | interrupted
  /-- All attempts failed, the last for want of an answer or of the rest of one. -/
  | noAnswer
  /-- All attempts failed, the last with a status above 499. -/
  | unavailable
  /-- No attempt may be made. -/
  | noAttempt
  | noConnections
  /-- The URL of a connection makes none with the path. -/
  | noUrl
  deriving DecidableEq

def Miss.code : Miss → ExitCode
  | interrupted => .interrupted
  | noAnswer => .connectionError
  | unavailable => .serviceUnavailable
  | noAttempt | noConnections | noUrl => .generalError

/-- The exchange is one that the call makes; it came to its end, and failed. -/
structure Failing (call : Client.Call) (x : Exchange) : Prop where
  makes : call.Makes x
  fails : x.reply.fails = true
  ended : x.reply.isOpen = false

/-- The exchanges of a call that was not answered, with the reason. -/
inductive Missed (c : Client) (conns : List Connection) (call : Client.Call) :
    List Exchange → Miss → Prop
  | interrupted {failed : List Exchange} {x : Exchange} (hfailed : ∀ y ∈ failed, Failing call y)
    (hlen : failed.length < c.maxRetries) (hx : call.Makes x) (hopen : x.reply.isOpen = true) :
    Missed c conns call (failed ++ [x]) .interrupted
  | noAnswer {failed : List Exchange} {x : Exchange} (hfailed : ∀ y ∈ failed ++ [x], Failing call y)
    (hlen : (failed ++ [x]).length = c.maxRetries)
    (hstatus : ∀ status, x.reply.status? = some status → status ≤ 499) :
    Missed c conns call (failed ++ [x]) .noAnswer
  | unavailable {failed : List Exchange} {x : Exchange} {status : Nat}
    (hfailed : ∀ y ∈ failed ++ [x], Failing call y) (hlen : (failed ++ [x]).length = c.maxRetries)
    (hstatus : x.reply.status? = some status) (habove : 499 < status) :
    Missed c conns call (failed ++ [x]) .unavailable
  | noAttempt (hmax : c.maxRetries = 0) : Missed c conns call [] .noAttempt
  | noConnections (hmax : 1 ≤ c.maxRetries) (hnone : conns = []) :
    Missed c conns call [] .noConnections
  | noUrl {failed : List Exchange} {conn : Connection} {message : String}
    (hfailed : ∀ y ∈ failed, Failing call y) (hlen : failed.length < c.maxRetries)
    (hconn : conn ∈ conns)
    (htarget : Client.target conn.url call.path call.query = .error (.invalidUrl message)) :
    Missed c conns call failed .noUrl

theorem fails_of_open {x : Exchange} (h : x.reply.isOpen = true) : x.reply.fails = true := by
  cases hreply : x.reply <;> rw [hreply] at h <;> first | rfl | cases h

section

variable {c : Client} {conns : List Connection} {call : Client.Call} {sent : List Exchange}
  {m m' : Miss}

theorem Missed.fails (h : Missed c conns call sent m) : ∀ y ∈ sent, y.reply.fails = true := by
  cases h with
  | interrupted hfailed _ _ hopen =>
    rw [List.forall_mem_append, List.forall_mem_singleton]
    exact ⟨fun y hy => (hfailed y hy).fails, fails_of_open hopen⟩
  | noAnswer hfailed | unavailable hfailed | noUrl hfailed => exact fun y hy => (hfailed y hy).fails
  | noAttempt | noConnections => exact List.forall_mem_nil _

/-- The reason that the exchanges of a call tell. -/
def reasonOf (c : Client) (conns : List Connection) (sent : List Exchange) : Miss :=
  match sent.getLast? with
  | some x =>
    if x.reply.isOpen then .interrupted
    else if sent.length < c.maxRetries then .noUrl
    else if x.reply.status?.any (499 < ·) then .unavailable
    else .noAnswer
  | none => if c.maxRetries = 0 then .noAttempt else if conns = [] then .noConnections else .noUrl

theorem Missed.reason (h : Missed c conns call sent m) : reasonOf c conns sent = m := by
  cases h with
  | interrupted hfailed hlen hx hopen => simp [reasonOf, hopen]
  | @noAnswer failed x hfailed hlen hstatus =>
    have hended := (hfailed x List.mem_concat_self).ended
    have hlow : x.reply.status?.any (499 < ·) = false := by
      cases hreply : x.reply.status? with
      | none => rfl
      | some status => simpa using hstatus status hreply
    rw [reasonOf, List.getLast?_concat]
    simp only [hended, hlen, Nat.lt_irrefl, hlow, Bool.false_eq_true, if_false]
  | @unavailable failed x status hfailed hlen hstatus habove =>
    have hended := (hfailed x List.mem_concat_self).ended
    rw [reasonOf, List.getLast?_concat]
    simp only [hended, hlen, Nat.lt_irrefl, hstatus, Option.any_some, decide_eq_true habove,
      Bool.false_eq_true, if_false, if_true]
  | noAttempt hmax => simp [reasonOf, hmax]
  | noConnections hmax hnone =>
    have hne : c.maxRetries ≠ 0 := by omega
    simp [reasonOf, hne, hnone]
  | noUrl hfailed hlen hconn =>
    have hmax : c.maxRetries ≠ 0 := by omega
    have hsome : conns ≠ [] := List.ne_nil_of_mem hconn
    cases hlast : sent.getLast? with
    | none => simp [reasonOf, hlast, hmax, hsome]
    | some x =>
      have hended := (hfailed x (List.mem_of_getLast? hlast)).ended
      simp [reasonOf, hlast, hended, hlen]

end

/-! ## What is made of answers -/

/-- The answer to an operation can be read. -/
def Reads (op : Operation) (b : Bytes) : Prop :=
  match op with
  | .search => ∃ a, SearchAnswer.read b = .ok a
  | .index | .delete | .createIndex | .refresh => ∃ a, Acknowledgement.read b = .ok a
  | .request => True

/-- What becomes of a request. -/
inductive Reply where
  | missed (m : Miss)
  | undecodable
  /-- The answer is not what the command takes for success. -/
  | refused
  | taken
  deriving DecidableEq

/-- There was an answer, and it could be read. -/
def Reply.isAnswer : Reply → Bool
  | missed _ | undecodable => false
  | refused | taken => true

/-- What a command makes of the answer to an operation. -/
inductive Judged (op : Operation) (b : Bytes) : Reply → Prop
  | undecodable (hread : ¬ Reads op b) : Judged op b .undecodable
  | refused (hread : Reads op b) (htakes : ¬ Takes op b) : Judged op b .refused
  | taken (hread : Reads op b) (htakes : Takes op b) : Judged op b .taken

theorem Judged.det {op : Operation} {b : Bytes} {reply reply' : Reply} (h : Judged op b reply)
    (h' : Judged op b reply') : reply = reply' := by
  cases h <;> cases h' <;> first | rfl | contradiction

/-- Where an answer is taken if only it can be read, none is refused. -/
theorem Judged.taken_of_reads {op : Operation} {b : Bytes} {reply : Reply} (h : Judged op b reply)
    (hop : Reads op b → Takes op b) (hanswer : reply.isAnswer = true) : reply = .taken := by
  cases h with
  | undecodable => cases hanswer
  | refused hread htakes => exact absurd (hop hread) htakes
  | taken => rfl

/-- The exchanges of a call, and what became of it. -/
inductive Replied (c : Client) (conns : List Connection) (call : Client.Call) :
    List Exchange → Reply → Prop
  | missed {sent : List Exchange} {m : Miss} (h : Missed c conns call sent m) :
    Replied c conns call sent (.missed m)
  | answered {sent : List Exchange} {status : Nat} {b : Bytes} {reply : Reply}
    (h : Answered c call sent status b) (hjudged : Judged call.operation b reply) :
    Replied c conns call sent reply

section

variable {c : Client} {conns : List Connection} {call : Client.Call}
  {sent sent' later later' : List Exchange} {status status' : Nat} {b b' : Bytes}
  {reply reply' : Reply} {m : Miss}

/-- The first exchange that does not fail ends a call that is answered. -/
theorem Answered.ends (h : Answered c call sent status b) (later : List Exchange) :
    ∃ x final, sent = (sent ++ later).takeWhile (·.reply.fails) ++ [x] ∧
      x.reply = .answered status final (some b) ∧ x.reply.fails = false := by
  obtain ⟨hfailed, -, -, hreply, hstatus⟩ := h
  rename_i failed x final
  have hx : x.reply.fails = false := by
    rw [hreply]
    simp [Http.Reply.fails]
    omega
  refine ⟨x, final, ?_, hreply, hx⟩
  rw [List.append_assoc, List.takeWhile_append_of_pos fun y hy => (hfailed y hy).2,
    List.singleton_append, List.takeWhile_cons_of_neg (by simp [hx]), List.append_nil]

theorem Answered.det (h : Answered c call sent status b) (h' : Answered c call sent' status' b')
    (heq : sent ++ later = sent' ++ later') : sent = sent' ∧ b = b' := by
  obtain ⟨x, final, hsent, hreply, -⟩ := h.ends later
  obtain ⟨x', final', hsent', hreply', -⟩ := h'.ends later'
  rw [← heq] at hsent'
  have hlen : sent.length = sent'.length := by
    rw [hsent, hsent', List.length_append, List.length_append]
    rfl
  have hsame : sent = sent' := List.append_inj_left heq hlen
  refine ⟨hsame, ?_⟩
  rw [hsent, hsent'] at hsame
  obtain rfl : x = x' := List.singleton_inj.mp (List.append_cancel_left hsame)
  rw [hreply] at hreply'
  injection hreply' with _ _ hbody
  exact Option.some.inj hbody

/-- A call that is answered has not the exchanges of one that is not. -/
theorem Answered.not_missed (h : Answered c call sent status b)
    (h' : Missed c conns call (sent ++ later) m) : False := by
  obtain ⟨x, -, hsent, -, hx⟩ := h.ends later
  have hmem : x ∈ sent ++ later := by
    rw [hsent]
    simp
  rw [h'.fails x hmem] at hx
  cases hx

/-- What became of a call is told by its exchanges, and so is where they end, if no others follow
unless there was an answer that could be read. -/
theorem Replied.det (h : Replied c conns call sent reply) (h' : Replied c conns call sent' reply')
    (heq : sent ++ later = sent' ++ later') (hlast : reply.isAnswer = false → later = [])
    (hlast' : reply'.isAnswer = false → later' = []) : sent = sent' ∧ reply = reply' := by
  cases h with
  | missed h =>
    rw [hlast rfl, List.append_nil] at heq
    cases h' with
    | missed h' =>
      rw [hlast' rfl, List.append_nil] at heq
      subst heq
      exact ⟨rfl, congrArg Reply.missed (h.reason.symm.trans h'.reason)⟩
    | answered h' => exact (h'.not_missed (heq ▸ h)).elim
  | answered h hjudged =>
    cases h' with
    | missed h' =>
      rw [hlast' rfl, List.append_nil] at heq
      exact (h.not_missed (heq ▸ h')).elim
    | answered h' hjudged' =>
      obtain ⟨hsame, rfl⟩ := h.det h' heq
      exact ⟨hsame, hjudged.det hjudged'⟩

theorem Replied.reply_eq (h : Replied c conns call sent reply)
    (h' : Replied c conns call sent reply') : reply = reply' := by
  have hsame : sent ++ [] = sent ++ [] := rfl
  exact (h.det h' hsame (fun _ => rfl) fun _ => rfl).2

end

/-! ## What a client reports -/

/-- The code for the error of an exchange tells whether its status was above 499. -/
theorem codeOf_outcome {x : Exchange} {e : RequestError} (h : x.outcome = .error e) :
    (∃ status, x.reply.status? = some status ∧ 499 < status ∧ codeOf e = .serviceUnavailable) ∨
      (∀ status, x.reply.status? = some status → status ≤ 499) ∧ codeOf e = .connectionError := by
  unfold Exchange.outcome at h
  split at h
  next hreply => cases h; exact .inr ⟨by simp [hreply, Http.Reply.status?], rfl⟩
  next hreply => cases h; exact .inr ⟨by simp [hreply, Http.Reply.status?], rfl⟩
  next status final body hreply =>
    split at h
    next habove => cases h; exact .inl ⟨status, by rw [hreply]; rfl, habove, rfl⟩
    next hlow =>
      split at h
      · cases h
      · cases h
        exact .inr ⟨by simp [hreply, Http.Reply.status?]; omega, rfl⟩
  next status final hreply =>
    split at h
    next habove => cases h; exact .inl ⟨status, by rw [hreply]; rfl, habove, rfl⟩
    next hlow => cases h; exact .inr ⟨by simp [hreply, Http.Reply.status?]; omega, rfl⟩

section

variable {c : Client} {conns : List Connection} {call : Client.Call} {failed : List Exchange}

variable (conns) in
/-- All attempts of a call failed. -/
theorem missed_of_exhausted (hfailed : ∀ y ∈ failed, Failing call y)
    (hlen : failed.length = c.maxRetries) :
    ∃ m, Missed c conns call failed m ∧
      codeOf (.retriesExhausted c.maxRetries (Client.lastError none failed)) = m.code := by
  obtain ⟨hnone, hlast⟩ :=
    Client.lastError_spec fun y hy => ⟨(hfailed y hy).makes, (hfailed y hy).fails⟩
  rcases List.eq_nil_or_concat failed with rfl | ⟨front, x, rfl⟩
  · exact ⟨_, .noAttempt hlen.symm, rfl⟩
  rw [List.concat_eq_append] at hfailed hlen hnone hlast ⊢
  cases herror : Client.lastError none (front ++ [x]) with
  | none => simp [hnone] at herror
  | some e =>
    obtain ⟨-, -, y, hy, hout⟩ := hlast e herror
    rw [List.getLast?_concat] at hy
    obtain rfl := Option.some.inj hy
    rcases codeOf_outcome hout with ⟨status, hstatus, habove, hcode⟩ | ⟨hlow, hcode⟩
    · exact ⟨_, .unavailable hfailed hlen hstatus habove, hcode⟩
    · exact ⟨_, .noAnswer hfailed hlen hlow, hcode⟩

end

/-- A run goes on: nothing cancels it from outside, its client notices if it is cancelled, and it is
not so far. -/
structure Steady (setting : Setting) (s : Session) : Prop where
  calm : ∀ m, setting.world.cancels m = false
  token : setting.client.carriesToken = true
  goes : s.isCancelled = false

section

variable {setting : Setting} {op : Operation} {method path : String}
  {params : Option Url.Params} {body : Option Body} {payload : Option Bytes} {s s' : Session}

/-- A request that ends in an error was not answered, for the reason that its code tells. -/
theorem requestAs_missed (hs : Steady setting s) (hbody : Client.payloadOf body = .ok payload)
    {e : RequestError}
    (h : setting.client.requestAs setting.world op method path params body s = (.error e, s')) :
    ∃ sent m, Missed setting.client s.pool.connections
        ⟨op, method, path, Client.queryOf params, payload⟩ sent m ∧
      codeOf e = m.code ∧ s'.journal.sent = s.journal.sent ++ sent := by
  generalize hcall : (⟨op, method, path, Client.queryOf params, payload⟩ : Client.Call) = call
  obtain ⟨failed, last, haccount⟩ : ∃ failed last, setting.client.Account setting.world
      ⟨op, method, path, Client.queryOf params, payload⟩ setting.client.maxRetries 1 none s
      (setting.client.requestAs setting.world op method path params body s) failed last
      (Client.lateErrors
        (setting.client.requestAs setting.world op method path params body s).1) :=
    Client.requestAs_account setting.world s hbody
  obtain ⟨hist, hran, hcourse, -, hempty⟩ :
      setting.client.Goes setting.world ⟨op, method, path, Client.queryOf params, payload⟩
        setting.client.maxRetries none s
        (setting.client.requestAs setting.world op method path params body s) :=
    Client.requestAs_course hbody
  have hcalmed := Client.requestAs_calm op method path params hs.calm hs.token hs.goes hbody
  rw [h, hcall] at haccount
  rw [h] at hran hcalmed
  rw [h, hcall] at hcourse
  rw [h] at hempty
  have hsent := haccount.sent_eq
  have hmakes : ∀ x ∈ failed ++ last.flatMap Attempt.exchanges, call.Makes x := by
    rw [← hsent, hran.sentSince_eq]
    exact hcourse.makes
  rw [List.forall_mem_append] at hmakes
  have hfailed : ∀ x ∈ failed, Failing call x := by
    intro x hx
    obtain ⟨hfails, hended⟩ := haccount.ended x hx
    rw [hs.token, Bool.true_and] at hended
    exact ⟨hmakes.1 x hx, hfails, hended⟩
  have hhanded :
      s'.journal.sent = s.journal.sent ++ (failed ++ last.flatMap Attempt.exchanges) := by
    have hdid := haccount.ran.handed
    rwa [List.flatMap_append, exchanges_completed] at hdid
  have hcancelled (he : e = .cancelled) : ∃ x, last = [.interrupted x] ∧ x.reply.isOpen = true := by
    subst he
    obtain ⟨x, hx, hopen⟩ := hcalmed.1 rfl
    exact ⟨x, (haccount.breaks_off hs.token hx hopen).2, hopen⟩
  -- either all attempts failed, or one ended the request; the world cancels nothing, so that one was
  -- without a connection, without a URL or broken off within its exchange
  rcases haccount.ends with ⟨hlen, rfl, hr⟩ | ⟨hlt, hstop⟩
  · rw [List.flatMap_nil, List.append_nil] at hhanded
    obtain ⟨m, hmissed, hcode⟩ := missed_of_exhausted s.pool.connections hfailed hlen
    obtain rfl := Except.error.inj hr
    exact ⟨failed, m, hmissed, hcode, hhanded⟩
  · have hmissed {m : Miss} (hcode : codeOf e = m.code)
        (hm : Missed setting.client s.pool.connections call
          (failed ++ last.flatMap Attempt.exchanges) m) : ∃ sent m,
        Missed setting.client s.pool.connections call sent m ∧ codeOf e = m.code ∧
          s'.journal.sent = s.journal.sent ++ sent := ⟨_, m, hm, hcode, hhanded⟩
    cases hstop with
    | noConnections =>
      have hslots := hempty rfl
      obtain rfl : failed = [] := by simpa using Client.ran_empty hslots haccount.ran
      exact hmissed rfl (.noConnections hlt (by simp [Pool.connections, hslots]))
    | @noUrl conn message htarget =>
      have hconn : conn ∈ s.pool.connections := by
        refine Pool.replay_taken_mem haccount.ran.pool ?_
        simp [Attempt.steps]
      rw [show [Attempt.unsent conn].flatMap Attempt.exchanges = [] from rfl,
        List.append_nil] at hmissed
      exact hmissed rfl (.noUrl hfailed hlt hconn htarget)
    | gaveUp | gaveUpLate =>
      obtain ⟨x, hlast, -⟩ := hcancelled rfl
      cases hlast
    | @interrupted x hx =>
      obtain ⟨y, hlast, hopen⟩ := hcancelled rfl
      cases hlast
      exact hmissed rfl (.interrupted hfailed hlt hx hopen)

/-- How the answers to an operation are read. -/
structure ReadsBy {α : Type} (op : Operation) (read : Bytes → Except RequestError α) : Prop where
  iff_ok : ∀ b, Reads op b ↔ ∃ a, read b = .ok a
  code : ∀ b e, read b = .error e → codeOf e = .validationError

theorem mapError_decode_code {α : Type} {target : String} {r : Except Json.Error α}
    {e : RequestError} (h : r.mapError (.decode target) = .error e) :
    codeOf e = .validationError := by
  cases r with
  | ok a => cases h
  | error fault =>
    cases h
    rfl

theorem readsBy_acknowledgement
    (h : op = .index ∨ op = .delete ∨ op = .createIndex ∨ op = .refresh) :
    ReadsBy op Acknowledgement.read where
  iff_ok b := by rcases h with rfl | rfl | rfl | rfl <;> rfl
  code _ _ hread := mapError_decode_code hread

theorem readsBy_search : ReadsBy .search SearchAnswer.read where
  iff_ok _ := Iff.rfl
  code _ _ hread := mapError_decode_code hread

/-- The code of a command that makes one request. -/
def Reply.code : Reply → ExitCode
  | missed m => m.code
  | undecodable => .validationError
  | refused => .notFound
  | taken => .success

/-- What a client reports of a call is what became of it. -/
structure Reported {α : Type} (setting : Setting) (call : Client.Call)
    (read : Bytes → Except RequestError α) (s : Session) (r : Except Failure α × Session)
    (sent : List Exchange) (reply : Reply) : Prop where
  replied : Replied setting.client s.pool.connections call sent reply
  handed : r.2.journal.sent = s.journal.sent ++ sent
  connections : r.2.pool.connections = s.pool.connections
  of_ok : ∀ a, r.1 = .ok a → reply.isAnswer = true ∧ Steady setting r.2 ∧
    ∃ b, read b = .ok a ∧ Judged call.operation b reply
  of_error : ∀ f, r.1 = .error f → reply.isAnswer = false ∧ f.code = reply.code

theorem reading_reported {α : Type} {read : Bytes → Except RequestError α} (hs : Steady setting s)
    (method path : String) (params : Option Url.Params) (hread : ReadsBy op read)
    (hbody : Client.payloadOf body = .ok payload) (context : String) :
    ∃ sent reply, Reported setting ⟨op, method, path, Client.queryOf params, payload⟩ read s
      (inContext context (setting.client.reading setting.world op method read
        (setting.client.requestAs setting.world op method path params body s))) sent reply := by
  obtain ⟨hist, hran, -⟩ :
      setting.client.Goes setting.world ⟨op, method, path, Client.queryOf params, payload⟩
        setting.client.maxRetries none s
        (setting.client.requestAs setting.world op method path params body s) :=
    Client.requestAs_course hbody
  have hcalmed := Client.requestAs_calm op method path params hs.calm hs.token hs.goes hbody
  cases hrequest : setting.client.requestAs setting.world op method path params body s with
  | mk r s₁ =>
  rw [hrequest] at hran hcalmed
  cases r with
  | error e =>
    obtain ⟨sent, m, hm, hcode, hsent⟩ := requestAs_missed hs hbody hrequest
    obtain ⟨hkept, hpool⟩ := inContext_session context
      ((.error e, s₁) : Except RequestError α × Session)
    refine ⟨sent, .missed m, .missed hm, hkept.trans hsent,
      (congrArg Pool.connections hpool).trans hran.connections, ?_, ?_⟩
    · rintro _ ⟨⟩
    · rintro f ⟨⟩
      exact ⟨rfl, hcode⟩
  | ok b =>
    obtain ⟨sent, status, hanswer, hsent⟩ := requestAs_answered hbody hrequest
    have hsteady : Steady setting s₁ := ⟨hs.calm, hs.token, hcalmed.2 (by simp)⟩
    cases hvalue : read b with
    | error e =>
      have hno : ¬ Reads op b := by
        rw [hread.iff_ok, hvalue]
        simp
      obtain ⟨hkept, hpool⟩ := inContext_session context
        ((.error e, setting.client.noteError setting.world op method e s₁) :
          Except RequestError α × Session)
      simp only [Client.reading, hvalue]
      refine ⟨sent, .undecodable, .answered hanswer (.undecodable hno), hkept.trans hsent,
        (congrArg Pool.connections hpool).trans hran.connections, ?_, ?_⟩
      · rintro _ ⟨⟩
      · rintro f ⟨⟩
        exact ⟨rfl, hread.code b e hvalue⟩
    | ok a =>
      have hreads : Reads op b := (hread.iff_ok b).mpr ⟨a, hvalue⟩
      obtain ⟨reply, hjudged, hreply⟩ : ∃ reply, Judged op b reply ∧ reply.isAnswer = true := by
        by_cases htakes : Takes op b
        · exact ⟨_, .taken hreads htakes, rfl⟩
        · exact ⟨_, .refused hreads htakes, rfl⟩
      simp only [Client.reading, hvalue]
      refine ⟨sent, reply, .answered hanswer hjudged, hsent, hran.connections, ?_, ?_⟩
      · rintro a' ⟨⟩
        exact ⟨hreply, hsteady, b, hvalue, hjudged⟩
      · rintro _ ⟨⟩

end

end ClusterOutput.Cli
