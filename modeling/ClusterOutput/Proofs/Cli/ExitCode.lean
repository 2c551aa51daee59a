/-
What exit code 0 says. A command that ends with it made all the calls that it
stands for, in order, and each of them was answered with something that the
command takes for success (`success_granted`). Every other ending has a code of
its own.

A command judges an answer by its body. What is asked of the body differs:
storing a document asks for an id, deleting one for a sign that it was there, and
the others for no more than an object that can be read. The status is not looked
at, but that it is below 500.
-/
import ClusterOutput.Cli.Program
import ClusterOutput.Proofs.Client.Building
import ClusterOutput.Proofs.Client.Course

namespace ClusterOutput

/-- The status of an answer, if its head came. -/
def Http.Reply.status? : Http.Reply → Option Nat
  | .answered status .. | .cut status .. => some status
  | .failed _ | .interrupted => none

namespace Cli

/-! ## Calls that are granted -/

/-- The exchanges of a call that was answered, with the status and the body of the answer: all but
the last failed. -/
inductive Answered (c : Client) (call : Client.Call) : List Exchange → Nat → Bytes → Prop
  | intro {failed : List Exchange} {x : Exchange} {status : Nat} {final : Url} {b : Bytes}
    (hfailed : ∀ y ∈ failed, call.Makes y ∧ y.reply.fails = true)
    (hlen : failed.length < c.maxRetries) (hx : call.Makes x)
    (hreply : x.reply = .answered status final (some b)) (hstatus : status < 500) :
    Answered c call (failed ++ [x]) status b

/-- What a command that asks for an operation takes for success. -/
def Takes (op : Operation) (b : Bytes) : Prop :=
  match op with
  | .index => ∃ a, Acknowledgement.read b = .ok a ∧ a.id ≠ ""
  | .delete => ∃ a, Acknowledgement.read b = .ok a ∧ wasDeleted a = true
  | .createIndex | .refresh => ∃ a, Acknowledgement.read b = .ok a
  | .search => ∃ a, SearchAnswer.read b = .ok a
  | .request => True

/-- Calls that were made one after another, and their exchanges: each was answered, and the answer
was taken for success. -/
inductive Granted (c : Client) : List Client.Call → List Exchange → Prop
  | nil : Granted c [] []
  | cons {call : Client.Call} {calls : List Client.Call} {sent later : List Exchange}
    {status : Nat} {b : Bytes} (hanswered : Answered c call sent status b)
    (htakes : Takes call.operation b) (hrest : Granted c calls later) :
    Granted c (call :: calls) (sent ++ later)

section

variable {c : Client} {call : Client.Call} {calls later : List Client.Call}
  {sent sent' : List Exchange} {status : Nat} {b : Bytes}

theorem Granted.one (hanswered : Answered c call sent status b) (htakes : Takes call.operation b) :
    Granted c [call] sent := by
  have h := Granted.cons hanswered htakes .nil
  rwa [List.append_nil] at h

theorem Granted.append (h : Granted c calls sent) (h' : Granted c later sent') :
    Granted c (calls ++ later) (sent ++ sent') := by
  induction h with
  | nil => exact h'
  | cons hanswered htakes _ ih =>
    rw [List.append_assoc]
    exact .cons hanswered htakes ih

/-- If no status above 399 comes with what is taken for success, the answers have none. -/
theorem Granted.status_lt (h : Granted c calls sent)
    (hrefused : ∀ call ∈ calls, ∀ x ∈ sent, ∀ status final b,
      x.reply = .answered status final (some b) → 399 < status → ¬ Takes call.operation b) :
    ∀ x ∈ sent, x.reply.fails = false → ∃ status, x.reply.status? = some status ∧ status < 400 := by
  induction h with
  | nil => simp
  | @cons call calls sent later status b hanswered htakes hrest ih =>
    have hlater := ih fun call hcall x hx =>
      hrefused call (List.mem_cons_of_mem _ hcall) x (List.mem_append_right _ hx)
    intro x hx hok
    rcases List.mem_append.mp hx with hx | hx
    · cases hanswered with
      | @intro failed answer _ final _ hfailed hlen hmakes hreply hstatus =>
        rcases List.mem_append.mp hx with hx | hx
        · rw [(hfailed x hx).2] at hok
          cases hok
        · obtain rfl := List.mem_singleton.mp hx
          refine ⟨status, by rw [hreply]; rfl, ?_⟩
          by_contra habove
          exact hrefused call List.mem_cons_self x
            (List.mem_append_left _ (List.mem_append_right _ hx)) status final b hreply
            (by omega) htakes
    · exact hlater x hx hok

end

/-! ## What a client hands its commands -/

section

variable {c : Client} {world : World} {op : Operation} {method path : String}
  {params : Option Url.Params} {body : Option Body} {payload : Option Bytes} {s s' : Session}
  {α : Type} {a : α}

theorem payloadOf_none : Client.payloadOf none = .ok none := rfl

theorem payloadOf_json (v : Json) :
    Client.payloadOf (some (.json v)) = .ok (some (Utf8.encodeChars v.write)) := rfl

theorem requestAs_answered {b : Bytes} (hbody : Client.payloadOf body = .ok payload)
    (h : c.requestAs world op method path params body s = (.ok b, s')) :
    ∃ sent status, Answered c ⟨op, method, path, Client.queryOf params, payload⟩ sent status b ∧
      s'.journal.sent = s.journal.sent ++ sent := by
  obtain ⟨hist, hran, hcourse, -⟩ :
      c.Goes world ⟨op, method, path, Client.queryOf params, payload⟩ c.maxRetries none s
        (c.requestAs world op method path params body s) := Client.requestAs_course hbody
  rw [h] at hran hcourse
  obtain ⟨failed, tail, rfl, hfailed, ⟨-, -, hr⟩ | ⟨hlt, hstop⟩⟩ := hcourse.split
  · cases hr
  cases hstop with
  | answered hx hout =>
    obtain ⟨status, final, hreply, hstatus⟩ := Exchange.outcome_ok hout
    refine ⟨_, status, .intro hfailed hlt hx hreply hstatus, ?_⟩
    rw [hran.handed, List.flatMap_append, exchanges_completed]
    rfl

theorem reading_answered {read : Bytes → Except RequestError α}
    (hbody : Client.payloadOf body = .ok payload)
    (h : c.reading world op method read (c.requestAs world op method path params body s) =
      (.ok a, s')) :
    ∃ sent status b, Answered c ⟨op, method, path, Client.queryOf params, payload⟩ sent status b ∧
      read b = .ok a ∧ s'.journal.sent = s.journal.sent ++ sent := by
  cases hrequest : c.requestAs world op method path params body s with
  | mk r s₁ =>
  rw [hrequest] at h
  cases r with
  | error e => cases h
  | ok b =>
    obtain ⟨sent, status, hanswered, hsent⟩ := requestAs_answered hbody hrequest
    simp only [Client.reading] at h
    split at h
    next hread =>
      cases h
      exact ⟨sent, status, b, hanswered, hread, hsent⟩
    next => cases h

theorem inContext_ok {context : String} {r : Except RequestError α × Session} :
    inContext context r = (.ok a, s') ↔ r = (.ok a, s') := by
  obtain ⟨r, s⟩ := r
  cases r <;> simp [inContext]

/-- Noting an interrupt changes neither the pool nor what was sent. -/
theorem inContext_session (context : String) (r : Except RequestError α × Session) :
    (inContext context r).2.journal.sent = r.2.journal.sent ∧
      (inContext context r).2.pool = r.2.pool := by
  obtain ⟨r, s⟩ := r
  cases r with
  | ok a => exact ⟨rfl, rfl⟩
  | error e =>
    simp only [inContext]
    split <;> exact ⟨rfl, rfl⟩

/-- One call, if what the command reads of its answer is what it takes for success. -/
theorem reading_granted {context : String} {read : Bytes → Except RequestError α}
    (hbody : Client.payloadOf body = .ok payload)
    (h : inContext context (c.reading world op method read
      (c.requestAs world op method path params body s)) = (.ok a, s'))
    (htakes : ∀ b, read b = .ok a → Takes op b) :
    ∃ sent, Granted c [⟨op, method, path, Client.queryOf params, payload⟩] sent ∧
      s'.journal.sent = s.journal.sent ++ sent := by
  obtain ⟨sent, status, b, hanswered, hread, hsent⟩ := reading_answered hbody (inContext_ok.mp h)
  exact ⟨sent, .one hanswered (htakes b hread), hsent⟩

end

/-! ## The calls of a command -/

/-- The call that stores a document. -/
def Shipment.call (shipment : Shipment) (doc : Json) : Client.Call :=
  let id := (shipment.idField.map (documentId doc)).getD ""
  ⟨.index, if id = "" then "POST" else "PUT", Url.documentPath shipment.index shipment.docType id,
    none, some (Utf8.encodeChars doc.write)⟩

/-- The calls that store the documents of lines, if all lines are blank or have one. -/
def Shipment.calls (shipment : Shipment) :
    (number : Nat) → List Bytes → Except Failure (List Client.Call)
  | _, [] => .ok []
  | number, line :: lines =>
    match lineDocument? number line with
    | .error f => .error f
    | .ok none => shipment.calls (number + 1) lines
    | .ok (some doc) => (shipment.calls (number + 1) lines).map (shipment.call doc :: ·)

/-- The call that makes visible what was written to an index. -/
def refreshCall (index : String) : Client.Call :=
  ⟨.refresh, "POST", Url.documentPath index "" "_refresh", none, none⟩

/-- What a command asks of a cluster, as far as its input can be read. What was stored is made
visible only if something was. -/
def Command.calls (command : Command) (defaultIndex : String) (files : Files) (stdin : Bytes) :
    Except Failure (List Client.Call) :=
  match command with
  | .index input target docType idField thenRefresh => do
    let index := target.getD defaultIndex
    let content ← inputOf files stdin input
    let stores ← Shipment.calls ⟨index, docType, idField⟩ 1 (Text.rawLines content)
    .ok (stores ++ if thenRefresh && !stores.isEmpty then [refreshCall index] else [])
  | .delete id target docType =>
    .ok [⟨.delete, "DELETE", Url.documentPath (target.getD defaultIndex) docType id, none, none⟩]
  | .createIndex target =>
    .ok [⟨.createIndex, "PUT", Url.documentPath (target.getD defaultIndex) "" "", none, none⟩]
  | .refresh target => .ok [refreshCall (target.getD defaultIndex)]
  | .search query target docType size sort _ =>
    .ok [⟨.search, "GET", Url.documentPath (target.getD defaultIndex) docType "_search",
      Client.queryOf (some (searchParams query size sort)), none⟩]

/-! ## Commands that succeed -/

section

variable {setting : Setting} {shipment : Shipment} {number : Nat} {summary total : Summary}
  {line : Bytes} {lines : List Bytes} {index docType id : String} {s s' : Session}

/-- Noting a rejection changes nothing but the log. -/
theorem noteRejection_session (number : Nat) (a : Acknowledgement) (s : Session) :
    (noteRejection number a s).journal.sent = s.journal.sent ∧
      (noteRejection number a s).pool = s.pool ∧
      (noteRejection number a s).isCancelled = s.isCancelled := by
  unfold noteRejection
  split <;> exact ⟨rfl, rfl, rfl⟩

/-- Documents that were not taken stay counted. -/
theorem ship_rejected (h : ship setting shipment number summary lines s = (.ok total, s')) :
    summary.rejected ≤ total.rejected := by
  induction lines generalizing number summary s with
  | nil =>
    cases h
    exact Nat.le_refl _
  | cons line lines ih =>
    simp only [ship] at h
    split at h
    · cases h
    next summary₁ s₁ hline =>
      refine Nat.le_trans ?_ (ih h)
      simp only [shipLine] at hline
      split at hline
      · cases hline
      · cases hline
        exact Nat.le_refl _
      · split at hline
        · cases hline
        · cases hline
          simp only [Summary.count]
          split <;> simp

/-- If no document was turned away, those of all lines were stored, in order. -/
theorem ship_granted (h : ship setting shipment number summary lines s = (.ok total, s'))
    (htotal : total.rejected = 0) :
    ∃ calls sent, shipment.calls number lines = .ok calls ∧ Granted setting.client calls sent ∧
      total.indexed = summary.indexed + calls.length ∧
      s'.journal.sent = s.journal.sent ++ sent := by
  induction lines generalizing number summary s with
  | nil =>
    cases h
    exact ⟨[], [], rfl, .nil, rfl, (List.append_nil _).symm⟩
  | cons line lines ih =>
    simp only [ship] at h
    split at h
    · cases h
    next summary₁ s₁ hline =>
      have hkept := ship_rejected h
      obtain ⟨calls, later, hcalls, hgranted, hindexed, hlater⟩ := ih h
      simp only [shipLine] at hline
      split at hline
      · cases hline
      next hdoc =>
        cases hline
        refine ⟨calls, later, ?_, hgranted, hindexed, hlater⟩
        simp only [Shipment.calls, hdoc, hcalls]
      next doc hdoc =>
        split at hline
        · cases hline
        next a s₂ hstore =>
          cases hline
          have hid : a.id ≠ "" := by
            intro hid
            simp only [Summary.count, hid, if_true] at hkept
            omega
          simp only [Summary.count, if_neg hid] at hindexed
          obtain ⟨sent, hone, hsent⟩ :=
            reading_granted (payloadOf_json doc) hstore fun b hread => ⟨a, hread, hid⟩
          refine ⟨shipment.call doc :: calls, sent ++ later, ?_, hone.append hgranted, ?_, ?_⟩
          · simp only [Shipment.calls, hdoc, hcalls]
            rfl
          · rw [hindexed, List.length_cons]
            omega
          · rw [hlater, (noteRejection_session ..).1, hsent, List.append_assoc]
            rfl

theorem refreshAfter_granted {refresh : Bool}
    (h : refreshAfter setting index refresh summary s = (.ok (), s')) :
    ∃ sent, s'.journal.sent = s.journal.sent ++ sent ∧
      Granted setting.client
        (if refresh && 0 < summary.indexed then [refreshCall index] else []) sent := by
  simp only [refreshAfter] at h
  split at h
  next hrefresh =>
    rw [if_pos hrefresh]
    split at h
    next a s₁ hok =>
      cases h
      obtain ⟨sent, hgranted, hsent⟩ := reading_granted payloadOf_none hok fun b hread => ⟨a, hread⟩
      exact ⟨sent, hsent, hgranted⟩
    next => cases h
  next hrefresh =>
    cases h
    rw [if_neg hrefresh]
    exact ⟨[], (List.append_nil _).symm, .nil⟩

/-- A command that does not fail was granted all its calls. -/
theorem run_granted {command : Command} {defaultIndex : String} {files : Files} {stdin : Bytes}
    {printed : Printed}
    (h : command.run setting defaultIndex files stdin s = (printed, s'))
    (hsuccess : printed.failure = none) :
    ∃ calls sent, command.calls defaultIndex files stdin = .ok calls ∧
      Granted setting.client calls sent ∧ s'.journal.sent = s.journal.sent ++ sent := by
  cases command with
  | index input target docType idField thenRefresh =>
    simp only [Command.run, runIndex] at h
    split at h
    · cases h
      cases hsuccess
    next content hcontent =>
      split at h
      · cases h
        cases hsuccess
      next total s₁ hship =>
        simp only [afterLines] at h
        split at h
        · cases h
          cases hsuccess
        next s₂ hrefresh =>
          cases h
          have hrejected : total.rejected = 0 := by
            simp only [Summary.printed] at hsuccess
            split at hsuccess
            · cases hsuccess
            · omega
          obtain ⟨stores, sent, hstores, hgranted, hindexed, hsent⟩ := ship_granted hship hrejected
          obtain ⟨later, hlater, hlast⟩ := refreshAfter_granted hrefresh
          have hsome : decide (0 < total.indexed) = !stores.isEmpty := by
            cases stores <;> simp [hindexed, Summary.zero]
          rw [hsome] at hlast
          refine ⟨_, sent ++ later, ?_, hgranted.append hlast, ?_⟩
          · simp only [Command.calls, hcontent, bind, Except.bind, hstores]
          · rw [hlater, Session.log, hsent, List.append_assoc]
  | delete id target docType =>
    simp only [Command.run, runDelete] at h
    split at h
    · cases h
      cases hsuccess
    next a s₁ hdelete =>
      split at h
      next hdeleted =>
        cases h
        obtain ⟨sent, hgranted, hsent⟩ :=
          reading_granted payloadOf_none hdelete fun b hread => ⟨a, hread, hdeleted⟩
        exact ⟨_, sent, rfl, hgranted, hsent⟩
      next =>
        cases h
        cases hsuccess
  | createIndex target =>
    simp only [Command.run, runCreateIndex] at h
    split at h
    · cases h
      cases hsuccess
    next a s₁ hcreate =>
      cases h
      obtain ⟨sent, hgranted, hsent⟩ :=
        reading_granted payloadOf_none hcreate fun b hread => ⟨a, hread⟩
      exact ⟨_, sent, rfl, hgranted, hsent⟩
  | refresh target =>
    simp only [Command.run, runRefresh] at h
    split at h
    · cases h
      cases hsuccess
    next a s₁ hrefresh =>
      cases h
      obtain ⟨sent, hgranted, hsent⟩ :=
        reading_granted payloadOf_none hrefresh fun b hread => ⟨a, hread⟩
      exact ⟨_, sent, rfl, hgranted, hsent⟩
  | search query target docType size sort format =>
    simp only [Command.run, runSearch] at h
    split at h
    · cases h
      cases hsuccess
    next a s₁ hsearch =>
      cases h
      obtain ⟨sent, hgranted, hsent⟩ :=
        reading_granted payloadOf_none hsearch fun b hread => ⟨a, hread⟩
      exact ⟨_, sent, rfl, hgranted, hsent⟩

end

/-! ## Exit codes -/

theorem codeOf_ne_success (e : RequestError) : codeOf e ≠ .success := by
  fun_induction codeOf e <;> simp_all

/-- No failure is told with the code of success. -/
theorem Failure.code_ne_success (f : Failure) : f.code ≠ .success := by
  cases f with
  | request context e => exact codeOf_ne_success e
  | input | notFound | rejected | invalidLine => simp [Failure.code]

theorem Printed.report_success {p : Printed} {s : Session} (h : (p.report s).code = .success) :
    p.failure = none ∧ (p.report s).session = s := by
  simp only [Printed.report] at h ⊢
  split
  next hnone => exact ⟨hnone, rfl⟩
  next f hsome =>
    simp only [hsome] at h
    split at h
    · cases h
    · exact absurd h f.code_ne_success

theorem foldl_log (events : List Event) (s : Session) :
    (events.foldl .log s).journal.sent = s.journal.sent ∧
      (events.foldl .log s).isCancelled = s.isCancelled := by
  induction events generalizing s with
  | nil => exact ⟨rfl, rfl⟩
  | cons e events ih => exact ih (s.log e)

theorem Report.early_sent (code : ExitCode) (stdout stderr : String) (events : List Event) :
    (Report.early code stdout stderr events).session.journal.sent = [] :=
  (foldl_log events .start).1

/-- A run that ends before it has a client has sent nothing. -/
theorem prepare_error {surroundings : Surroundings} {words : List String} {report : Report}
    (h : prepare surroundings words = .error report) : report.session.journal.sent = [] := by
  simp only [prepare] at h
  split at h
  · cases h
    exact Report.early_sent ..
  split at h
  next stop hstop =>
    cases h
    cases stop <;> exact Report.early_sent ..
  split at h
  · cases h
    exact Report.early_sent ..
  · cases h

/-- The client of a run is built of its settings, before anything was done. -/
theorem Prepared.client_ok {p : Prepared} {client : Client} {s : Session}
    (h : p.client = .ok (client, s)) :
    ∃ (hosts : List String) (s₁ : Session), normalizeHosts p.settings.connection.hosts = .ok hosts ∧
      client.maxRetries = p.settings.connection.maxRetries ∧ client.carriesToken = true ∧
      s = s₁.setConnections hosts (ClientOptions.credentialsOf p.settings.auth) ∧
      s₁.journal.sent = [] ∧ s₁.isCancelled = false := by
  simp only [Prepared.client] at h
  split at h
  · cases h
  next hbuild =>
    cases h
    obtain ⟨hosts, s₁, hhosts, rfl, rfl, hsent, hcancelled⟩ := ClientOptions.build_ok hbuild
    obtain ⟨hsent₀, hcancelled₀⟩ := foldl_log p.events .start
    exact ⟨hosts, s₁, hhosts, rfl, rfl, rfl, hsent.trans hsent₀, hcancelled.trans hcancelled₀⟩

/-- A run has sent nothing when its client is made. -/
theorem Prepared.client_sent {p : Prepared} {client : Client} {s : Session}
    (h : p.client = .ok (client, s)) : s.journal.sent = [] := by
  obtain ⟨hosts, s₁, -, -, -, rfl, hsent, -⟩ := p.client_ok h
  exact hsent

/-- **Exit code 0 says that every call was granted.** A run that ends with it has sent nothing, since
it stopped before it met the network, or it made all the calls that its command stands for, and each
was answered, with a status below 500, with what the command takes for success. If the nodes give no
status above 399 to what the command takes for success, none of the answers has one. -/
theorem success_granted (surroundings : Surroundings) (network : Http.Network) (stdin : Bytes)
    (words : List String) (h : (run surroundings network stdin words).code = .success) :
    let sent := (run surroundings network stdin words).session.journal.sent
    (∃ report, prepare surroundings words = .error report ∧ sent = []) ∨
    ∃ p client s₀ calls, prepare surroundings words = .ok p ∧ p.client = .ok (client, s₀) ∧
      p.command.calls p.settings.index p.files stdin = .ok calls ∧ Granted client calls sent ∧
      ((∀ call ∈ calls, ∀ x ∈ sent, ∀ status final b, x.reply = .answered status final (some b) →
          399 < status → ¬ Takes call.operation b) →
        ∀ x ∈ sent, x.reply.fails = false →
          ∃ status, x.reply.status? = some status ∧ status < 400) := by
  intro sent
  simp only [run] at h
  cases hprepare : prepare surroundings words with
  | error report =>
    refine .inl ⟨report, rfl, ?_⟩
    have hsent : sent = report.session.journal.sent := by simp only [sent, run, hprepare]
    rw [hsent, prepare_error hprepare]
  | ok p =>
    rw [hprepare] at h
    simp only [Prepared.run] at h
    cases hclient : p.client with
    | error report =>
      rw [hclient] at h
      simp only [Prepared.client] at hclient
      split at hclient
      next e _ =>
        cases hclient
        cases (Printed.report_success h).1
      next => cases hclient
    | ok made =>
      obtain ⟨client, s₀⟩ := made
      rw [hclient] at h
      simp only [] at h
      generalize hrun : p.command.run ⟨client, ⟨network, fun _ => false⟩⟩ p.settings.index p.files
        stdin s₀ = r at h
      obtain ⟨printed, s⟩ := r
      obtain ⟨hsuccess, hsession⟩ := Printed.report_success h
      obtain ⟨calls, sent', hcalls, hgranted, hsent'⟩ := run_granted hrun hsuccess
      have hsent : sent = sent' := by
        rw [Prepared.client_sent hclient, List.nil_append] at hsent'
        simp only [sent, run, hprepare, Prepared.run, hclient, hrun, hsession, hsent']
      rw [hsent]
      exact .inr ⟨p, client, s₀, calls, rfl, hclient, hcalls, hgranted, hgranted.status_lt⟩

/-- What a run finds around it where a variable names the one node, and there are no files. -/
def oneNode : Surroundings :=
  ⟨[("ES_OUTPUT_HOSTS", Utf8.encode "http://es1:9200")], fun _ => .missing, Path.ofString "/",
    Path.ofString "/root"⟩

/-- Of an input with blank lines the one document is stored, and made visible. -/
theorem success_granted_stored :
    let answers : List Http.Outcome :=
      [.answer 201 (Utf8.encode "\x7b\"_id\":\"1\"\x7d") none true,
        .answer 200 (Utf8.encode "\x7b\x7d") none true]
    let r := run oneNode (.scripted answers) (Utf8.encode "\n\x7b\"a\":1\x7d\n\n")
      ["index", "-", "--refresh"]
    r.code = .success ∧ r.session.journal.sent.map (·.reply.status?) = [some 201, some 200] ∧
      ∃ client calls, Granted client calls r.session.journal.sent := by
  intro answers r
  obtain ⟨hcode, hstatuses⟩ : r.code = .success ∧
      r.session.journal.sent.map (·.reply.status?) = [some 201, some 200] := by
    decide +kernel
  have h := success_granted oneNode (.scripted answers) _ _ hcode
  -- the run is not to be evaluated again
  have hr : run oneNode (.scripted answers) _ _ = r := rfl
  rw [hr] at h
  clear_value r
  obtain ⟨report, -, hnone⟩ | ⟨p, client, s₀, calls, -, -, -, hgranted, -⟩ := h
  · rw [hnone] at hstatuses
    cases hstatuses
  · exact ⟨hcode, hstatuses, client, calls, hgranted⟩

/-- A node turns down the creation of an index, and the command ends with code 0. -/
theorem success_refused :
    let refusal := Utf8.encode "\x7b\"error\":\x7b\x7d,\"status\":400\x7d"
    let r := run oneNode (.scripted [.answer 400 refusal none true]) [] ["create-index"]
    r.code = .success ∧ r.session.journal.sent.map (·.reply.status?) = [some 400] := by
  decide +kernel

end Cli

end ClusterOutput
