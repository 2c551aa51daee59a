/-
What an exit code tells. A run stops at its first step that fails, and the code is
that of the cause (`code_tells_cause`). Which step it was, and why it failed, is
seen from what the run read and from the exchanges of its requests; no context that
an error gets on its way plays a part.
-/
import ClusterOutput.Proofs.Cli.Shipping

namespace ClusterOutput.Cli

/-- Why a run fails. -/
inductive Cause where
  /-- The file of variables cannot be read. -/
  | environment
  | configuration
  /-- A node has no right URL. -/
  | node
  /-- The input cannot be opened. -/
  | input
  /-- The shipping of the input is stopped. -/
  | halt (halt : Halt)
  /-- A request is not answered, or the answer is not what the command asks for. -/
  | reply (reply : Reply)
  /-- All documents were sent, and some were turned away. -/
  | rejected

def Cause.code : Cause → ExitCode
  | environment | configuration | node | input => .generalError
  | halt h => h.code
  | reply r => r.code
  | rejected => .validationError

/-- The code of a run that fails for a cause, or for none. -/
def codeFor : Option Cause → ExitCode
  | none => .success
  | some cause => cause.code

/-! ## The cause of a command -/

/-- The command stores the documents of an input. -/
def Command.ships : Command → Bool
  | .index .. => true
  | .delete .. | .createIndex .. | .refresh .. | .search .. => false

/-- Why a command with one request fails, if it does. -/
def Reply.cause? (reply : Reply) : Option Cause :=
  if reply = .taken then none else some (.reply reply)

/-- Why storing the documents of an input fails, if it does, by what stopped their shipping and what
was sent behind them. -/
inductive Concludes (c : Client) (conns : List Connection) (index : String) (refresh : Bool)
    (stored : List Stored) : Option Halt → List Exchange → Option Cause → Prop
  | halted {halt : Halt} :
    Concludes c conns index refresh stored (some halt) [] (some (.halt halt))
  | unrefreshed {sent : List Exchange} {reply : Reply}
    (hrefreshed : Refreshed c conns index (refresh && decide (0 < indexed stored)) sent reply)
    (hno : reply ≠ .taken) :
    Concludes c conns index refresh stored none sent (some (.reply reply))
  | shipped {sent : List Exchange}
    (hrefreshed : Refreshed c conns index (refresh && decide (0 < indexed stored)) sent .taken) :
    Concludes c conns index refresh stored none sent
      (if 0 < rejected stored then some .rejected else none)

/-- The exchanges of a command, and why it fails, if it does. -/
inductive Command.Ends (c : Client) (conns : List Connection) (defaultIndex : String)
    (files : Files) (stdin : Bytes) : Command → List Exchange → Option Cause → Prop
  | single {command : Command} {call : Client.Call} {sent : List Exchange} {reply : Reply}
    (hsingle : command.ships = false)
    (hcall : command.calls defaultIndex files stdin = .ok [call])
    (hreplied : Replied c conns call sent reply) :
    Ends c conns defaultIndex files stdin command sent reply.cause?
  | unopened {input docType : String} {target idField : Option String} {refresh : Bool}
    {f : Failure} (hinput : inputOf files stdin input = .error f) :
    Ends c conns defaultIndex files stdin (.index input target docType idField refresh) []
      (some .input)
  | index {input docType : String} {target idField : Option String} {refresh : Bool}
    {content : Bytes} {stored : List Stored} {halt : Option Halt} {sent : List Exchange}
    {cause : Option Cause} (hinput : inputOf files stdin input = .ok content)
    (hshipped : Shipped c conns ⟨target.getD defaultIndex, docType, idField⟩ 1
      (Text.rawLines content) stored halt)
    (hends : Concludes c conns (target.getD defaultIndex) refresh stored halt sent cause) :
    Ends c conns defaultIndex files stdin (.index input target docType idField refresh)
      (stored.flatMap Stored.sent ++ sent) cause

section

variable {c : Client} {conns : List Connection} {shipment : Shipment} {number : Nat}
  {lines : List Bytes} {stored stored' : List Stored} {halt halt' : Option Halt}
  {later later' sent sent' : List Exchange} {index : String} {wanted : Bool} {reply reply' : Reply}

/-- A line holds one document. -/
theorem document_det {line : Bytes} {text text' : List Char} {doc doc' : Json}
    (htext : Utf8.decodeChars? line = some text) (htext' : Utf8.decodeChars? line = some text')
    (hline : lineDocument? number line = .ok (some doc))
    (hline' : lineDocument? number line = .ok (some doc')) : text = text' ∧ doc = doc' := by
  rw [htext] at htext'
  rw [hline] at hline'
  exact ⟨Option.some.inj htext', Option.some.inj (Except.ok.inj hline')⟩

/-- What was sent tells the documents, and what stopped their shipping. -/
theorem Shipped.det (h : Shipped c conns shipment number lines stored halt)
    (h' : Shipped c conns shipment number lines stored' halt')
    (heq : stored.flatMap Stored.sent ++ later = stored'.flatMap Stored.sent ++ later')
    (hlast : halt.isSome → later = []) (hlast' : halt'.isSome → later' = []) :
    stored = stored' ∧ halt = halt' := by
  -- over the lines: each is read alike, and where a document is sent, the exchanges tell where its
  -- request ends; what follows an answer is left to the other lines
  induction h generalizing stored' with
  | done =>
    cases h'
    exact ⟨rfl, rfl⟩
  | blank hline _ ih =>
    cases h' with
    | blank _ hrest' => exact ih hrest' heq hlast
    | unreadable hline' | invalid hline' | unanswered _ hline' | answered _ hline' =>
      rw [hline] at hline'
      cases hline'
  | unreadable hline =>
    cases h' with
    | unreadable => exact ⟨rfl, rfl⟩
    | blank hline' | invalid hline' | unanswered _ hline' | answered _ hline' =>
      rw [hline] at hline'
      cases hline'
  | invalid hline =>
    cases h' with
    | invalid hline' =>
      rw [hline] at hline'
      cases hline'
      exact ⟨rfl, rfl⟩
    | blank hline' | unreadable hline' | unanswered _ hline' | answered _ hline' =>
      rw [hline] at hline'
      cases hline'
  | unanswered htext hline hreplied hno =>
    cases h' with
    | blank hline' | unreadable hline' | invalid hline' =>
      rw [hline] at hline'
      cases hline'
    | unanswered htext' hline' hreplied' hno' =>
      obtain ⟨rfl, rfl⟩ := document_det htext htext' hline hline'
      simp only [List.flatMap_singleton] at heq
      obtain ⟨rfl, rfl⟩ := hreplied.det hreplied' heq (fun _ => hlast rfl) (fun _ => hlast' rfl)
      exact ⟨rfl, rfl⟩
    | answered htext' hline' hreplied' hanswer' =>
      obtain ⟨rfl, rfl⟩ := document_det htext htext' hline hline'
      simp only [List.flatMap_cons, List.append_assoc] at heq
      obtain ⟨-, rfl⟩ := hreplied.det hreplied' heq (fun _ => hlast rfl) (by simp [hanswer'])
      rw [hno] at hanswer'
      cases hanswer'
  | answered htext hline hreplied hanswer _ ih =>
    cases h' with
    | blank hline' | unreadable hline' | invalid hline' =>
      rw [hline] at hline'
      cases hline'
    | unanswered htext' hline' hreplied' hno' =>
      obtain ⟨rfl, rfl⟩ := document_det htext htext' hline hline'
      simp only [List.flatMap_cons, List.append_assoc] at heq
      obtain ⟨-, rfl⟩ := hreplied.det hreplied' heq (by simp [hanswer]) (fun _ => hlast' rfl)
      rw [hno'] at hanswer
      cases hanswer
    | answered htext' hline' hreplied' hanswer' hrest' =>
      obtain ⟨rfl, rfl⟩ := document_det htext htext' hline hline'
      simp only [List.flatMap_cons, List.append_assoc] at heq
      obtain ⟨rfl, rfl⟩ := hreplied.det hreplied' heq (by simp [hanswer]) (by simp [hanswer'])
      obtain ⟨rfl, rfl⟩ := ih hrest' (List.append_cancel_left heq) hlast
      exact ⟨rfl, rfl⟩

theorem Refreshed.det (h : Refreshed c conns index wanted sent reply)
    (h' : Refreshed c conns index wanted sent reply') : reply = reply' := by
  cases h with
  | skipped =>
    cases h'
    rfl
  | made hreplied =>
    cases h' with
    | made hreplied' =>
      exact hreplied.reply_eq hreplied'

theorem Concludes.sent_eq_nil {refresh : Bool} {cause : Option Cause}
    (h : Concludes c conns index refresh stored halt sent cause) (hhalt : halt.isSome) :
    sent = [] := by
  cases h with
  | halted => rfl
  | unrefreshed | shipped => cases hhalt

theorem Concludes.det {refresh : Bool} {cause cause' : Option Cause}
    (h : Concludes c conns index refresh stored halt sent cause)
    (h' : Concludes c conns index refresh stored halt sent cause') : cause = cause' := by
  cases h with
  | halted =>
    cases h'
    rfl
  | unrefreshed hrefreshed hno =>
    cases h' with
    | unrefreshed hrefreshed' => rw [hrefreshed.det hrefreshed']
    | shipped hrefreshed' => exact absurd (hrefreshed.det hrefreshed') hno
  | shipped hrefreshed =>
    cases h' with
    | unrefreshed hrefreshed' hno' => exact absurd (hrefreshed'.det hrefreshed) hno'
    | shipped => rfl

/-- What a command sent tells why it fails. -/
theorem Command.Ends.det {command : Command} {defaultIndex : String} {files : Files}
    {stdin : Bytes} {cause cause' : Option Cause}
    (h : command.Ends c conns defaultIndex files stdin sent cause)
    (h' : command.Ends c conns defaultIndex files stdin sent' cause') (heq : sent = sent') :
    cause = cause' := by
  cases h with
  | single hsingle hcall hreplied =>
    cases h' with
    | single _ hcall' hreplied' =>
      rw [hcall] at hcall'
      cases hcall'
      subst heq
      rw [hreplied.reply_eq hreplied']
    | unopened | index => cases hsingle
  | unopened hinput =>
    cases h' with
    | single hsingle => cases hsingle
    | unopened => rfl
    | index hinput' =>
      rw [hinput] at hinput'
      cases hinput'
  | index hinput hshipped hends =>
    cases h' with
    | single hsingle => cases hsingle
    | unopened hinput' =>
      rw [hinput] at hinput'
      cases hinput'
    | index hinput' hshipped' hends' =>
      rw [hinput] at hinput'
      cases hinput'
      obtain ⟨rfl, rfl⟩ := hshipped.det hshipped' heq hends.sent_eq_nil hends'.sent_eq_nil
      obtain rfl := List.append_cancel_left heq
      exact hends.det hends'

end

/-! ## What a command comes to -/

section

variable {setting : Setting} {s : Session} {command : Command} {defaultIndex : String}
  {files : Files} {stdin : Bytes}

/-- What a command comes to is what its exchanges tell: they were sent, and what it failed with has
the code of the cause. -/
def Command.Told (command : Command) (setting : Setting) (defaultIndex : String) (files : Files)
    (stdin : Bytes) (s : Session) (r : Printed × Session) : Prop :=
  ∃ sent cause,
    command.Ends setting.client s.pool.connections defaultIndex files stdin sent cause ∧
      r.2.journal.sent = s.journal.sent ++ sent ∧
      r.1.failure.elim .success Failure.code = codeFor cause

theorem codeFor_reply (reply : Reply) : codeFor reply.cause? = reply.code := by
  unfold Reply.cause?
  split
  next h => rw [h]; rfl
  next => rfl

/-- A command with one request: it fails with the request, and else makes of the answer what that is
worth. -/
theorem Reported.told {α : Type} {call : Client.Call} {read : Bytes → Except RequestError α}
    {r : Except Failure α × Session} {sent : List Exchange} {reply : Reply}
    {out : Printed × Session} (h : Reported setting call read s r sent reply)
    (hsingle : command.ships = false)
    (hcall : command.calls defaultIndex files stdin = .ok [call])
    (herror : ∀ f s₁, r = (.error f, s₁) → out = (.nothing f, s₁))
    (hok : ∀ a s₁ b, r = (.ok a, s₁) → read b = .ok a → Judged call.operation b reply →
      reply.isAnswer = true →
        out.2 = s₁ ∧ out.1.failure.elim .success Failure.code = reply.code) :
    command.Told setting defaultIndex files stdin s out := by
  obtain ⟨hreplied, hhanded, -, hanswered, hfailed⟩ := h
  refine ⟨sent, reply.cause?, .single hsingle hcall hreplied, ?_⟩
  rw [codeFor_reply]
  obtain ⟨r, s₁⟩ := r
  cases r with
  | error f =>
    rw [herror f s₁ rfl]
    exact ⟨hhanded, (hfailed f rfl).2⟩
  | ok a =>
    obtain ⟨hanswer, -, b, hread, hjudged⟩ := hanswered a rfl
    obtain ⟨hsession, hcode⟩ := hok a s₁ b rfl hread hjudged hanswer
    rw [hsession]
    exact ⟨hhanded, hcode⟩

/-- A command with one request that takes every answer that can be read. -/
theorem Reported.told_of_reads {α : Type} {call : Client.Call}
    {read : Bytes → Except RequestError α} {r : Except Failure α × Session} {sent : List Exchange}
    {reply : Reply} {out : Printed × Session} (h : Reported setting call read s r sent reply)
    (hsingle : command.ships = false)
    (hcall : command.calls defaultIndex files stdin = .ok [call])
    (hop : ∀ b, Reads call.operation b → Takes call.operation b)
    (herror : ∀ f s₁, r = (.error f, s₁) → out = (.nothing f, s₁))
    (hok : ∀ a s₁, r = (.ok a, s₁) → out.2 = s₁ ∧ out.1.failure = none) :
    command.Told setting defaultIndex files stdin s out := by
  refine h.told hsingle hcall herror fun a s₁ b hr _ hjudged hanswer => ?_
  obtain ⟨hsession, hnone⟩ := hok a s₁ hr
  obtain rfl := hjudged.taken_of_reads (hop b) hanswer
  rw [hnone]
  exact ⟨hsession, rfl⟩

theorem delete_told (hs : Steady setting s) (id docType : String) (target : Option String) :
    Command.Told (.delete id target docType) setting defaultIndex files stdin s
      (runDelete setting (target.getD defaultIndex) docType id s) := by
  obtain ⟨sent, reply, hreported⟩ := reading_reported
    ((hs.log (.deletionStarted (target.getD defaultIndex) id)).log
      (.deleting (Url.documentPath (target.getD defaultIndex) docType id))) "DELETE"
    (Url.documentPath (target.getD defaultIndex) docType id) none
    (readsBy_acknowledgement (.inr (.inl rfl))) payloadOf_none
    ("Failed to delete " ++ id ++ " from " ++ target.getD defaultIndex)
  simp only [runDelete, Client.delete]
  generalize inContext _ _ = r at hreported ⊢
  refine hreported.told rfl rfl ?_ ?_
  · rintro f s₁ rfl
    rfl
  · rintro a s₁ b rfl hread hjudged hanswer
    have htakes : Takes .delete b ↔ wasDeleted a = true := by simp [Takes, hread]
    simp only []
    cases hjudged with
    | undecodable => cases hanswer
    | refused _ hno => rw [if_neg (htakes.not.mp hno)]; exact ⟨rfl, rfl⟩
    | taken _ hyes => rw [if_pos (htakes.mp hyes)]; exact ⟨rfl, rfl⟩

theorem inputOf_error {input : String} {f : Failure} (h : inputOf files stdin input = .error f) :
    f.code = .generalError := by
  unfold inputOf at h
  split at h
  · cases h
  · simp only [] at h
    split at h <;> cases h <;> rfl

theorem IndexEnds.concludes {c : Client} {conns : List Connection} {index : String}
    {refresh : Bool} {stored : List Stored} {halt : Option Halt} {sent : List Exchange}
    {printed : Printed} (h : IndexEnds c conns index refresh stored halt sent printed) :
    ∃ cause, Concludes c conns index refresh stored halt sent cause ∧
      printed.failure.elim .success Failure.code = codeFor cause := by
  cases h with
  | halted hcode => exact ⟨_, .halted, hcode⟩
  | unrefreshed hrefreshed hno hcode => exact ⟨_, .unrefreshed hrefreshed hno, hcode⟩
  | whole hrefreshed =>
    refine ⟨_, .shipped hrefreshed, ?_⟩
    simp only [Summary.printed]
    split <;> rfl

theorem index_told (hs : Steady setting s) (input docType : String)
    (target idField : Option String) (refresh : Bool) :
    Command.Told (.index input target docType idField refresh) setting defaultIndex files stdin s
      (runIndex setting files stdin input ⟨target.getD defaultIndex, docType, idField⟩ refresh
        s) := by
  cases hinput : inputOf files stdin input with
  | error f =>
    simp only [runIndex, hinput]
    exact ⟨[], some .input, .unopened hinput, (List.append_nil _).symm, inputOf_error hinput⟩
  | ok content =>
    obtain ⟨stored, halt, sent, hshipped, hends, hsent⟩ := runIndex_ends hs hinput
      ⟨target.getD defaultIndex, docType, idField⟩ refresh
    obtain ⟨cause, hconcludes, hcode⟩ := hends.concludes
    exact ⟨_, cause, .index hinput hshipped hconcludes, hsent, hcode⟩

variable (command defaultIndex files stdin) in
/-- Every command comes to what its exchanges tell. -/
theorem run_told (hs : Steady setting s) :
    command.Told setting defaultIndex files stdin s
      (command.run setting defaultIndex files stdin s) := by
  cases command with
  | index input target docType idField refresh =>
    exact index_told hs input docType target idField refresh
  | delete id target docType => exact delete_told hs id docType target
  | createIndex target =>
    obtain ⟨sent, reply, hreported⟩ := reading_reported
      ((hs.log (.creationStarted (target.getD defaultIndex))).log
        (.creatingIndex (Url.documentPath (target.getD defaultIndex) "" ""))) "PUT"
      (Url.documentPath (target.getD defaultIndex) "" "") none
      (readsBy_acknowledgement (.inr (.inr (.inl rfl)))) payloadOf_none
      ("Failed to create index " ++ target.getD defaultIndex)
    simp only [Command.run, runCreateIndex, Client.createIndex]
    generalize inContext _ _ = r at hreported ⊢
    refine hreported.told_of_reads rfl rfl (fun _ => id) ?_ ?_
    · rintro f s₁ rfl
      rfl
    · rintro a s₁ rfl
      exact ⟨rfl, rfl⟩
  | refresh target =>
    obtain ⟨sent, reply, hreported⟩ := refresh_reported hs (target.getD defaultIndex)
      ("Failed to refresh " ++ target.getD defaultIndex)
    simp only [Command.run, runRefresh]
    generalize inContext _ _ = r at hreported ⊢
    refine hreported.told_of_reads rfl rfl (fun _ => id) ?_ ?_
    · rintro f s₁ rfl
      rfl
    · rintro a s₁ rfl
      exact ⟨rfl, rfl⟩
  | search query target docType size sort format =>
    obtain ⟨sent, reply, hreported⟩ := reading_reported
      ((hs.log (.searchStarted (target.getD defaultIndex) query)).log
        (.searching (Url.documentPath (target.getD defaultIndex) docType "_search"))) "GET"
      (Url.documentPath (target.getD defaultIndex) docType "_search")
      (some (searchParams query size sort)) readsBy_search payloadOf_none
      ("Failed to search " ++ target.getD defaultIndex)
    simp only [Command.run, runSearch, Client.search]
    generalize inContext _ _ = r at hreported ⊢
    refine hreported.told_of_reads rfl rfl (fun _ => id) ?_ ?_
    · rintro f s₁ rfl
      rfl
    · rintro a s₁ rfl
      exact ⟨rfl, rfl⟩

end

/-! ## Errors in context -/

/-- A link in the chain of an error, which goes from the outermost context to the root. -/
inductive Link where
  | context (text : String)
  | request (e : RequestError)
  /-- What a command found by itself. -/
  | own (f : Failure)
  | other (text : String)

def Link.message : Link → String
  | context text | other text => text
  | request e => e.message
  | own f => f.chain.headD ""

def Link.code? : Link → Option ExitCode
  | request e => some (codeOf e)
  | own f => some f.code
  | context _ | other _ => none

def Link.isCancellation : Link → Bool
  | request .cancelled => true
  | _ => false

/-- The code of an error: a cancellation is looked for in the whole chain, and else the first link
that has a code gives its own. -/
def chainCode (links : List Link) : ExitCode :=
  if links.any Link.isCancellation then .interrupted
  else (links.findSome? Link.code?).getD .generalError

/-- The chain of the failure of a command. -/
def Failure.links : Failure → List Link
  | request context e => [.context context, .request e] ++ (jsonCause e).map .other
  | input context fault => [.context context, .other fault.message]
  | notFound index id => [.own (.notFound index id)]
  | rejected count total => [.own (.rejected count total)]
  | invalidLine line e => [.own (.invalidLine line e), .other e.message]

theorem Failure.links_message (f : Failure) : f.links.map Link.message = f.chain := by
  cases f with
  | request context e =>
    simp only [links, List.map_append, List.map_map]
    exact congrArg ([context, e.message] ++ ·) (List.map_id _)
  | input | notFound | rejected | invalidLine => rfl

/-- No context changes a code. -/
theorem chainCode_context (contexts : List String) (links : List Link) :
    chainCode (contexts.map .context ++ links) = chainCode links := by
  induction contexts with
  | nil => rfl
  | cons context contexts ih => exact ih

theorem Failure.chainCode_links (f : Failure) : chainCode f.links = f.code := by
  cases f with
  | request context e => cases e with
    | cancelled => rfl
    | decode | serialization | transport | serverError | retriesExhausted | noConnections
    | invalidUrl => rfl
  | input | notFound | rejected | invalidLine => rfl

/-! ## What a run comes to -/

/-- What a run met, up to the first step that failed: what it sent, and why it fails, if it does. -/
inductive Meets (surroundings : Surroundings) (stdin : Bytes) (words : List String) :
    List Exchange → Option Cause → Prop
  | environment {e : ConfigError} (hload : Dotenv.loadAround surroundings = .error e) :
    Meets surroundings stdin words [] (some .environment)
  | configuration {loaded : Surroundings} {a : Arguments} {e : ConfigError}
    (hload : Dotenv.loadAround surroundings = .ok loaded)
    (hparse : parse loaded.environment words = .ok a)
    (hsettings : (settings loaded a.shared).1 = .error e) :
    Meets surroundings stdin words [] (some .configuration)
  | node {p : Prepared} {e : RequestError} (hprepare : prepare surroundings words = .ok p)
    (hhosts : normalizeHosts p.settings.connection.hosts = .error e) :
    Meets surroundings stdin words [] (some .node)
  | command {p : Prepared} {client : Client} {s₀ : Session} {sent : List Exchange}
    {cause : Option Cause} (hprepare : prepare surroundings words = .ok p)
    (hclient : p.client = .ok (client, s₀))
    (hends : p.command.Ends client s₀.pool.connections p.settings.index p.files stdin sent cause) :
    Meets surroundings stdin words sent cause

section

variable {surroundings : Surroundings} {stdin : Bytes} {words : List String} {p : Prepared}

theorem prepare_ok (h : prepare surroundings words = .ok p) :
    ∃ loaded a made, Dotenv.loadAround surroundings = .ok loaded ∧
      parse loaded.environment words = .ok a ∧ (settings loaded a.shared).1 = .ok made := by
  unfold prepare at h
  split at h
  · cases h
  next loaded hload =>
    split at h
    · cases h
    next a hparse =>
      split at h
      · cases h
      next made events hsettings =>
        exact ⟨loaded, a, made, hload, hparse, congrArg Prod.fst hsettings⟩

theorem prepare_not_loaded {e : ConfigError} (hload : Dotenv.loadAround surroundings = .error e) :
    prepare surroundings words ≠ .ok p := by
  intro h
  obtain ⟨loaded, a, made, hload', -⟩ := prepare_ok h
  rw [hload] at hload'
  cases hload'

theorem prepare_not_set {loaded : Surroundings} {a : Arguments} {e : ConfigError}
    (hload : Dotenv.loadAround surroundings = .ok loaded)
    (hparse : parse loaded.environment words = .ok a)
    (hsettings : (settings loaded a.shared).1 = .error e) : prepare surroundings words ≠ .ok p := by
  intro h
  obtain ⟨loaded', a', made, hload', hparse', hsettings'⟩ := prepare_ok h
  rw [hload] at hload'
  cases hload'
  rw [hparse] at hparse'
  cases hparse'
  rw [hsettings] at hsettings'
  cases hsettings'

/-- A run whose client cannot be made has a node without a right URL. -/
theorem Prepared.client_error {report : Report} (h : p.client = .error report) :
    (∃ e, normalizeHosts p.settings.connection.hosts = .error e) ∧ report.code = .generalError ∧
      report.session.journal.sent = [] := by
  simp only [Prepared.client] at h
  split at h
  next e hbuild =>
    cases h
    have hhosts := ClientOptions.build_error hbuild
    obtain ⟨message, rfl⟩ := normalizeHosts_error hhosts
    refine ⟨⟨_, hhosts⟩, rfl, ?_⟩
    rw [(Printed.report_stdout _ _).2]
    exact (foldl_log p.events .start).1
  · cases h

theorem Prepared.client_not_ok {client : Client} {s₀ : Session} {e : RequestError}
    (hhosts : normalizeHosts p.settings.connection.hosts = .error e) :
    p.client ≠ .ok (client, s₀) := by
  intro h
  obtain ⟨hosts, s₁, hhosts', -⟩ := p.client_ok h
  rw [hhosts] at hhosts'
  cases hhosts'

/-- What a run sent tells why it fails. -/
theorem Meets.det {sent sent' : List Exchange} {cause cause' : Option Cause}
    (h : Meets surroundings stdin words sent cause)
    (h' : Meets surroundings stdin words sent' cause') (heq : sent = sent') : cause = cause' := by
  -- the stages exclude each other by what was read; only a command is told by what it sent
  cases h with
  | environment hload =>
    cases h' with
    | environment => rfl
    | configuration hload' =>
      rw [hload] at hload'
      cases hload'
    | node hprepare | command hprepare => exact absurd hprepare (prepare_not_loaded hload)
  | configuration hload hparse hsettings =>
    cases h' with
    | environment hload' =>
      rw [hload] at hload'
      cases hload'
    | configuration => rfl
    | node hprepare | command hprepare =>
      exact absurd hprepare (prepare_not_set hload hparse hsettings)
  | node hprepare hhosts =>
    cases h' with
    | environment hload => exact absurd hprepare (prepare_not_loaded hload)
    | configuration hload hparse hsettings =>
      exact absurd hprepare (prepare_not_set hload hparse hsettings)
    | node => rfl
    | command hprepare' hclient =>
      rw [hprepare] at hprepare'
      cases hprepare'
      exact absurd hclient (Prepared.client_not_ok hhosts)
  | command hprepare hclient hends =>
    cases h' with
    | environment hload => exact absurd hprepare (prepare_not_loaded hload)
    | configuration hload hparse hsettings =>
      exact absurd hprepare (prepare_not_set hload hparse hsettings)
    | node hprepare' hhosts =>
      rw [hprepare] at hprepare'
      cases hprepare'
      exact absurd hclient (Prepared.client_not_ok hhosts)
    | command hprepare' hclient' hends' =>
      rw [hprepare] at hprepare'
      cases hprepare'
      rw [hclient] at hclient'
      cases hclient'
      exact hends.det hends' heq

variable (stdin) in
/-- A run whose arguments can be parsed meets something, and has the code for it. -/
theorem run_meets (network : Http.Network)
    (hparse : ∀ loaded, Dotenv.loadAround surroundings = .ok loaded →
      ∃ a, parse loaded.environment words = .ok a) :
    ∃ cause, Meets surroundings stdin words
        (run surroundings network stdin words).session.journal.sent cause ∧
      (run surroundings network stdin words).code = codeFor cause := by
  cases hload : Dotenv.loadAround surroundings with
  | error e =>
    simp only [run, prepare, hload]
    exact ⟨_, .environment hload, rfl⟩
  | ok loaded =>
    obtain ⟨a, ha⟩ := hparse loaded hload
    cases hsettings : settings loaded a.shared with
    | mk made events =>
    cases made with
    | error e =>
      simp only [run, prepare, hload, ha, hsettings, Report.early_sent]
      exact ⟨_, .configuration hload ha (congrArg Prod.fst hsettings), rfl⟩
    | ok made =>
      obtain ⟨p, hprepare⟩ : ∃ p, prepare surroundings words = .ok p := by
        simp only [prepare, hload, ha, hsettings]
        exact ⟨_, rfl⟩
      simp only [run, hprepare, Prepared.run]
      cases hclient : p.client with
      | error report =>
        obtain ⟨⟨e, hhosts⟩, hcode, hsent⟩ := p.client_error hclient
        simp only [hsent]
        exact ⟨_, .node hprepare hhosts, hcode⟩
      | ok made =>
        obtain ⟨client, s₀⟩ := made
        obtain ⟨sent, cause, hends, hsent, hcode⟩ := run_told p.command p.settings.index p.files stdin
          (p.client_steady hclient network)
        rw [p.client_sent hclient, List.nil_append] at hsent
        simp only [(Printed.report_stdout _ _).2, Printed.report_code, hsent]
        exact ⟨cause, .command hprepare hclient hends, hcode⟩

end

/-- **An exit code tells the cause.** What a run sent, with what it read, tells the first step that
failed, or that none did, and the code is the one for that. A request may be without attempts or
without connections only where the settings give none. The code is that of the chain of the error,
whose links are what is told of it, and no context that is put around it on its way up plays a
part. -/
theorem code_tells_cause (surroundings : Surroundings) (network : Http.Network) (stdin : Bytes)
    (words : List String)
    (hparse : ∀ loaded, Dotenv.loadAround surroundings = .ok loaded →
      ∃ a, parse loaded.environment words = .ok a) :
    let r := run surroundings network stdin words
    let sent := r.session.journal.sent
    (∃! cause, Meets surroundings stdin words sent cause) ∧
    (∀ cause, Meets surroundings stdin words sent cause → r.code = codeFor cause) ∧
    ∀ p client s₀, prepare surroundings words = .ok p → p.client = .ok (client, s₀) →
      client.maxRetries = p.settings.connection.maxRetries ∧
      (s₀.pool.connections = [] ↔ p.settings.connection.hosts = []) ∧
      ∀ (f : Failure) (contexts : List String),
        (p.command.run ⟨client, ⟨network, fun _ => false⟩⟩ p.settings.index p.files stdin
          s₀).1.failure = some f →
        f.links.map Link.message = f.chain ∧
          r.code = chainCode (contexts.map .context ++ f.links) := by
  intro r sent
  obtain ⟨cause, hmeets, hcode⟩ := run_meets stdin network hparse
  refine ⟨⟨cause, hmeets, fun cause' hmeets' => hmeets'.det hmeets rfl⟩, ?_, ?_⟩
  · intro cause' hmeets'
    rw [hmeets'.det hmeets rfl]
    exact hcode
  · intro p client s₀ hprepare hclient
    obtain ⟨hosts, s₁, hhosts, hmax, -, rfl, -⟩ := p.client_ok hclient
    refine ⟨hmax, ?_, ?_⟩
    · rw [← List.length_eq_zero_iff, setConnections_length, normalizeHosts_length hhosts,
        List.length_eq_zero_iff]
    · intro f contexts hfailure
      refine ⟨f.links_message, ?_⟩
      rw [chainCode_context, f.chainCode_links]
      simp only [r, run, hprepare, Prepared.run, hclient, Printed.report_code, hfailure]
      rfl

/-- A node has no document of the id that is deleted, and the run ends with the code for that. -/
theorem code_tells_cause_deleted :
    let answers : List Http.Outcome :=
      [.answer 404 (Utf8.encode "\x7b\"found\":false\x7d") none true]
    let r := run oneNode (.scripted answers) [] ["delete", "7"]
    r.code = .notFound ∧ ∃ cause, codeFor cause = .notFound ∧
      ∀ cause',
        Meets oneNode [] ["delete", "7"] r.session.journal.sent cause' ↔ cause' = cause := by
  intro answers r
  have hcode : r.code = .notFound := by decide +kernel
  have hsome : ((Dotenv.loadAround oneNode).toOption.all fun loaded =>
      (parse loaded.environment ["delete", "7"]).toOption.isSome) = true := by
    decide +kernel
  have h := code_tells_cause oneNode (.scripted answers) [] ["delete", "7"] fun loaded hload => by
    rw [hload] at hsome
    obtain ⟨a, ha⟩ := Option.isSome_iff_exists.mp hsome
    exact ⟨a, ok_of_toOption ha⟩
  -- the run is not to be evaluated again
  have hr : run oneNode (.scripted answers) [] ["delete", "7"] = r := rfl
  rw [hr] at h
  clear_value r
  obtain ⟨⟨cause, hmeets, hunique⟩, hcodes, -⟩ := h
  refine ⟨hcode, cause, (hcodes cause hmeets).symm.trans hcode, fun cause' => ⟨hunique cause', ?_⟩⟩
  rintro rfl
  exact hmeets

end ClusterOutput.Cli
