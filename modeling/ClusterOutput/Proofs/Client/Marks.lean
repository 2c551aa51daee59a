/-
What a client tells the pool. For each attempt one connection is handed out, and
the pool is told once of that connection if its exchange is over: not if the
attempt was cancelled, or came to no exchange at all.

This holds of requests and of what is built on them (`Tells`), and it holds of a
request between whose steps others do what they like, to the pool and to the
run: whatever the request finds when it goes on, the connection that it was
handed is the one it tells of (`spells_reached`).
-/
import ClusterOutput.Client.Documents
import ClusterOutput.Proofs.Client.Steps

namespace ClusterOutput

/-- The exchange failed, and the attempt that waited for it was not cancelled. -/
def Exchange.FailsFor (watched : Bool) (x : Exchange) : Prop :=
  x.reply.fails = true ∧ (watched && x.reply.isOpen) = false

/-- How a request whose attempts failed so far comes to a result: its last attempt, if it makes one
more that does not fail, and the result. A `watched` request ends when the run is interrupted. -/
inductive Closes (watched : Bool) {α : Type} :
    (failed : List Exchange) → List Attempt → Except RequestError α → Prop
  | unencodable {e : Json.Error} : Closes watched [] [] (.error (.serialization e))
  | exhausted {failed : List Exchange} {n : Nat} {last : Option RequestError} :
    Closes watched failed [] (.error (.retriesExhausted n last))
  | noConnections {failed : List Exchange} : Closes watched failed [] (.error .noConnections)
  | noUrl {failed : List Exchange} {conn : Connection} {message : String} :
    Closes watched failed [.unsent conn] (.error (.invalidUrl message))
  | gaveUp {failed : List Exchange} : Closes watched failed [] (.error .cancelled)
  | gaveUpLate {failed : List Exchange} {conn : Connection} :
    Closes watched failed [.unsent conn] (.error .cancelled)
  | interrupted {failed : List Exchange} {x : Exchange} (hwatched : watched = true)
    (hopen : x.reply.isOpen = true) : Closes watched failed [.interrupted x] (.error .cancelled)
  | answered {failed : List Exchange} {x : Exchange} {a : α} (hx : x.reply.fails = false) :
    Closes watched failed [.completed x] (.ok a)
  /-- The answer is not what was asked for. -/
  | unread {failed : List Exchange} {x : Exchange} {target : String} {e : Json.Error}
    (hx : x.reply.fails = false) :
    Closes watched failed [.completed x] (.error (.decode target e))

/-- The attempts of a request, all but the last of which failed, lead to its result. -/
inductive Leads (watched : Bool) {α : Type} : List Attempt → Except RequestError α → Prop
  | intro {failed : List Exchange} {tail : List Attempt} {r : Except RequestError α}
    (hfailed : ∀ x ∈ failed, x.FailsFor watched) (hcloses : Closes watched failed tail r) :
    Leads watched (failed.map .completed ++ tail) r

/-- What ends a request before there is an answer, ends in the same way what is built on it. -/
theorem Leads.error {α β : Type} {watched : Bool} {hist : List Attempt} {e : RequestError}
    (h : Leads watched hist (.error e : Except RequestError α)) :
    Leads watched hist (.error e : Except RequestError β) := by
  obtain ⟨hfailed, hcloses⟩ := h
  refine .intro hfailed ?_
  cases hcloses with
  | unencodable => exact .unencodable
  | exhausted => exact .exhausted
  | noConnections => exact .noConnections
  | noUrl => exact .noUrl
  | gaveUp => exact .gaveUp
  | gaveUpLate => exact .gaveUpLate
  | interrupted hwatched hopen => exact .interrupted hwatched hopen
  | unread hx => exact .unread hx

/-- What a client did to come to a result: attempts that lead to it, and nothing else. -/
def Client.Tells (c : Client) (world : World) {α : Type} (s : Session)
    (r : Except RequestError α × Session) : Prop :=
  ∃ hist, Leads c.carriesToken hist r.1 ∧ s.Ran world hist r.2

/-- A step of a request to which others come before and after: the session as the request finds it,
and as it leaves it. -/
structure Spell where
  found : Session
  left : Session

/-- What the request itself does to the pool. -/
def Spell.steps (t : Spell) : List PoolStep := t.left.stepsSince t.found

/-- What the request itself hands to the transport. -/
def Spell.sent (t : Spell) : List Exchange := t.left.sentSince t.found

namespace Ask

/-- The attempts of a request so far. -/
inductive Reached (a : Ask) : Stage → List Attempt → Prop
  | asked : Reached a .asked []
  | ready {call : Client.Call} {left number : Nat} {last : Option RequestError}
    {failed : List Exchange} (hfailed : ∀ x ∈ failed, x.FailsFor a.client.carriesToken) :
    Reached a (.ready call left number last) (failed.map .completed)
  /-- Of the attempt under way no more was done than to hand out its connection. -/
  | holding {call : Client.Call} {left number : Nat} {conn : Connection} {url : Url}
    {failed : List Exchange} (hfailed : ∀ x ∈ failed, x.FailsFor a.client.carriesToken) :
    Reached a (.holding call left number conn url) (failed.map .completed ++ [.unsent conn])
  | finished {r : Except RequestError Bytes} {hist : List Attempt}
    (hleads : Leads a.client.carriesToken hist r) : Reached a (.finished r) hist

/-! ## A request that others come between -/

/-- Goes on with a request in the session as it is now. Before an exchange the request looks once
more whether it has to give up. -/
def resume (a : Ask) (world : World) : Stage × Session → Stage × Session
  | (.holding call left number conn url, s) =>
    if a.client.givesUp s then a.finish world (.error .cancelled, s)
    else a.advance world (.holding call left number conn url, s)
  | (stage, s) => a.advance world (stage, s)

/-- Makes a request step by step, each step in a session that others may have changed in any way
since the last one; and where it stands then. -/
def spells (a : Ask) (world : World) : Stage → List Session → List Spell × Stage
  | stage, [] => ([], stage)
  | stage, found :: later =>
    let (stage, left) := a.resume world (stage, found)
    let (spells, stage) := a.spells world stage later
    (⟨found, left⟩ :: spells, stage)

theorem spells_cons (a : Ask) (world : World) (stage : Stage) (found : Session)
    (later : List Session) :
    a.spells world stage (found :: later) =
      (⟨found, (a.resume world (stage, found)).2⟩ ::
        (a.spells world (a.resume world (stage, found)).1 later).1,
        (a.spells world (a.resume world (stage, found)).1 later).2) := rfl

variable {a : Ask} {world : World} {s : Session} {stage : Stage} {hist : List Attempt}

/-! ## One step -/

/-- Between two moments of a session just that is done by which the attempts at the second exceed
those at the first. -/
structure Extends (world : World) (s : Session) (hist hist' : List Attempt) (s' : Session) :
    Prop where
  did : s.Did world (s'.stepsSince s) (s'.sentSince s) s'
  steps_eq : hist'.flatMap Attempt.steps = hist.flatMap Attempt.steps ++ s'.stepsSince s
  sent_eq : hist'.flatMap Attempt.exchanges = hist.flatMap Attempt.exchanges ++ s'.sentSince s

section

variable {s' : Session} {steps : List PoolStep} {sent : List Exchange} {tail : List Attempt}

/-- More attempts are made. -/
theorem Extends.more
    (hdid : s.Did world (tail.flatMap Attempt.steps) (tail.flatMap Attempt.exchanges) s') :
    Extends world s hist (hist ++ tail) s' where
  did := by rwa [hdid.stepsSince_eq, hdid.sentSince_eq]
  steps_eq := by rw [hdid.stepsSince_eq, List.flatMap_append]
  sent_eq := by rw [hdid.sentSince_eq, List.flatMap_append]

/-- The attempt under way goes on. -/
theorem Extends.last {conn : Connection} {attempt : Attempt} (hdid : s.Did world steps sent s')
    (hsteps : attempt.steps = .taken conn :: steps) (hsent : attempt.exchanges = sent) :
    Extends world s (hist ++ [.unsent conn]) (hist ++ [attempt]) s' where
  did := by rwa [hdid.stepsSince_eq, hdid.sentSince_eq]
  steps_eq := by
    rw [hdid.stepsSince_eq, List.flatMap_append, List.flatMap_append, List.append_assoc,
      List.flatMap_singleton, hsteps]
    rfl
  sent_eq := by
    rw [hdid.sentSince_eq, List.flatMap_append, List.flatMap_append, List.append_assoc,
      List.flatMap_singleton, hsent]
    rfl

theorem Extends.same (hdid : s.Did world [] [] s') : Extends world s hist hist s' := by
  have h : Extends world s hist (hist ++ []) s' := .more hdid
  rwa [List.append_nil] at h

end

/-- Each step of a request makes its attempts what they have to be. -/
theorem Reached.move (h : a.Reached stage hist) {r : Stage × Session}
    (hmove : a.Moves world s stage r) :
    ∃ hist', a.Reached r.1 hist' ∧ Extends world s hist hist' r.2 := by
  cases hmove with
  | encoded =>
    cases h
    exact ⟨_, .ready (List.forall_mem_nil _), .same (.refl world s)⟩
  | unencodable _ hdid =>
    cases h
    exact ⟨_, .finished (.intro (List.forall_mem_nil _) .unencodable), .same hdid⟩
  | spent hdid =>
    cases h with
    | ready hfailed => exact ⟨_, .finished (.intro hfailed .exhausted), .more hdid⟩
  | stopped hprep hdid =>
    cases h with
    | ready hfailed =>
      cases hprep with
      | noConnections _ hdid₁ =>
        exact ⟨_, .finished (.intro hfailed .noConnections), .more (hdid₁.before hdid)⟩
      | noUrl _ hdid₁ =>
        exact ⟨_, .finished (.intro hfailed .noUrl), .more (hdid₁.before hdid)⟩
      | gaveUp hdid₁ =>
        exact ⟨_, .finished (.intro hfailed .gaveUp), .more (hdid₁.before hdid)⟩
      | gaveUpLate hdid₁ =>
        exact ⟨_, .finished (.intro hfailed .gaveUpLate), .more (hdid₁.before hdid)⟩
  | took hdid =>
    cases h with
    | ready hfailed => exact ⟨_, .holding hfailed, .more hdid⟩
  | @answered _ _ _ _ _ x _ _ hx hanswers hdid =>
    subst hx
    cases h with
    | holding hfailed =>
      refine ⟨_, .finished (.intro hfailed (.answered hanswers)), .last hdid ?_ rfl⟩
      simp [Attempt.steps, Exchange.mark, hanswers]
  | @failed _ _ _ _ _ x _ _ hx hover hfails hdid =>
    subst hx
    cases h with
    | @holding _ _ _ _ _ failed hfailed =>
      have hall : ∀ y ∈ failed ++ [x], y.FailsFor a.client.carriesToken := by
        intro y hy
        rcases List.mem_append.mp hy with hy | hy
        · exact hfailed y hy
        · exact List.mem_singleton.mp hy ▸ ⟨hfails, hover⟩
      refine ⟨_, .ready hall, ?_⟩
      rw [List.map_append]
      refine .last hdid ?_ rfl
      simp [Attempt.steps, Exchange.mark, hfails]
  | interrupted hx hopen hdid hup =>
    subst hx
    cases h with
    | holding hfailed =>
      simp only [Client.givesUp, Bool.and_eq_true] at hup
      exact ⟨_, .finished (.intro hfailed (.interrupted hup.1 hopen)), .last hdid rfl rfl⟩
  | rested => exact ⟨hist, h, .same (.refl world s)⟩

theorem Reached.resume (h : a.Reached stage hist) (world : World) (s : Session) :
    ∃ hist', a.Reached (a.resume world (stage, s)).1 hist' ∧
      Extends world s hist hist' (a.resume world (stage, s)).2 := by
  have hmove := h.move (a.advance_moves world stage s)
  cases stage with
  | holding call left number conn url =>
    simp only [Ask.resume]
    split
    · obtain ⟨s', hdid, he⟩ := a.finish_ends world (.error .cancelled) s
      rw [he]
      cases h with
      | holding hfailed => exact ⟨_, .finished (.intro hfailed .gaveUpLate), .same hdid⟩
    · exact hmove
  | asked | ready | finished => exact hmove

/-! ## All steps -/

/-- Steps on end: the journal is that of the attempts. -/
theorem advance_reached (a : Ask) (world : World) (s : Session) (n : Nat) :
    ∃ hist, a.Reached ((a.advance world)^[n] (.asked, s)).1 hist ∧
      s.Ran world hist ((a.advance world)^[n] (.asked, s)).2 := by
  induction n with
  | zero => exact ⟨[], .asked, .refl world s⟩
  | succ n ih =>
    obtain ⟨hist, hreached, hran⟩ := ih
    obtain ⟨hist', hreached', hext⟩ := hreached.move (a.advance_moves world _ _)
    rw [Function.iterate_succ_apply']
    refine ⟨hist', hreached', ?_⟩
    rw [Session.Ran, hext.steps_eq, hext.sent_eq]
    exact Session.Did.trans hran hext.did

/-- Steps between which others come: what the request itself does is what its attempts do. -/
theorem spells_reached (h : a.Reached stage hist) (world : World) (found : List Session) :
    let run := a.spells world stage found
    ∃ hist', a.Reached run.2 hist' ∧
      hist'.flatMap Attempt.steps = hist.flatMap Attempt.steps ++ run.1.flatMap Spell.steps ∧
      hist'.flatMap Attempt.exchanges = hist.flatMap Attempt.exchanges ++ run.1.flatMap Spell.sent ∧
      ∀ t ∈ run.1, t.found.Did world t.steps t.sent t.left := by
  induction found generalizing stage hist with
  | nil => exact ⟨hist, h, (List.append_nil _).symm, (List.append_nil _).symm, List.forall_mem_nil _⟩
  | cons s found ih =>
    obtain ⟨hist₁, h₁, hext⟩ := h.resume world s
    obtain ⟨hist₂, h₂, hsteps, hsent, hdid⟩ := ih h₁
    rw [spells_cons]
    refine ⟨hist₂, h₂, ?_, ?_, List.forall_mem_cons.mpr ⟨hext.did, hdid⟩⟩
    · rw [hsteps, hext.steps_eq, List.append_assoc]
      rfl
    · rw [hsent, hext.sent_eq, List.append_assoc]
      rfl

end Ask

namespace Client

variable {c : Client} {world : World} {s s₁ : Session} {α : Type}

/-! ## Operations that are requests -/

theorem serve_tells (a : Ask) (world : World) (s : Session) :
    a.client.Tells world s (a.serve world s) := by
  obtain ⟨hist, hreached, hran⟩ := a.advance_reached world s (2 * a.client.maxRetries + 2)
  rw [a.advance_alone] at hreached hran
  cases hreached with
  | finished hleads => exact ⟨hist, hleads, hran⟩

theorem Tells.after {r : Except RequestError α × Session} (hdid : s.Did world [] [] s₁)
    (h : c.Tells world s₁ r) : c.Tells world s r := by
  obtain ⟨hist, hleads, hran⟩ := h
  exact ⟨hist, hleads, hdid.after hran⟩

/-- To read an answer tells the pool nothing more, whether it can be read or not. -/
theorem Tells.reading {r : Except RequestError Bytes × Session} {read : Bytes → Except RequestError α}
    (h : c.Tells world s r) (op : Operation) (method : String)
    (hread : ∀ bytes e, read bytes = .error e → ∃ target fault, e = .decode target fault) :
    c.Tells world s (c.reading world op method read r) := by
  obtain ⟨hist, hleads, hran⟩ := h
  obtain ⟨r, s'⟩ := r
  cases r with
  | error e => exact ⟨hist, Leads.error hleads, hran⟩
  | ok bytes =>
    obtain ⟨hfailed, hcloses⟩ := hleads
    cases hcloses with
    | answered hx =>
      simp only [Client.reading]
      split
      next a hok => exact ⟨_, .intro hfailed (.answered hx), hran⟩
      next e herror =>
        obtain ⟨target, fault, rfl⟩ := hread bytes e herror
        exact ⟨_, .intro hfailed (.unread hx), hran.before (did_noteError c world op method _ s')⟩

/-- What cannot be read has a fault in it. -/
theorem decode_of_mapError {r : Except Json.Error α} {target : String} {e : RequestError}
    (h : r.mapError (.decode target) = .error e) : ∃ target fault, e = .decode target fault := by
  cases r with
  | ok a => cases h
  | error fault => exact ⟨target, fault, (Except.error.inj h).symm⟩

/-- An operation on a document or an index: a request, and its answer is read. -/
theorem reading_tells {decode : Bytes → Except Json.Error α} {target : String} (c : Client)
    (world : World) (op : Operation) (method path : String) (params : Option Url.Params)
    (body : Option Body) (s : Session) :
    c.Tells world s
      (c.reading world op method (fun bytes => (decode bytes).mapError (.decode target))
        (c.requestAs world op method path params body s)) :=
  (serve_tells ⟨c, op, method, path, params, body⟩ world s).reading op method
    fun _ _ => decode_of_mapError

/-- An attempt on a connection of the caller's choice: the pool is told of that one. -/
theorem perform_marks (c : Client) (world : World) (conn : Connection) (method : String) (url : Url)
    (payload : Option Bytes) (s : Session) :
    ∃ x : Exchange, x.IsOf method payload conn url ∧
      (c.perform world conn method url payload s).1 = x.outcome ∧
      s.Did world [x.mark] [x] (c.perform world conn method url payload s).2 := by
  have h := attempt_ends c world false .request conn method url payload s
  rw [perform]
  generalize c.attempt world false .request conn method url payload s = r at h ⊢
  cases h with
  | @completed x _ hx _ hdid => exact ⟨x, hx, rfl, hdid⟩
  | interrupted _ _ _ hwatched => cases hwatched

/-- **The pool is told once of each attempt.** Requests and all operations on documents and indices
do to the pool what their attempts do, and no more: a connection is handed out, and marked if the
exchange there is over. An attempt on a connection of the caller's choice marks that one. If others
come between the steps of a request, and change the pool or cancel the run, its own steps are still
those of its attempts, so it marks what it was handed. -/
theorem tells_once (c : Client) (world : World) (s : Session) :
    (∀ method path params body,
      c.Tells world s (c.request world method path params body s)) ∧
    (∀ index docType id params body,
      c.Tells world s (c.index world index docType id params body s)) ∧
    (∀ index docType id params, c.Tells world s (c.delete world index docType id params s)) ∧
    (∀ index, c.Tells world s (c.createIndex world index s)) ∧
    (∀ index, c.Tells world s (c.refresh world index s)) ∧
    (∀ index docType params, c.Tells world s (c.search world index docType params s)) ∧
    (∀ conn method url payload, ∃ x : Exchange, x.IsOf method payload conn url ∧
      (c.perform world conn method url payload s).1 = x.outcome ∧
      s.Did world [x.mark] [x] (c.perform world conn method url payload s).2) ∧
    ∀ op method path params body found,
      let run := Ask.spells ⟨c, op, method, path, params, body⟩ world .asked found
      ∃ hist, Ask.Reached ⟨c, op, method, path, params, body⟩ run.2 hist ∧
        run.1.flatMap Spell.steps = hist.flatMap Attempt.steps ∧
        run.1.flatMap Spell.sent = hist.flatMap Attempt.exchanges ∧
        ∀ t ∈ run.1, t.found.Did world t.steps t.sent t.left := by
  have hlog (e : Event) : s.Did world [] [] (s.log e) := Session.did_log world s e
  refine ⟨?_, ?_, ?_, ?_, ?_, ?_, ?_, ?_⟩
  · intro method path params body
    exact serve_tells ⟨c, .request, method, path, params, body⟩ world s
  · intro index docType id params body
    exact .after (hlog _) (reading_tells c world .index _ _ params (some body) _)
  · intro index docType id params
    exact .after (hlog _) (reading_tells c world .delete _ _ params none _)
  · intro index
    exact .after (hlog _) (reading_tells c world .createIndex _ _ none none _)
  · intro index
    exact reading_tells c world .refresh _ _ none none s
  · intro index docType params
    exact .after (hlog _) (reading_tells c world .search _ _ params none _)
  · intro conn method url payload
    exact perform_marks c world conn method url payload s
  · intro op method path params body found
    obtain ⟨hist, hreached, hsteps, hsent, hdid⟩ :=
      Ask.spells_reached (a := ⟨c, op, method, path, params, body⟩) .asked world found
    exact ⟨hist, hreached, hsteps.symm, hsent.symm, hdid⟩

/-- The set is replaced while a request waits for a node of the old one, and the node fails: the
request says so of the node it was handed, which changes nothing in the new set. -/
theorem tells_once_replaced :
    let replaced := Session.twoNodes.setConnections ["http://a"] none
    let a : Connection := ⟨0, "http://a", none⟩
    let run := Ask.search.spells .halfDown .asked [.twoNodes, .twoNodes, replaced]
    run.1.flatMap Spell.steps = [.taken a, .markedDead a] ∧
      (∃ hist, Ask.search.Reached run.2 hist ∧
        hist.flatMap Attempt.steps = [.taken a, .markedDead a]) ∧
      run.1.getLast?.map (·.left.pool) = some replaced.pool := by
  intro replaced a run
  have hsteps : run.1.flatMap Spell.steps = [.taken a, .markedDead a] := by decide +kernel
  obtain ⟨hist, hreached, hhist, -⟩ := (tells_once .patient .halfDown .start).2.2.2.2.2.2.2
    .request "GET" "/_search" none none [.twoNodes, .twoNodes, replaced]
  exact ⟨hsteps, ⟨hist, hreached, hhist.symm.trans hsteps⟩, by decide +kernel⟩

end Client

end ClusterOutput
