/-
Observers are transparent. A client does the same whatever collector it has, or
none. And it does the same whether or not it carries a token that has not fired
when it is done (`requestAs_carrying`).

So runs whose clients differ in their observers only go alike step by step
(`observers_transparent`).
-/
import ClusterOutput.Proofs.Client.Calm
import ClusterOutput.Proofs.Client.Measured

namespace ClusterOutput

/-! ## Tokens that do not fire -/

/-- A run that is not cancelled was not so before. -/
theorem Session.Did.unfired {world : World} {s s' : Session} {steps : List PoolStep}
    {sent : List Exchange} (hdid : s.Did world steps sent s') (h : s'.isCancelled = false) :
    s.isCancelled = false :=
  Bool.eq_false_iff.mpr fun hs => Bool.eq_false_iff.mp h (hdid.token hs)

namespace Client

/-- The client with the token of its run, or without. -/
def carrying (c : Client) (b : Bool) : Client := { c with carriesToken := b }

section

variable {c : Client} {world : World} {op : Operation} {method : String} {s : Session} {b : Bool}

theorem givesUp_unfired (h : s.isCancelled = false) : c.givesUp s = false := by
  simp [givesUp, h]

theorem Prepared.did {call : Call} {r : Except RequestError (Connection × Url) × Session}
    (h : Prepared c world call s r) : ∃ steps, s.Did world steps [] r.2 := by
  cases h with
  | aimed _ hdid | noConnections _ hdid | noUrl _ hdid | gaveUp hdid | gaveUpLate hdid =>
    exact ⟨_, hdid⟩

theorem Attempted.did {watched : Bool} {payload : Option Bytes} {conn : Connection} {url : Url}
    {r : Except RequestError Bytes × Session}
    (h : Attempted world watched method payload conn url s r) :
    ∃ steps sent, s.Did world steps sent r.2 := by
  cases h with
  | interrupted _ _ hdid | completed _ _ hdid => exact ⟨_, _, hdid⟩

/-- Whether or not the client carries the token, it looks for a connection in the same way while
the token has not fired. -/
theorem prepare_carrying {call : Call} {number : Nat}
    (h : (c.prepare world call number s).2.isCancelled = false) :
    (c.carrying b).prepare world call number s = c.prepare world call number s := by
  obtain ⟨steps, hdid⟩ := (prepare_ends c world call number s).did
  have hs : s.isCancelled = false := hdid.unfired h
  have hnote : (c.carrying b).noteRetry world = c.noteRetry world := rfl
  have hbackoff : (c.carrying b).backoff = c.backoff := rfl
  have hretries : (c.carrying b).maxRetries = c.maxRetries := rfl
  revert h
  unfold prepare
  simp only [givesUp_unfired hs, hnote, hbackoff, hretries, if_neg Bool.false_ne_true]
  generalize (if isRetry number then c.noteRetry world call.operation call.method number s
    else s) = s₁
  cases h₁ : s₁.isCancelled with
  | false =>
    intro _
    simp only [givesUp_unfired h₁]
    cases htake : s₁.take? with
    | none => rfl
    | some r =>
      obtain ⟨conn, s₂⟩ := r
      have h₂ (e : Event) : (s₂.log e).isCancelled = false :=
        (Session.take?_isCancelled htake).trans h₁
      simp only [givesUp_unfired (h₂ _)]
  | true =>
    -- The token fired in the pause, and the client does not set it back.
    intro h
    exfalso
    split at h
    · exact absurd (h₁.symm.trans h) (by decide)
    split at h
    · exact absurd (h₁.symm.trans h) (by decide)
    next conn s₂ htake =>
      have h₂ := (Session.take?_isCancelled htake).trans h₁
      split at h
      · exact absurd (h₂.symm.trans h) (by decide)
      · split at h <;> exact absurd (h₂.symm.trans h) (by decide)

theorem answered_isCancelled (conn : Connection) (url final : Url) (status : Nat)
    (body : Option Bytes) :
    (c.answered conn url final status body s).2.isCancelled = s.isCancelled := by
  unfold answered
  split
  · simp
  · cases body <;> simp

/-- An exchange that does not fire the token is settled in the same way whether or not the token is
watched. -/
theorem settle_unwatched {watched : Bool} {x : Exchange}
    (h : (c.settle watched op method x s).2.isCancelled = false) :
    c.settle b op method x s = c.settle watched op method x s := by
  revert h
  unfold settle
  split
  · intro h
    split at h <;> simp [unanswered, Session.interrupt] at h
  · exact fun _ => rfl
  · exact fun _ => rfl
  · intro h
    split at h <;> simp [answered_isCancelled, Session.interrupt] at h

theorem attempt_unwatched {watched : Bool} {conn : Connection} {url : Url}
    {payload : Option Bytes}
    (h : (c.attempt world watched op conn method url payload s).2.isCancelled = false) :
    c.attempt world b op conn method url payload s =
      c.attempt world watched op conn method url payload s := by
  rw [attempt_eq] at h ⊢
  rw [attempt_eq, settle_unwatched h]

theorem tryOn_carrying {call : Call} {number : Nat} {conn : Connection} {url : Url}
    (h : (c.tryOn world call number conn url s).2.isCancelled = false) :
    (c.carrying b).tryOn world call number conn url s = c.tryOn world call number conn url s := by
  have hattempted : (c.attempt world c.carriesToken call.operation conn call.method url
      call.payload s).2.isCancelled = false := by
    revert h
    unfold tryOn
    generalize c.attempt world c.carriesToken call.operation conn call.method url call.payload s = r
    obtain ⟨r, s₁⟩ := r
    have hnoted (e : RequestError) (h : (c.noteError world call.operation call.method e
        (s₁.log (.attemptFailed number c.maxRetries conn.url e))).isCancelled = false) :
        s₁.isCancelled = false :=
      Session.Did.unfired (s := s₁.log _) (did_noteError ..) h
    intro h
    cases r with
    | ok bytes =>
      simp only [] at h
      split at h <;> exact h
    | error e =>
      cases e with
      | cancelled => exact h
      | _ => exact hnoted _ h
  have hattempt : (c.carrying b).attempt world b call.operation conn call.method url call.payload s =
      c.attempt world c.carriesToken call.operation conn call.method url call.payload s :=
    attempt_unwatched hattempted
  have htoken : (c.carrying b).carriesToken = b := rfl
  unfold tryOn
  rw [htoken, hattempt]
  rfl

theorem attempts_carrying {call : Call} {left number : Nat} {last : Option RequestError}
    (h : (c.attempts world call left number last s).2.isCancelled = false) :
    (c.carrying b).attempts world call left number last s =
      c.attempts world call left number last s := by
  induction left generalizing number last s with
  | zero => rfl
  | succ left ih =>
    unfold attempts at h ⊢
    have hprepare : (c.prepare world call number s).2.isCancelled = false →
        (c.carrying b).prepare world call number s = c.prepare world call number s :=
      prepare_carrying
    generalize c.prepare world call number s = r at h hprepare ⊢
    obtain ⟨r, s₁⟩ := r
    cases r with
    | error e => rw [hprepare h]
    | ok aim =>
      obtain ⟨conn, url⟩ := aim
      have htried : (c.tryOn world call number conn url s₁).2.isCancelled = false →
          (c.carrying b).tryOn world call number conn url s₁ =
            c.tryOn world call number conn url s₁ :=
        tryOn_carrying
      obtain ⟨steps, sent, hdid⟩ := (tryOn_ends c world call number conn url s₁).did
      simp only [] at h ⊢
      generalize c.tryOn world call number conn url s₁ = r at h htried hdid ⊢
      obtain ⟨r, s₂⟩ := r
      have h₂ : s₂.isCancelled = false := by
        cases r with
        | ok bytes => exact h
        | error e =>
          cases e with
          | cancelled => exact h
          | _ =>
            obtain ⟨hist, hran, -⟩ := attempts_course c world call left (number + 1) _ s₂
            exact Session.Did.unfired hran h
      rw [hprepare (hdid.unfired h₂)]
      simp only [htried h₂]
      cases r with
      | ok bytes => rfl
      | error e =>
        cases e with
        | cancelled => rfl
        | _ => exact ih h

/-- A request does the same whether or not its client carries the token of the run, if the token
has not fired when it is done. -/
theorem requestAs_carrying {path : String} {params : Option Url.Params} {body : Option Body}
    (h : (c.requestAs world op method path params body s).2.isCancelled = false) :
    (c.carrying b).requestAs world op method path params body s =
      c.requestAs world op method path params body s := by
  have hdispatched : (c.dispatch world op method path params body s).2.isCancelled = false :=
    (conclude_ends c world op method _ _).2.unfired h
  have hdispatch : (c.carrying b).dispatch world op method path params body s =
      c.dispatch world op method path params body s := by
    unfold dispatch at hdispatched ⊢
    cases hbody : payloadOf body with
    | error e => rfl
    | ok payload =>
      rw [hbody] at hdispatched
      exact attempts_carrying hdispatched
  rw [requestAs, hdispatch]
  rfl

theorem operation_carrying {α : Type} {read : Bytes → Except RequestError α} {path : String}
    {params : Option Url.Params} {body : Option Body}
    (h : (c.reading world op method read
      (c.requestAs world op method path params body s)).2.isCancelled = false) :
    (c.carrying b).reading world op method read
        ((c.carrying b).requestAs world op method path params body s) =
      c.reading world op method read (c.requestAs world op method path params body s) := by
  have hrequest : (c.requestAs world op method path params body s).2.isCancelled = false →
      (c.carrying b).requestAs world op method path params body s =
        c.requestAs world op method path params body s :=
    requestAs_carrying
  generalize c.requestAs world op method path params body s = r at h hrequest ⊢
  obtain ⟨r, s₁⟩ := r
  have h₁ : s₁.isCancelled = false := by
    cases r with
    | error e => exact h
    | ok bytes =>
      simp only [reading] at h
      cases hread : read bytes with
      | ok a => rw [hread] at h; exact h
      | error e => rw [hread] at h; exact (did_noteError c world op method e s₁).unfired h
  rw [hrequest h₁]
  rfl

end

end Client

/-! ## Requests that others come between -/

namespace Ask

/-- The same request of a client with the token of its run, or without. -/
def carrying (a : Ask) (b : Bool) : Ask := { a with client := a.client.carrying b }

section

variable {a : Ask} {world : World} {s : Session} {b : Bool}

theorem advance_carrying {stage : Stage}
    (h : (a.advance world (stage, s)).2.isCancelled = false) :
    (a.carrying b).advance world (stage, s) = a.advance world (stage, s) := by
  have hfinish (r : Except RequestError Bytes × Session) :
      (a.finish world r).2.isCancelled = false → r.2.isCancelled = false :=
    fun h => (Client.conclude_ends a.client world a.operation a.method r.1 r.2).2.unfired h
  cases stage with
  | asked | finished r => rfl
  | ready call left number last =>
    cases left with
    | zero => rfl
    | succ left =>
      have hprepare : (a.client.prepare world call number s).2.isCancelled = false →
          (a.client.carrying b).prepare world call number s =
            a.client.prepare world call number s :=
        Client.prepare_carrying
      have hclient : (a.carrying b).client = a.client.carrying b := rfl
      simp only [advance] at h ⊢
      generalize a.client.prepare world call number s = r at h hprepare ⊢
      obtain ⟨r, s₁⟩ := r
      have h₁ : s₁.isCancelled = false := by
        cases r with
        | error e => exact hfinish _ h
        | ok aim => exact h
      rw [hclient, hprepare h₁]
      rfl
  | holding call left number conn url =>
    have htry : (a.client.tryOn world call number conn url s).2.isCancelled = false →
        (a.client.carrying b).tryOn world call number conn url s =
          a.client.tryOn world call number conn url s :=
      Client.tryOn_carrying
    have hclient : (a.carrying b).client = a.client.carrying b := rfl
    simp only [advance] at h ⊢
    generalize a.client.tryOn world call number conn url s = r at h htry ⊢
    obtain ⟨r, s₁⟩ := r
    have h₁ : s₁.isCancelled = false := by
      cases r with
      | ok bytes => exact hfinish _ h
      | error e =>
        cases e with
        | cancelled => exact hfinish _ h
        | _ => exact h
    rw [hclient, htry h₁]
    rfl

theorem resume_carrying {stage : Stage}
    (h : (a.resume world (stage, s)).2.isCancelled = false) :
    (a.carrying b).resume world (stage, s) = a.resume world (stage, s) := by
  have hs : s.isCancelled = false := Bool.eq_false_iff.mpr fun hs =>
    Bool.eq_false_iff.mp h (a.resume_keeps_cancelled stage hs)
  cases stage with
  | holding call left number conn url =>
    simp only [resume, Client.givesUp_unfired hs, if_neg Bool.false_ne_true] at h ⊢
    exact advance_carrying h
  | asked | ready => exact advance_carrying h
  | finished => rfl

end

end Ask

/-! ## Whole runs -/

/-- What comes back from a deed. -/
inductive DeedAnswer where
  | bytes (r : Except RequestError Bytes)
  | acknowledged (r : Except RequestError Acknowledgement)
  | found (r : Except RequestError SearchAnswer)
  /-- Where a request stands after its step. -/
  | standing (stage : Stage)
  | client (c : Client)
  | configured (r : Except RequestError Unit)
  | pool (answer : PoolAnswer)
  | done

/-- The client apart from its observers. -/
def Client.unobserved (c : Client) : Client := (c.carrying false).measuredBy none

/-- The answer with another client in it, if it is one. -/
def DeedAnswer.dress (client : Client → Client) : DeedAnswer → DeedAnswer
  | .client c => .client (client c)
  | answer => answer

/-- The answer with another collector of a client in it. -/
def DeedAnswer.measuredBy (answer : DeedAnswer) (q : Option Collector) : DeedAnswer :=
  answer.dress (·.measuredBy q)

/-- The answer with a client in it that has the token of its run, or has not. -/
def DeedAnswer.carrying (answer : DeedAnswer) (b : Bool) : DeedAnswer :=
  answer.dress (·.carrying b)

/-- The answer apart from the observers of a client in it. -/
def DeedAnswer.unobserved (answer : DeedAnswer) : DeedAnswer :=
  (answer.carrying false).measuredBy none

namespace Deed

/-- What comes back from a deed, and the session after it. -/
def run (world : World) (s : Session) : Deed → DeedAnswer × Session
  | ask a => Prod.map .bytes id (a.serve world s)
  | index c name docType document params body =>
    Prod.map .acknowledged id (c.index world name docType document params body s)
  | delete c name docType document params =>
    Prod.map .acknowledged id (c.delete world name docType document params s)
  | createIndex c name => Prod.map .acknowledged id (c.createIndex world name s)
  | refresh c name => Prod.map .acknowledged id (c.refresh world name s)
  | search c name docType params => Prod.map .found id (c.search world name docType params s)
  | perform c conn method url payload =>
    Prod.map .bytes id (c.perform world conn method url payload s)
  | step a stage => Prod.map .standing id (a.resume world (stage, s))
  | setMaxRetries c n => Prod.map .client id (c.setMaxRetries n s)
  | setConnections urls credentials =>
    Prod.map .configured id (Client.setConnections urls credentials s)
  | pool collector asked => Prod.map .pool id (s.call collector asked)
  | cancel => (.done, { s with isCancelled := true })

theorem run_act (world : World) (s : Session) (d : Deed) : (d.run world s).2 = d.act world s := by
  cases d <;> rfl

/-- The same deed with other clients, and of a pool with another collector. -/
def dress (client : Client → Client) (collector : Option Collector → Option Collector) :
    Deed → Deed
  | ask a => .ask { a with client := client a.client }
  | index c name docType document params body =>
    .index (client c) name docType document params body
  | delete c name docType document params => .delete (client c) name docType document params
  | createIndex c name => .createIndex (client c) name
  | refresh c name => .refresh (client c) name
  | search c name docType params => .search (client c) name docType params
  | perform c conn method url payload => .perform (client c) conn method url payload
  | step a stage => .step { a with client := client a.client } stage
  | setMaxRetries c n => .setMaxRetries (client c) n
  | setConnections urls credentials => .setConnections urls credentials
  | pool q asked => .pool (collector q) asked
  | cancel => .cancel

/-- The same deed with another collector. -/
def measuredBy (d : Deed) (q : Option Collector) : Deed := d.dress (·.measuredBy q) fun _ => q

/-- The same deed of a client with the token of its run, or without. -/
def carrying (d : Deed) (b : Bool) : Deed := d.dress (·.carrying b) id

/-- The deed apart from the observers of its client. -/
def unobserved (d : Deed) : Deed := (d.carrying false).measuredBy none

/-- Who measures the deed. -/
def collector? : Deed → Option Collector
  | ask a | step a _ => a.client.collector
  | index c .. | delete c .. | createIndex c _ | refresh c _ | search c .. | perform c ..
  | setMaxRetries c _ => c.collector
  | pool q _ => q
  | setConnections .. | cancel => none

/-- The deed is one of a client that carries the token of its run. -/
def carriesToken : Deed → Bool
  | ask a | step a _ => a.client.carriesToken
  | index c .. | delete c .. | createIndex c _ | refresh c _ | search c .. | perform c ..
  | setMaxRetries c _ => c.carriesToken
  | pool .. | setConnections .. | cancel => false

theorem measuredBy_self (d : Deed) : d.measuredBy d.collector? = d := by
  cases d <;> rfl

theorem carrying_self (d : Deed) : d.carrying d.carriesToken = d := by
  cases d <;> rfl

theorem carrying_carrying (d : Deed) (b b' : Bool) : (d.carrying b).carrying b' = d.carrying b' := by
  cases d <;> rfl

theorem carrying_measuredBy (d : Deed) (q : Option Collector) (b : Bool) :
    (d.measuredBy q).carrying b = (d.carrying b).measuredBy q := by
  cases d <;> rfl

variable {d d' : Deed} {world : World} {s s' : Session}

/-- A deed does the same whoever measures it. -/
theorem run_measured {q : Option Collector} (hq : Collector.IsIdle q) (d : Deed) (world : World)
    (s : Session) (xs : List Sample) :
    (d.measuredBy q).run world (s.measured xs) =
      ((d.run world s).1.measuredBy q, (d.run world s).2.measured xs) := by
  cases d with
  | ask a =>
    exact congrArg (Prod.map DeedAnswer.bytes id)
      (Client.requestAs_measured hq a.path a.params a.body)
  | index c | delete c | createIndex c =>
    exact congrArg (Prod.map DeedAnswer.acknowledged id)
      (Client.operation_measured (s := s.log _) hq _ _ _ _)
  | refresh c =>
    exact congrArg (Prod.map DeedAnswer.acknowledged id) (Client.operation_measured hq _ _ _ _)
  | search c =>
    exact congrArg (Prod.map DeedAnswer.found id)
      (Client.operation_measured (s := s.log _) hq _ _ _ _)
  | perform c =>
    exact congrArg (Prod.map DeedAnswer.bytes id) (Client.attempt_measured hq _ _ _ _)
  | step a stage => exact congrArg (Prod.map DeedAnswer.standing id) (Ask.resume_remeasured hq _)
  | setMaxRetries c n =>
    exact congrArg (Prod.map DeedAnswer.client id) (Client.setMaxRetries_measured n)
  | setConnections =>
    exact congrArg (Prod.map DeedAnswer.configured id) (Client.setConnections_measured _ _)
  | pool p asked =>
    exact congrArg (Prod.map DeedAnswer.pool id) (Session.call_measured hq p asked)
  | cancel => rfl

/-- A deed whose collector is idle takes no sample. -/
theorem act_idle (hq : Collector.IsIdle d.collector?) :
    (d.act world s).journal.samples = s.journal.samples := by
  have hrun := run_measured hq d world s s.journal.samples
  rw [measuredBy_self, Session.measured_self] at hrun
  rw [← run_act, hrun]
  rfl

/-- A deed does the same whether or not its client carries the token of the run, if the token has
not fired when it is done. -/
theorem run_carrying {b : Bool} (h : (d.act world s).isCancelled = false) :
    (d.carrying b).run world s = ((d.run world s).1.carrying b, (d.run world s).2) := by
  cases d with
  | ask a => exact congrArg (Prod.map DeedAnswer.bytes id) (Client.requestAs_carrying h)
  | index c | delete c | createIndex c | refresh c =>
    exact congrArg (Prod.map DeedAnswer.acknowledged id) (Client.operation_carrying h)
  | search c => exact congrArg (Prod.map DeedAnswer.found id) (Client.operation_carrying h)
  | step a stage => exact congrArg (Prod.map DeedAnswer.standing id) (Ask.resume_carrying h)
  | perform | setMaxRetries | setConnections | pool | cancel => rfl

end Deed

theorem DeedAnswer.unobserved_carrying (answer : DeedAnswer) (b : Bool) :
    (answer.carrying b).unobserved = answer.unobserved := by
  cases answer <;> rfl

theorem DeedAnswer.unobserved_measuredBy (answer : DeedAnswer) (q : Option Collector) :
    (answer.measuredBy q).unobserved = answer.unobserved := by
  cases answer <;> rfl

/-- What comes back from a deed and the session after it, apart from observers and samples. -/
def apartFromObservers (r : DeedAnswer × Session) : DeedAnswer × Session :=
  (r.1.unobserved, r.2.measured [])

/-- Deeds that differ in their observers only, done in sessions that differ in their samples only:
the same comes back, and the sessions after them differ in their samples only. -/
theorem Deed.run_unobserved {d d' : Deed} {world : World} {s s' : Session}
    (hd : d.unobserved = d'.unobserved) (hs : s.measured [] = s'.measured [])
    (htoken : d.carriesToken = d'.carriesToken ∨ (d.act world s).isCancelled = false) :
    apartFromObservers (d.run world s) = apartFromObservers (d'.run world s') := by
  have hcollectors : d'.measuredBy none = (d.carrying d'.carriesToken).measuredBy none := by
    have hcarried := congrArg (·.carrying d'.carriesToken) hd
    simpa only [Deed.unobserved, carrying_measuredBy, carrying_carrying, carrying_self]
      using hcarried.symm
  have hmeasured : apartFromObservers (d'.run world s') =
      apartFromObservers ((d.carrying d'.carriesToken).run world s) := by
    have hidle : Collector.IsIdle none := by simp [Collector.IsIdle]
    have h := run_measured hidle d' world s' []
    have h' := run_measured hidle (d.carrying d'.carriesToken) world s []
    rw [hcollectors, ← hs, h', Prod.mk.injEq] at h
    refine Prod.ext ?_ h.2.symm
    rw [apartFromObservers, apartFromObservers, ← DeedAnswer.unobserved_measuredBy _ none, ← h.1,
      DeedAnswer.unobserved_measuredBy]
  rw [hmeasured]
  rcases htoken with htoken | hunfired
  · rw [← htoken, carrying_self]
  · rw [run_carrying hunfired]
    exact Prod.ext (DeedAnswer.unobserved_carrying _ _).symm rfl

/-- What comes back from deeds, each of which meets a world of its own, with the session after each
of them. -/
def Session.trace (s : Session) : List (World × Deed) → List (DeedAnswer × Session)
  | [] => []
  | (world, d) :: deeds => d.run world s :: (d.act world s).trace deeds

/-- Deeds apart from the observers of their clients. -/
def unobservedDeeds (deeds : List (World × Deed)) : List (World × Deed) :=
  deeds.map (Prod.map id Deed.unobserved)

theorem Session.trace_unobserved {deeds deeds' : List (World × Deed)} {s s' : Session}
    (hsame : unobservedDeeds deeds = unobservedDeeds deeds') (hs : s.measured [] = s'.measured [])
    (htoken : deeds.map (·.2.carriesToken) = deeds'.map (·.2.carriesToken) ∨
      (s.later deeds).isCancelled = false) :
    (s.trace deeds).map apartFromObservers = (s'.trace deeds').map apartFromObservers := by
  induction deeds generalizing deeds' s s' with
  | nil =>
    obtain rfl : deeds' = [] := by simpa [unobservedDeeds] using hsame.symm
    rfl
  | cons turn deeds ih =>
    obtain ⟨world, d⟩ := turn
    cases deeds' with
    | nil => simp [unobservedDeeds] at hsame
    | cons turn' deeds' =>
    obtain ⟨world', d'⟩ := turn'
    simp only [unobservedDeeds, List.map_cons, List.cons.injEq, Prod.map_apply, id,
      Prod.mk.injEq] at hsame
    obtain ⟨⟨rfl, hd⟩, hsame⟩ := hsame
    have hact : (s.later ((world, d) :: deeds)).isCancelled = false →
        (d.act world s).isCancelled = false := fun h => Bool.eq_false_iff.mpr fun hact =>
      Bool.eq_false_iff.mp h (later_cancelled deeds hact)
    have hrun : apartFromObservers (d.run world s) = apartFromObservers (d'.run world s') :=
      Deed.run_unobserved hd hs (htoken.imp (fun h => (List.cons.inj h).1) hact)
    have hnext : (d.act world s).measured [] = (d'.act world s').measured [] := by
      rw [← Deed.run_act, ← Deed.run_act]
      exact congrArg Prod.snd hrun
    have hrest := ih hsame hnext (htoken.imp (fun h => (List.cons.inj h).2) id)
    simp only [trace, List.map_cons, hrun, hrest]

theorem Session.trace_idle {deeds : List (World × Deed)} {s : Session}
    (hidle : ∀ turn ∈ deeds, Collector.IsIdle turn.2.collector?) :
    ∀ r ∈ s.trace deeds, r.2.journal.samples = s.journal.samples := by
  induction deeds generalizing s with
  | nil => simp [trace]
  | cons turn deeds ih =>
    obtain ⟨world, d⟩ := turn
    obtain ⟨hd, hrest⟩ := List.forall_mem_cons.mp hidle
    have hact : (d.act world s).journal.samples = s.journal.samples := Deed.act_idle hd
    intro r hr
    rcases List.mem_cons.mp hr with rfl | hr
    · rw [Deed.run_act]
      exact hact
    · rw [ih hrest r hr, hact]

/-- The options apart from the observers in them. -/
def ClientOptions.unobserved (o : ClientOptions) : ClientOptions :=
  { o with collector := none, carriesToken := false }

theorem ClientOptions.build_unobserved (o : ClientOptions) (s : Session) :
    o.unobserved.build s = (o.build s).map (Prod.map Client.unobserved id) := by
  unfold build
  show (normalizeHosts o.hosts >>= _) = _
  cases normalizeHosts o.hosts <;> rfl

/-- **Observers are transparent.** Let the same be done twice in a session, in the same worlds, by
clients that differ in their observers: in their collectors, enabled, disabled or none, and in
whether they carry the token of the run, if it has not fired at the end of the first time. Then the
same comes back from every deed, and after each of them the sessions are the same but for their
samples: the pool, the exchanges and all else that was noted. Where every collector is disabled or
absent, no sample is taken. And whether a client is built, and with what pool, does not depend on
the observers that it is to have. -/
theorem observers_transparent (s : Session) :
    (∀ deeds deeds' : List (World × Deed), unobservedDeeds deeds = unobservedDeeds deeds' →
      deeds.map (·.2.carriesToken) = deeds'.map (·.2.carriesToken) ∨
        (s.later deeds).isCancelled = false →
      (s.trace deeds).map apartFromObservers = (s.trace deeds').map apartFromObservers) ∧
    (∀ deeds : List (World × Deed), (∀ turn ∈ deeds, Collector.IsIdle turn.2.collector?) →
      ∀ r ∈ s.trace deeds, r.2.journal.samples = s.journal.samples) ∧
    ∀ o o' : ClientOptions, o.unobserved = o'.unobserved →
      (o.build s).map (Prod.map Client.unobserved id) =
        (o'.build s).map (Prod.map Client.unobserved id) := by
  refine ⟨?_, ?_, ?_⟩
  · exact fun deeds deeds' hsame htoken => Session.trace_unobserved hsame rfl htoken
  · exact fun deeds hidle => Session.trace_idle hidle
  · intro o o' ho
    rw [← o.build_unobserved, ho, o'.build_unobserved]

/-- A search fails over from one node to another, and a connection is asked for: with measurements
and the token of the run, with a disabled collector, and with neither. -/
theorem observers_transparent_halfDown :
    let deeds (collector : Option Collector) (token : Bool) : List (World × Deed) :=
      let c : Client := (Client.patient.measuredBy collector).carrying token
      [(.halfDown, .ask { Ask.search with client := c }), (.halfDown, .pool collector .take)]
    let run (collector : Option Collector) (token : Bool) :=
      Session.twoNodes.trace (deeds collector token)
    ((Session.twoNodes.later (deeds (some .enabled) true)).isCancelled = false ∧
      (Session.twoNodes.later (deeds (some .enabled) true)).journal.samples.length = 7) ∧
    (∀ collector token, (run (some .enabled) true).map apartFromObservers =
      (run collector token).map apartFromObservers) ∧
    ∀ r ∈ run (some .disabled) true, r.2.journal.samples = [] := by
  intro deeds run
  have hrun : (Session.twoNodes.later (deeds (some .enabled) true)).isCancelled = false ∧
      (Session.twoNodes.later (deeds (some .enabled) true)).journal.samples.length = 7 := by
    decide +kernel
  obtain ⟨hsame, hidle, -⟩ := observers_transparent .twoNodes
  refine ⟨hrun, ?_, ?_⟩
  · exact fun collector token => hsame _ _ rfl (.inr hrun.1)
  · refine hidle _ ?_
    simp [deeds, Deed.collector?, Client.measuredBy, Client.carrying, Collector.IsIdle,
      Collector.disabled]

end ClusterOutput
