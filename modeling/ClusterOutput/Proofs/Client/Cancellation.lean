/-
What becomes of a request when its run is cancelled. The run can be cancelled
after an attempt has failed, in the pause before the next one, and while an
exchange waits for its answer or for the rest of it.

Where an attempt is cut short, nothing is left of it but the turn of the
connection that was handed out; the attempts before it stand, with their marks.
An attempt whose exchange is over is never taken back: if it was answered, so is
the request, and if it was the last and failed, the request is exhausted whatever
the token says (`cancels_cleanly`).
-/
import ClusterOutput.Proofs.Client.Account
import ClusterOutput.Proofs.Client.Marks
import ClusterOutput.Proofs.Pool.Calls

namespace ClusterOutput

/-- To hand out a connection moves the turn and changes nothing else. -/
theorem Pool.Takes.eq_turn {p q : Pool} {c : Connection} (h : p.Takes c q) :
    q = { p with cursor := q.cursor } := by
  cases h with
  | live => rfl
  | oldest => rfl

/-! ## What a request that is given up leaves behind -/

namespace Session

/-- The exchanges since an earlier moment that came to their end. -/
def overSince (s earlier : Session) : List Exchange :=
  (s.sentSince earlier).filter (!·.reply.isOpen)

/-- What attempts whose exchanges are over do to the pool. -/
def stepsOf (ended : List Exchange) : List PoolStep :=
  ended.flatMap fun x => [.taken x.connection, x.mark]

/-- A request was given up behind the attempts whose exchanges are `ended`. The pool is as these left
it, but that the connection which was handed out next, if one was, has had its turn. -/
inductive LeftOff (s after : Session) (ended : List Exchange) : Option Connection → Prop
  | between (hsteps : after.stepsSince s = stepsOf ended)
    (hpool : s.pool.replay (stepsOf ended) = some after.pool) : LeftOff s after ended none
  | within {conn : Connection} {p : Pool}
    (hsteps : after.stepsSince s = stepsOf ended ++ [.taken conn])
    (hpool : s.pool.replay (stepsOf ended) = some p) (htake : p.take? = some (conn, after.pool))
    (hturn : after.pool = { p with cursor := after.pool.cursor }) :
    LeftOff s after ended (some conn)

variable {world : World} {s after : Session} {ended : List Exchange}

theorem steps_completed (ended : List Exchange) :
    (ended.map Attempt.completed).flatMap Attempt.steps = stepsOf ended := by
  rw [List.flatMap_map]
  rfl

theorem Ran.leftOff_between (h : s.Ran world (ended.map .completed ++ []) after) :
    s.LeftOff after ended none := by
  rw [List.append_nil] at h
  have hsteps := steps_completed ended
  refine .between (h.stepsSince_eq.trans hsteps) ?_
  rw [← hsteps]
  exact h.pool

theorem Ran.leftOff_within {attempt : Attempt} {conn : Connection}
    (hattempt : attempt.steps = [.taken conn])
    (h : s.Ran world (ended.map .completed ++ [attempt]) after) :
    s.LeftOff after ended (some conn) := by
  have hsteps : (ended.map Attempt.completed ++ [attempt]).flatMap Attempt.steps =
      stepsOf ended ++ [.taken conn] := by
    rw [List.flatMap_append, List.flatMap_singleton, hattempt, steps_completed]
  have hpool := h.pool
  rw [hsteps, Pool.replay_append] at hpool
  obtain ⟨p, hp, htaken⟩ := hpool
  rw [Pool.replay_singleton, Pool.follow_taken] at htaken
  exact .within (h.stepsSince_eq.trans hsteps) hp htaken (Pool.takes_of_take? htaken).eq_turn

end Session

namespace Client

/-! ## What the journal shows of an account -/

section

variable {c : Client} {world : World} {call : Call} {left number : Nat}
  {earlier : Option RequestError} {s : Session} {r : Except RequestError Bytes × Session}
  {failed : List Exchange} {last : List Attempt} {late : Nat}

theorem Account.sent_eq (h : c.Account world call left number earlier s r failed last late) :
    r.2.sentSince s = failed ++ last.flatMap Attempt.exchanges := by
  rw [h.ran.sentSince_eq, List.flatMap_append, exchanges_completed]

theorem Account.over_eq (h : c.Account world call left number earlier s r failed last late)
    (htoken : c.carriesToken = true) :
    r.2.overSince s = failed ++ (last.flatMap Attempt.exchanges).filter (!·.reply.isOpen) := by
  have hfailed : failed.filter (!·.reply.isOpen) = failed := by
    refine List.filter_eq_self.mpr fun x hx => ?_
    have hover := (h.ended x hx).2
    rw [htoken, Bool.true_and] at hover
    simp [hover]
  rw [Session.overSince, h.sent_eq, List.filter_append, hfailed]

/-- A request is cancelled before an attempt that could still be made, or within it. -/
theorem Account.cancelled (h : c.Account world call left number earlier s r failed last late)
    (htoken : c.carriesToken = true) (hr : r.1 = .error .cancelled) :
    failed.length < left ∧ r.2.overSince s = failed ∧ ∃ handed, s.LeftOff r.2 failed handed := by
  obtain ⟨r, after⟩ := r
  subst hr
  rcases h.ends with ⟨-, -, hr⟩ | ⟨hlt, hstop⟩
  · cases hr
  have hover := h.over_eq htoken
  cases hstop with
  | gaveUp => exact ⟨hlt, by simpa using hover, _, h.ran.leftOff_between⟩
  | gaveUpLate => exact ⟨hlt, by simpa [Attempt.exchanges] using hover, _, h.ran.leftOff_within rfl⟩
  | interrupted =>
    have hopen := h.open_of_last _ rfl
    exact ⟨hlt, by simpa [Attempt.exchanges, hopen] using hover, _, h.ran.leftOff_within rfl⟩

/-- An exchange that does not come to its end is the last, and its request is cancelled. -/
theorem Account.breaks_off (h : c.Account world call left number earlier s r failed last late)
    (htoken : c.carriesToken = true) {x : Exchange} (hx : x ∈ r.2.sentSince s)
    (hopen : x.reply.isOpen = true) : r.1 = .error .cancelled ∧ last = [.interrupted x] := by
  rw [h.sent_eq, List.mem_append] at hx
  rcases hx with hx | hx
  · have hover := (h.ended x hx).2
    simp [htoken, hopen] at hover
  rcases h.ends with ⟨-, hlast, -⟩ | ⟨-, hstop⟩
  · simp [hlast] at hx
  obtain ⟨r, after⟩ := r
  cases hstop with
  | answered hy hout =>
    simp only [Attempt.exchanges, List.flatMap_singleton, List.mem_singleton] at hx
    obtain ⟨status, final, hreply, -⟩ := Exchange.outcome_ok hout
    rw [hx, hreply] at hopen
    cases hopen
  | noConnections | noUrl | gaveUp | gaveUpLate => simp [Attempt.exchanges] at hx
  | interrupted hy =>
    simp only [Attempt.exchanges, List.flatMap_singleton, List.mem_singleton] at hx
    exact ⟨rfl, by rw [hx]⟩

/-- An exchange that does not fail is the last, and its body is the result. -/
theorem Account.keeps (h : c.Account world call left number earlier s r failed last late)
    {x : Exchange} {b : Bytes} (hx : x ∈ r.2.sentSince s) (hout : x.outcome = .ok b) :
    r.1 = .ok b ∧ (r.2.sentSince s).getLast? = some x := by
  have hanswers := Exchange.answers_of_ok hout
  rw [h.sent_eq, List.mem_append] at hx
  rcases hx with hx | hx
  · rw [(h.ended x hx).1] at hanswers
    cases hanswers
  rcases h.ends with ⟨-, hlast, -⟩ | ⟨-, hstop⟩
  · simp [hlast] at hx
  have hsent := h.sent_eq
  obtain ⟨r, after⟩ := r
  cases hstop with
  | answered hy hout' =>
    simp only [Attempt.exchanges, List.flatMap_singleton, List.mem_singleton] at hx hsent
    subst hx
    rw [hout] at hout'
    cases hout'
    exact ⟨rfl, by rw [hsent, List.getLast?_concat]⟩
  | noConnections | noUrl | gaveUp | gaveUpLate => simp [Attempt.exchanges] at hx
  | interrupted hy =>
    simp only [Attempt.exchanges, List.flatMap_singleton, List.mem_singleton] at hx
    have hopen := h.open_of_last _ rfl
    obtain ⟨status, final, hreply, -⟩ := Exchange.outcome_ok hout
    rw [← hx, hreply] at hopen
    cases hopen

/-- A request whose every attempt failed is exhausted. -/
theorem Account.exhausts (h : c.Account world call left number earlier s r failed last late)
    (htoken : c.carriesToken = true) (hfails : ∀ x ∈ r.2.overSince s, x.reply.fails = true)
    (hlen : (r.2.overSince s).length = left) :
    r.1 = .error (.retriesExhausted c.maxRetries (lastError earlier (r.2.overSince s))) ∧
      r.2.overSince s = failed := by
  have hover := h.over_eq htoken
  rcases h.ends with ⟨-, hlast, hr⟩ | ⟨hlt, hstop⟩
  · rw [hlast, List.flatMap_nil, List.filter_nil, List.append_nil] at hover
    rw [hover]
    exact ⟨hr, rfl⟩
  exfalso
  obtain ⟨r, after⟩ := r
  cases hstop with
  | @answered x b _ hout =>
    have hanswers := Exchange.answers_of_ok hout
    obtain ⟨status, final, hreply, -⟩ := Exchange.outcome_ok hout
    have hmem : x ∈ after.overSince s := by
      rw [hover]
      simp [Attempt.exchanges, hreply, Http.Reply.isOpen]
    rw [hfails x hmem] at hanswers
    cases hanswers
  | noConnections | noUrl | gaveUp | gaveUpLate =>
    simp only [Attempt.exchanges, List.flatMap_nil, List.flatMap_singleton, List.filter_nil,
      List.append_nil] at hover
    rw [hover] at hlen
    omega
  | interrupted =>
    have hopen := h.open_of_last _ rfl
    simp only [Attempt.exchanges, List.flatMap_singleton, List.filter_cons, hopen,
      Bool.not_true, Bool.false_eq_true, if_false, List.filter_nil, List.append_nil] at hover
    rw [hover] at hlen
    omega

end

end Client

/-! ## A request that finds its run cancelled -/

/-- A request that finds, when it goes on, that it has to give up ends there: as cancelled, if an
attempt is under way or could be made. It does nothing more. -/
theorem Ask.resume_up {a : Ask} {found : Session} (world : World)
    (hup : a.client.givesUp found = true) :
    (∀ call left number last, ∃ s, found.Did world [] [] s ∧
      a.resume world (.ready call (left + 1) number last, found) =
        (.finished (.error .cancelled), s)) ∧
    (∀ call left number conn url, ∃ s, found.Did world [] [] s ∧
      a.resume world (.holding call left number conn url, found) =
        (.finished (.error .cancelled), s)) ∧
    ∀ call number last, ∃ s, found.Did world [] [] s ∧
      a.resume world (.ready call 0 number last, found) =
        (.finished (.error (.retriesExhausted a.client.maxRetries last)), s) := by
  refine ⟨?_, ?_, ?_⟩
  · intro call left number last
    obtain ⟨s, hdid, he⟩ := a.finish_ends world (.error .cancelled) found
    refine ⟨s, hdid, ?_⟩
    simp only [resume, advance, Client.prepare_up world call number hup, he]
  · intro call left number conn url
    obtain ⟨s, hdid, he⟩ := a.finish_ends world (.error .cancelled) found
    refine ⟨s, hdid, ?_⟩
    simp only [resume, hup, if_true, he]
  · intro call number last
    have hgive := Session.did_log world found (.givenUp a.client.maxRetries call.method call.path)
    obtain ⟨s, hdid, he⟩ := a.finish_ends world
      (.error (.retriesExhausted a.client.maxRetries last)) (a.client.giveUp call last found).2
    exact ⟨s, hgive.after hdid, he⟩

namespace Client

/-- **A cancelled request leaves nothing half done.** If the run is cancelled while an exchange is
open, or in the pause before an attempt, the request ends there as cancelled, and the pool is as the
attempts before left it, but for the turn of a connection that was handed out. A request is cancelled
only with an attempt still to make or under way, all before it having failed and been counted. An
exchange that was answered gives the result, and one that fails last leaves the request exhausted,
even if the run is cancelled by then. If others cancel the run between the steps of a request, it
ends with the next of them, and tells the pool nothing of the attempt under way. -/
theorem cancels_cleanly (c : Client) (world : World) (method path : String)
    (params : Option Url.Params) (body : Option Body) (s : Session)
    (htoken : c.carriesToken = true) :
    let r := (c.request world method path params body s).1
    let after := (c.request world method path params body s).2
    let sent := after.sentSince s
    let ended := after.overSince s
    (∀ x ∈ sent, x.reply.isOpen = true →
      r = .error .cancelled ∧ sent = ended ++ [x] ∧ s.LeftOff after ended (some x.connection)) ∧
    (∀ k, 0 < k → c.backoff.isZero = false →
      world.cancels (.pause (s.journal.retries + k)) = true →
      s.journal.retries + k ≤ after.journal.retries →
      r = .error .cancelled ∧ sent = ended ∧ ended.length = k ∧ s.LeftOff after ended none) ∧
    (r = .error .cancelled →
      after.isCancelled = true ∧ ended.length < c.maxRetries ∧
        (∀ x ∈ ended, x.reply.fails = true) ∧
        after.journal.errors = s.journal.errors + ended.length + 1 ∧
        ∃ handed, s.LeftOff after ended handed) ∧
    (∀ x ∈ sent, ∀ status final b, x.reply = .answered status final (some b) → status < 500 →
      r = .ok b ∧ sent.getLast? = some x) ∧
    ((∃ payload, payloadOf body = .ok payload) → (∀ x ∈ ended, x.reply.fails = true) →
      ended.length = c.maxRetries →
      r = .error (.retriesExhausted c.maxRetries (lastError none ended)) ∧
        after.journal.errors = s.journal.errors + ended.length) ∧
    ∀ op found, c.givesUp found = true →
      let a : Ask := ⟨c, op, method, path, params, body⟩
      (∀ call left number last, ∃ s', found.Did world [] [] s' ∧
        a.resume world (.ready call (left + 1) number last, found) =
          (.finished (.error .cancelled), s')) ∧
      (∀ call left number conn url, ∃ s', found.Did world [] [] s' ∧
        a.resume world (.holding call left number conn url, found) =
          (.finished (.error .cancelled), s')) ∧
      ∀ call number last, ∃ s', found.Did world [] [] s' ∧
        a.resume world (.ready call 0 number last, found) =
          (.finished (.error (.retriesExhausted c.maxRetries last)), s') := by
  intro r after sent ended
  cases hbody : payloadOf body with
  | error e =>
    obtain ⟨hr, hdid⟩ : r = .error (.serialization e) ∧ s.Did world [] [] after :=
      requestAs_unencodable hbody
    have hsent : sent = [] := hdid.sentSince_eq
    have hretries : after.journal.retries = s.journal.retries := by
      have hcounts := conclude_counts c world .request method (.error (.serialization e)) s
      simp only [after, request, requestAs, dispatch, hbody]
      exact (Prod.mk.inj hcounts).2
    refine ⟨by simp [hsent], ?_, by simp [hr], by simp [hsent], by simp,
      fun op found hup => Ask.resume_up world hup⟩
    intro k hk _ _ hle
    omega
  | ok payload =>
    obtain ⟨failed, last, h⟩ : ∃ failed last, c.Account world
        ⟨.request, method, path, queryOf params, payload⟩ c.maxRetries 1 none s (r, after) failed last
        (lateErrors r) := requestAs_account world s hbody
    refine ⟨?_, ?_, ?_, ?_, ?_, fun op found hup => Ask.resume_up world hup⟩
    · intro x hx hopen
      obtain ⟨hr, rfl⟩ := h.breaks_off htoken hx hopen
      obtain ⟨-, hover, -⟩ := h.cancelled htoken hr
      have hran := h.ran
      rw [← hover] at hran
      refine ⟨hr, ?_, hran.leftOff_within rfl⟩
      rw [show ended = failed from hover]
      exact h.sent_eq
    · intro k hk hback hfire hle
      obtain ⟨hr, rfl, hk'⟩ := h.pause htoken hback _ hfire (by omega) hle
      have hover : ended = failed := (h.cancelled htoken hr).2.1
      have hsent : sent = failed := h.sent_eq.trans (List.append_nil _)
      have hlen : k = failed.length := by
        simpa [isRetry] using hk'
      rw [hover, hsent]
      exact ⟨hr, rfl, hlen.symm, h.ran.leftOff_between⟩
    · intro hr
      obtain ⟨hlt, hover, hleft⟩ := h.cancelled htoken hr
      have hup := h.up hr
      simp only [givesUp, Bool.and_eq_true] at hup
      have herrors := h.errors
      rw [show ended = failed from hover]
      refine ⟨hup.2, hlt, fun x hx => (h.ended x hx).1, ?_, hleft⟩
      simpa [hr, lateErrors, RequestError.isExhaustion] using herrors
    · intro x hx status final b hreply hstatus
      refine h.keeps hx ?_
      simp [Exchange.outcome, hreply, Nat.not_lt.mpr (Nat.le_of_lt_succ hstatus)]
    · intro _ hfails hlen
      obtain ⟨hr, hover⟩ := h.exhausts htoken hfails hlen
      have herrors := h.errors
      refine ⟨hr, ?_⟩
      rw [show ended = failed from hover]
      simpa [show r = _ from hr, lateErrors, RequestError.isExhaustion] using herrors

/-- No node can be reached, and the run is cancelled in the pause before the third attempt: the two
before it have failed, and no connection is handed out again. -/
theorem cancels_cleanly_paused :
    let c : Client := { patient with backoff := ⟨1⟩ }
    let world : World := ⟨.dead, (· == .pause 2)⟩
    let r := (c.request world "GET" "/_search" none none .twoNodes).1
    let after := (c.request world "GET" "/_search" none none .twoNodes).2
    c.carriesToken = true ∧ r = .error .cancelled ∧ (after.sentSince .twoNodes).length = 2 ∧
      Session.twoNodes.LeftOff after (after.sentSince .twoNodes) none ∧
      (∀ x ∈ after.sentSince .twoNodes, x.reply.fails = true) ∧ after.journal.errors = 3 := by
  intro c world r after
  have htoken : c.carriesToken = true := rfl
  obtain ⟨-, hpause, hcancelled, -⟩ :=
    cancels_cleanly c world "GET" "/_search" none none .twoNodes htoken
  obtain ⟨hr, hsent, hover, hleft⟩ :=
    hpause 2 (by decide) (by decide) (by decide) (by decide +kernel)
  obtain ⟨-, -, hfail, herrors, -⟩ := hcancelled hr
  have hafter : (c.request world "GET" "/_search" none none .twoNodes).2 = after := rfl
  rw [hafter] at hsent hover hleft hfail herrors
  rw [← hsent] at hover hleft hfail herrors
  rw [hover] at herrors
  exact ⟨htoken, hr, hover, hleft, hfail, herrors⟩

end Client

end ClusterOutput
