/-
A request taken apart where others may come between: it is handed a connection,
and tells the pool later what became of the exchange there. Its steps on end are
the request itself (`advance_alone`), and each does what `advance_moves` says.
-/
import ClusterOutput.Proofs.Client.Series
import Mathlib.Logic.Function.Iterate

namespace ClusterOutput

/-! ## The steps of a request -/

/-- Where a request stands between two of its steps. -/
inductive Stage where
  | asked
  /-- Before an attempt, `left` of which may be made. -/
  | ready (call : Client.Call) (left number : Nat) (last : Option RequestError)
  /-- Within an attempt: a connection was handed out for it, and nothing is marked. -/
  | holding (call : Client.Call) (left number : Nat) (conn : Connection) (url : Url)
  | finished (r : Except RequestError Bytes)

namespace Ask

/-- The last step of a request. -/
def finish (a : Ask) (world : World) (r : Except RequestError Bytes × Session) : Stage × Session :=
  let (r, s) := a.client.conclude world a.operation a.method r
  (.finished r, s)

/-- One step of a request. -/
def advance (a : Ask) (world : World) : Stage × Session → Stage × Session
  | (.asked, s) =>
    match Client.payloadOf a.body with
    | .error e => a.finish world (.error (.serialization e), s)
    | .ok payload => (.ready (a.call payload) a.client.maxRetries 1 none, s)
  | (.ready call 0 _ last, s) => a.finish world (a.client.giveUp call last s)
  | (.ready call (left + 1) number _, s) =>
    match a.client.prepare world call number s with
    | (.error e, s) => a.finish world (.error e, s)
    | (.ok (conn, url), s) => (.holding call left number conn url, s)
  | (.holding call left number conn url, s) =>
    match a.client.tryOn world call number conn url s with
    | (.ok bytes, s) => a.finish world (.ok bytes, s)
    | (.error .cancelled, s) => a.finish world (.error .cancelled, s)
    | (.error e, s) => (.ready call left (number + 1) (some e), s)
  | (.finished r, s) => (.finished r, s)

theorem advance_finish (a : Ask) (world : World) (r : Except RequestError Bytes × Session) (n : Nat) :
    (a.advance world)^[n] (a.finish world r) = a.finish world r :=
  Function.iterate_fixed rfl n

theorem advance_attempts (a : Ask) (world : World) (call : Client.Call) (left number : Nat)
    (last : Option RequestError) (s : Session) :
    (a.advance world)^[2 * left + 1] (.ready call left number last, s) =
      a.finish world (a.client.attempts world call left number last s) := by
  induction left generalizing number last s with
  | zero => rfl
  | succ left ih =>
    rw [Nat.mul_succ, Nat.add_right_comm, Function.iterate_succ_apply, Client.attempts]
    cases hprep : a.client.prepare world call number s with
    | mk r s₁ =>
    cases r with
    | error e =>
      simp only [advance, hprep]
      exact advance_finish a world _ _
    | ok aim =>
      obtain ⟨conn, url⟩ := aim
      simp only [advance, hprep]
      rw [Function.iterate_succ_apply]
      cases htry : a.client.tryOn world call number conn url s₁ with
      | mk r s₂ =>
      cases r with
      | ok bytes =>
        simp only [advance, htry]
        exact advance_finish a world _ _
      | error e =>
        cases e with
        | cancelled =>
          simp only [advance, htry]
          exact advance_finish a world _ _
        | _ =>
          simp only [advance, htry]
          exact ih _ _ _

/-- The steps of a request with nothing between them are the request. -/
theorem advance_alone (a : Ask) (world : World) (s : Session) :
    (a.advance world)^[2 * a.client.maxRetries + 2] (.asked, s) =
      (.finished (a.serve world s).1, (a.serve world s).2) := by
  rw [Function.iterate_succ_apply]
  simp only [advance, serve, Client.requestAs, Client.dispatch]
  cases Client.payloadOf a.body with
  | error e => exact advance_finish a world _ _
  | ok payload => exact advance_attempts a world (a.call payload) _ _ _ _

/-! ## What a step does -/

/-- What one step does, from each stage. -/
inductive Moves (a : Ask) (world : World) (s : Session) : Stage → Stage × Session → Prop
  | encoded {payload : Option Bytes} (hbody : Client.payloadOf a.body = .ok payload) :
    Moves a world s .asked (.ready (a.call payload) a.client.maxRetries 1 none, s)
  | unencodable {e : Json.Error} {s' : Session} (hbody : Client.payloadOf a.body = .error e)
    (hdid : s.Did world [] [] s') :
    Moves a world s .asked (.finished (.error (.serialization e)), s')
  | spent {call : Client.Call} {number : Nat} {last : Option RequestError} {s' : Session}
    (hdid : s.Did world [] [] s') :
    Moves a world s (.ready call 0 number last)
      (.finished (.error (.retriesExhausted a.client.maxRetries last)), s')
  | stopped {call : Client.Call} {left number : Nat} {last : Option RequestError}
    {e : RequestError} {s₁ s' : Session}
    (hprep : Client.Prepared a.client world call s (.error e, s₁)) (hdid : s₁.Did world [] [] s') :
    Moves a world s (.ready call (left + 1) number last) (.finished (.error e), s')
  | took {call : Client.Call} {left number : Nat} {last : Option RequestError}
    {conn : Connection} {url : Url} {s' : Session} (hdid : s.Did world [.taken conn] [] s') :
    Moves a world s (.ready call (left + 1) number last) (.holding call left number conn url, s')
  | answered {call : Client.Call} {left number : Nat} {conn : Connection} {url : Url}
    {x : Exchange} {b : Bytes} {s' : Session} (hx : x.connection = conn)
    (hanswers : x.reply.fails = false) (hdid : s.Did world [.markedLive conn] [x] s') :
    Moves a world s (.holding call left number conn url) (.finished (.ok b), s')
  | failed {call : Client.Call} {left number : Nat} {conn : Connection} {url : Url}
    {x : Exchange} {e : RequestError} {s' : Session} (hx : x.connection = conn)
    (hover : (a.client.carriesToken && x.reply.isOpen) = false)
    (hfails : x.reply.fails = true) (hdid : s.Did world [.markedDead conn] [x] s') :
    Moves a world s (.holding call left number conn url)
      (.ready call left (number + 1) (some e), s')
  | interrupted {call : Client.Call} {left number : Nat} {conn : Connection} {url : Url}
    {x : Exchange} {s' : Session} (hx : x.connection = conn) (hopen : x.reply.isOpen = true)
    (hdid : s.Did world [] [x] s') (hup : a.client.givesUp s' = true) :
    Moves a world s (.holding call left number conn url) (.finished (.error .cancelled), s')
  | rested {r : Except RequestError Bytes} : Moves a world s (.finished r) (.finished r, s)

/-- The last step brings the result about, and does nothing else. -/
theorem finish_ends (a : Ask) (world : World) (r : Except RequestError Bytes) (s : Session) :
    ∃ s', s.Did world [] [] s' ∧ a.finish world (r, s) = (.finished r, s') := by
  obtain ⟨hr, hdid⟩ := Client.conclude_ends a.client world a.operation a.method r s
  exact ⟨_, hdid, by simp only [finish, hr]⟩

theorem advance_moves (a : Ask) (world : World) (stage : Stage) (s : Session) :
    a.Moves world s stage (a.advance world (stage, s)) := by
  cases stage with
  | asked =>
    simp only [advance]
    cases hbody : Client.payloadOf a.body with
    | error e =>
      obtain ⟨s', hdid, he⟩ := a.finish_ends world (.error (.serialization e)) s
      simp only [he]
      exact .unencodable hbody hdid
    | ok payload => exact .encoded hbody
  | ready call left number last =>
    cases left with
    | zero =>
      have hgive := Session.did_log world s (.givenUp a.client.maxRetries call.method call.path)
      obtain ⟨s', hdid, he⟩ := a.finish_ends world
        (.error (.retriesExhausted a.client.maxRetries last)) (a.client.giveUp call last s).2
      have he' : a.advance world (.ready call 0 number last, s) = _ := he
      rw [he']
      exact .spent (hgive.after hdid)
    | succ left =>
      have hprep := Client.prepare_ends a.client world call number s
      simp only [advance]
      generalize a.client.prepare world call number s = r at hprep ⊢
      obtain ⟨r, s₁⟩ := r
      cases r with
      | error e =>
        obtain ⟨s', hdid, he⟩ := a.finish_ends world (.error e) s₁
        simp only [he]
        exact .stopped hprep hdid
      | ok aim =>
        cases hprep with
        | aimed htarget hdid => exact .took hdid
  | holding call left number conn url =>
    have htry := Client.tryOn_ends a.client world call number conn url s
    simp only [advance]
    generalize a.client.tryOn world call number conn url s = r at htry ⊢
    cases htry with
    | @interrupted x s₁ hx hopen hdid hwatched hs₁ =>
      obtain ⟨s', hdid', he⟩ := a.finish_ends world (.error .cancelled) s₁
      simp only [he]
      refine .interrupted hx.connection_eq hopen (hdid.before hdid') (Client.givesUp_mono hdid' ?_)
      simp [Client.givesUp, hwatched, hs₁]
    | @completed x s₁ hx hover hdid =>
      rw [Exchange.mark, hx.connection_eq] at hdid
      cases hout : x.outcome with
      | ok b =>
        have hanswers := Exchange.answers_of_ok hout
        obtain ⟨s', hdid', he⟩ := a.finish_ends world (.ok b) s₁
        simp only [he]
        rw [hanswers] at hdid
        exact .answered hx.connection_eq hanswers (hdid.before hdid')
      | error e =>
        have hfails := (Exchange.fails_of_error hout).1
        have hne := Exchange.ne_cancelled hout
        rw [hfails] at hdid
        cases e with
        | cancelled => exact absurd rfl hne
        | _ => exact .failed hx.connection_eq hover hfails hdid
  | finished r => exact .rested

theorem Moves.did {a : Ask} {world : World} {s : Session} {stage : Stage} {r : Stage × Session}
    (h : a.Moves world s stage r) : ∃ steps sent, s.Did world steps sent r.2 := by
  cases h with
  | encoded | rested => exact ⟨_, _, .refl world s⟩
  | stopped hprep hdid =>
    cases hprep with
    | noConnections _ h | noUrl _ h | gaveUp h | gaveUpLate h => exact ⟨_, _, h.trans hdid⟩
  | unencodable _ hdid | spent hdid | took hdid | answered _ _ hdid | failed _ _ _ hdid
  | interrupted _ _ hdid => exact ⟨_, _, hdid⟩

end Ask

end ClusterOutput
