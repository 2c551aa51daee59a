/-
How a request ends. As long as its client does not have to give up, that is
decided by the body, the pool, the URLs and the outcomes of the exchanges alone
(`request_ends`): it is answered by the first exchange that does not fail, or
has made all its attempts in vain, or it stops at what no other attempt could
mend.
-/
import ClusterOutput.Proofs.Client.Course

namespace ClusterOutput.Client

/-- The ways in which a request ends that is not cancelled. -/
inductive Ending where
  | unencodable
  | answered
  | exhausted
  | noConnections
  | noUrl
  deriving DecidableEq

/-- What each way to end says of the request: of its result, of the exchanges since it began, and
of the pool. -/
inductive EndsBy (c : Client) (path : String) (params : Option Url.Params) (body : Option Body)
    (s after : Session) : Ending → Except RequestError Bytes → Prop
  /-- The body has no encoding, and nothing is done. -/
  | unencodable {e : Json.Error} (hbody : payloadOf body = .error e)
    (hsent : after.sentSince s = []) (hpool : after.pool = s.pool) :
    EndsBy c path params body s after .unencodable (.error (.serialization e))
  /-- All exchanges but the last failed, and the result is the body of the last. -/
  | answered {payload : Option Bytes} {failed : List Exchange} {x : Exchange} {status : Nat}
    {final : Url} {b : Bytes} (hbody : payloadOf body = .ok payload)
    (hsent : after.sentSince s = failed ++ [x]) (hlen : failed.length + 1 ≤ c.maxRetries)
    (hfailed : ∀ y ∈ failed, y.reply.fails = true)
    (hx : x.reply = .answered status final (some b)) (hstatus : status < 500) :
    EndsBy c path params body s after .answered (.ok b)
  /-- As many exchanges as may be made were made, and all failed. -/
  | exhausted {payload : Option Bytes} {last : Option RequestError}
    (hbody : payloadOf body = .ok payload)
    (hlen : (after.sentSince s).length = c.maxRetries)
    (hfailed : ∀ y ∈ after.sentSince s, y.reply.fails = true)
    (hnone : last = none ↔ c.maxRetries = 0)
    (hlast : ∀ e, last = some e → e.isTransient = true ∧ e.isExhaustion = false ∧
      ∃ x, (after.sentSince s).getLast? = some x ∧ x.outcome = .error e) :
    EndsBy c path params body s after .exhausted (.error (.retriesExhausted c.maxRetries last))
  /-- There was an attempt to make, but no connection to make it on. -/
  | noConnections {payload : Option Bytes} (hbody : payloadOf body = .ok payload)
    (hlen : 1 ≤ c.maxRetries) (hempty : s.pool.slots = []) (hsent : after.sentSince s = [])
    (hpool : after.pool = s.pool) :
    EndsBy c path params body s after .noConnections (.error .noConnections)
  /-- After exchanges that failed, a connection was handed out whose URL makes none with the
  path. -/
  | noUrl {payload : Option Bytes} {conn : Connection} {message : String}
    (hbody : payloadOf body = .ok payload)
    (hlen : (after.sentSince s).length < c.maxRetries)
    (hfailed : ∀ y ∈ after.sentSince s, y.reply.fails = true)
    (htaken : (after.stepsSince s).getLast? = some (.taken conn))
    (htarget : target conn.url path (queryOf params) = .error (.invalidUrl message)) :
    EndsBy c path params body s after .noUrl (.error (.invalidUrl message))

variable {c : Client} {world : World} {path : String} {params : Option Url.Params}
  {body : Option Body} {s after : Session}

theorem EndsBy.unique {e e' : Ending} {r : Except RequestError Bytes}
    (h : EndsBy c path params body s after e r) (h' : EndsBy c path params body s after e' r) :
    e = e' := by
  cases h <;> cases h' <;> rfl

/-- The error that exhausted a request is that of its last exchange. -/
theorem lastError_spec {call : Call} {failed : List Exchange}
    (hfailed : ∀ x ∈ failed, call.Makes x ∧ x.reply.fails = true) :
    (lastError none failed = none ↔ failed.length = 0) ∧
      ∀ e, lastError none failed = some e → e.isTransient = true ∧ e.isExhaustion = false ∧
        ∃ x, failed.getLast? = some x ∧ x.outcome = .error e := by
  cases hl : failed.getLast? with
  | none =>
    obtain rfl := List.getLast?_eq_none_iff.mp hl
    simp [lastError]
  | some x =>
    have hmem : x ∈ failed := List.mem_of_getLast? hl
    have hne : failed ≠ [] := List.ne_nil_of_mem hmem
    cases hout : x.outcome with
    | ok b => exact absurd (hfailed x hmem).2 (by simp [Exchange.answers_of_ok hout])
    | error e =>
      have htr := (Exchange.fails_of_error hout).2
      have hex : e.isExhaustion = false := by
        cases e <;> first | rfl | cases htr
      simp only [lastError, hl, hout]
      refine ⟨by simp [hne], ?_⟩
      rintro _ ⟨⟩
      exact ⟨htr, hex, x, rfl, hout⟩

/-- A pool without connections hands out none. -/
theorem ran_empty {hist : List Attempt} (hempty : s.pool.slots = [])
    (hran : s.Ran world hist after) : hist = [] := by
  cases hist with
  | nil => rfl
  | cons a hist =>
    obtain ⟨conn, steps, hsteps⟩ : ∃ conn steps, (a :: hist).flatMap Attempt.steps =
        .taken conn :: steps := by
      cases a <;> exact ⟨_, _, rfl⟩
    have hpool := hran.pool
    rw [hsteps] at hpool
    obtain ⟨q, htake, -⟩ := Pool.replay_cons.mp hpool
    have hmem := Pool.takes_mem (Pool.takes_of_take? (Pool.follow_taken.mp htake))
    simp [Pool.connections, hempty] at hmem

/-- An attempted request finds no connection exactly where there is none. -/
theorem noConnections_iff {call : Call} {last : Option RequestError} {hist : List Attempt}
    {r : Except RequestError Bytes} (hran : s.Ran world hist after)
    (hcourse : Course c call c.maxRetries last hist r) (hcancel : r ≠ .error .cancelled)
    (hempty : r = .error .noConnections → s.pool.slots = []) :
    r = .error .noConnections ↔ 1 ≤ c.maxRetries ∧ s.pool.slots = [] := by
  constructor
  · rintro rfl
    refine ⟨?_, hempty rfl⟩
    obtain ⟨failed, tail, -, -, ⟨-, -, hr⟩ | ⟨hlt, -⟩⟩ := hcourse.split
    · cases hr
    · omega
  · rintro ⟨hlen, hslots⟩
    obtain rfl := ran_empty hslots hran
    generalize c.maxRetries = n at hcourse hlen
    cases hcourse with
    | spent => omega
    | stops hstop =>
      cases hstop with
      | noConnections => rfl
      | gaveUp => exact absurd rfl hcancel

theorem endsBy_of_course {method : String} {op : Operation} {payload : Option Bytes}
    {hist : List Attempt} {r : Except RequestError Bytes} (hbody : payloadOf body = .ok payload)
    (hran : s.Ran world hist after)
    (hcourse : Course c ⟨op, method, path, queryOf params, payload⟩ c.maxRetries none hist r)
    (hcancel : r ≠ .error .cancelled) (hempty : r = .error .noConnections → s.pool.slots = []) :
    ∃ e, EndsBy c path params body s after e r := by
  have hsteps := hran.stepsSince_eq
  have hsent := hran.sentSince_eq
  obtain ⟨failed, tail, rfl, hfailed, hend⟩ := hcourse.split
  rw [List.flatMap_append, exchanges_completed] at hsent
  have hfails : ∀ y ∈ failed, y.reply.fails = true := fun y hy => (hfailed y hy).2
  rcases hend with ⟨hlen, rfl, rfl⟩ | ⟨hlt, hstop⟩
  · rw [List.flatMap_nil, List.append_nil] at hsent
    obtain ⟨hnone, hlast⟩ := lastError_spec hfailed
    refine ⟨_, .exhausted hbody (hsent ▸ hlen) (hsent ▸ hfails) (hlen ▸ hnone) ?_⟩
    rw [hsent]
    exact hlast
  · cases hstop with
    | answered hx hout =>
      obtain ⟨status, final, hreply, hstatus⟩ := Exchange.outcome_ok hout
      exact ⟨_, .answered hbody hsent (by omega) hfails hreply hstatus⟩
    | noConnections =>
      have hnil := ran_empty (hempty rfl) hran
      rw [hnil] at hran
      have hpool := hran.pool
      refine ⟨_, .noConnections hbody (by omega) (hempty rfl) ?_ ?_⟩
      · exact hran.sentSince_eq
      · exact (Option.some.inj hpool).symm
    | @noUrl conn message htarget =>
      rw [show [Attempt.unsent conn].flatMap Attempt.exchanges = [] from rfl, List.append_nil] at hsent
      rw [← hsent] at hlt hfails
      refine ⟨_, .noUrl hbody hlt hfails ?_ htarget⟩
      rw [hsteps, List.flatMap_append]
      exact List.getLast?_concat
    | gaveUp => exact absurd rfl hcancel
    | gaveUpLate => exact absurd rfl hcancel
    | interrupted hx => exact absurd rfl hcancel

/-- **How a request ends** for a client that does not have to give up: in exactly one of the ways,
the exchanges being those that the network carried. It ends for want of an encoding exactly
where the body has none, and for want of a connection exactly where an attempt may be made on a
body that has one and the pool is empty. -/
theorem request_ends (c : Client) (world : World) (method path : String)
    (params : Option Url.Params) (body : Option Body) (s : Session)
    (htoken : c.givesUp (c.request world method path params body s).2 = false) :
    let r := (c.request world method path params body s).1
    let after := (c.request world method path params body s).2
    world.network.Carries s.journal.wire (after.sentSince s) after.journal.wire ∧
      (∃! e, EndsBy c path params body s after e r) ∧
      ((∃ e, r = .error (.serialization e)) ↔ ∃ e, payloadOf body = .error e) ∧
      (r = .error .noConnections ↔
        (∃ payload, payloadOf body = .ok payload) ∧ 1 ≤ c.maxRetries ∧ s.pool.slots = []) := by
  intro r after
  cases hbody : payloadOf body with
  | error e =>
    obtain ⟨hr, hdid⟩ : r = .error (.serialization e) ∧ s.Did world [] [] after :=
      requestAs_unencodable hbody
    have hends : EndsBy c path params body s after .unencodable r := by
      rw [hr]
      exact .unencodable hbody hdid.sentSince_eq (Option.some.inj hdid.pool).symm
    refine ⟨?_, ⟨_, hends, fun e' he' => he'.unique hends⟩, by simp [hr], by simp [hr]⟩
    rw [hdid.sentSince_eq]
    exact hdid.wire
  | ok payload =>
    obtain ⟨hist, hran, hcourse, hup, hempty⟩ :
        c.Goes world ⟨.request, method, path, queryOf params, payload⟩ c.maxRetries none s
          (r, after) := requestAs_course hbody
    have hcancel : r ≠ .error .cancelled := fun h => by
      rw [hup h] at htoken
      cases htoken
    obtain ⟨e, hends⟩ := endsBy_of_course hbody hran hcourse hcancel hempty
    refine ⟨?_, ⟨e, hends, fun e' he' => he'.unique hends⟩, ?_, ?_⟩
    · rw [hran.sentSince_eq]
      exact hran.wire
    · have hne : ∀ e', r ≠ .error (.serialization e') := fun e' he' => by
        rw [he'] at hends
        cases hends with
        | unencodable herr => rw [hbody] at herr; cases herr
      simpa using hne
    · rw [noConnections_iff hran hcourse hcancel hempty]
      simp

/-- Of two nodes the first is down: the request is answered all the same. -/
theorem request_ends_halfDown :
    let r := patient.request .halfDown "GET" "/_search" none none .twoNodes
    patient.givesUp r.2 = false ∧
      ∃! e, EndsBy patient "/_search" none none .twoNodes r.2 e r.1 := by
  have htoken : patient.givesUp
      (patient.request .halfDown "GET" "/_search" none none .twoNodes).2 = false := by
    decide +kernel
  exact ⟨htoken, (request_ends patient .halfDown "GET" "/_search" none none .twoNodes htoken).2.1⟩

end ClusterOutput.Client
