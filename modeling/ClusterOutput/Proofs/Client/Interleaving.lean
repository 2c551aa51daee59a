/-
Requests that share a pool, in any interleaving of their steps. On steady
connections no request attempts a bad one twice, however many requests there are
and whoever's turn it is (`run_answers`): what one of them has marked dead
stands behind every good connection for all of them.
-/
import ClusterOutput.Proofs.Client.Steps
import ClusterOutput.Proofs.Pool.Failover
import Mathlib.Data.List.Induction

namespace ClusterOutput

/-! ## Requests that take steps in turn -/

/-- The connection of the attempt that is under way. -/
def Stage.held : Stage → List Connection
  | holding _ _ _ conn _ => [conn]
  | asked | ready .. | finished _ => []

/-- A request under way, and the connections of all its attempts so far. -/
structure Runner where
  ask : Ask
  stage : Stage
  tried : List Connection

/-- Requests under way in one session. -/
structure Crowd where
  session : Session
  runners : List Runner

namespace Crowd

/-- Requests of which none has begun. -/
def gather (s : Session) (asks : List Ask) : Crowd := ⟨s, asks.map fun a => ⟨a, .asked, []⟩⟩

/-- The request at a place makes its next step. -/
def step (world : World) (w : Crowd) (i : Nat) : Crowd :=
  match w.runners[i]? with
  | none => w
  | some r =>
    let (stage, s) := r.ask.advance world (r.stage, w.session)
    ⟨s, w.runners.set i ⟨r.ask, stage, r.tried ++ stage.held⟩⟩

/-- Requests make steps, the one at the next place of the schedule each time. -/
def run (world : World) (w : Crowd) (schedule : List Nat) : Crowd := schedule.foldl (step world) w

variable {good : Connection → Bool} {mark : UInt64} {p q : Pool} {steps : List PoolStep}

/-- What a request has come to after so many steps of its own: all connections it has failed on
are different ones, and spent for all requests. -/
inductive Stands (good : Connection → Bool) (mark : UInt64) (p : Pool) (a : Ask) :
    (turns : Nat) → Stage → (tried : List Connection) → Prop
  | asked : Stands good mark p a 0 .asked []
  | ready {payload : Option Bytes} {left number : Nat} {last : Option RequestError}
    {cs : List Connection} (hcs : Pool.Tried good mark p cs)
    (hlen : cs.length + left = a.client.maxRetries) :
    Stands good mark p a (2 * cs.length + 1) (.ready (a.call payload) left number last) cs
  | holding {payload : Option Bytes} {left number : Nat} {conn : Connection} {url : Url}
    {cs : List Connection} (hcs : Pool.Tried good mark p cs) (hmem : conn ∈ p.connections)
    (hnew : conn ∉ cs) (hlen : cs.length + 1 + left = a.client.maxRetries) :
    Stands good mark p a (2 * cs.length + 2) (.holding (a.call payload) left number conn url)
      (cs ++ [conn])
  | answered {turns : Nat} {b : Bytes} {conn : Connection} {cs : List Connection}
    (hcs : Pool.Tried good mark p cs) (hconn : good conn = true) :
    Stands good mark p a turns (.finished (.ok b)) (cs ++ [conn])
  | exhausted {turns : Nat} {e : RequestError} {cs : List Connection}
    (hcs : Pool.Tried good mark p cs) (hlen : cs.length = a.client.maxRetries) :
    Stands good mark p a turns (.finished (.error e)) cs

variable {a : Ask} {turns : Nat} {stage : Stage} {tried : List Connection} {world : World}
  {s : Session}

/-- What a request has come to is not changed by what others do. -/
theorem Stands.replay (h : Stands good mark p a turns stage tried) (hp : Pool.Failover good mark p)
    (hfit : ∀ x ∈ steps, Pool.Fits good p.connections x) (hroom : p.HasRoom steps)
    (hr : p.replay steps = some q) : Stands good mark q a turns stage tried := by
  cases h with
  | asked => exact .asked
  | ready hcs hlen => exact .ready (hcs.replay hp hfit hroom hr) hlen
  | holding hcs hmem hnew hlen =>
    exact .holding (hcs.replay hp hfit hroom hr) (Pool.replay_connections hr ▸ hmem) hnew hlen
  | answered hcs hconn => exact .answered (hcs.replay hp hfit hroom hr) hconn
  | exhausted hcs hlen => exact .exhausted (hcs.replay hp hfit hroom hr) hlen

/-- A step of a request on steady connections, and what the request has come to behind it. -/
theorem Stands.advance (h : Stands good mark s.pool a turns stage tried)
    (hp : Pool.Failover good mark s.pool) (hgood : ∃ d ∈ s.pool.connections, good d = true)
    {r : Stage × Session} (hmove : a.Moves world s stage r) (hsteady : Steady good [a] s r.2)
    (hroom : s.pool.HasRoom (r.2.stepsSince s)) :
    ∃ steps sent, s.Did world steps sent r.2 ∧
      (∀ x ∈ steps, Pool.Fits good s.pool.connections x) ∧
      Stands good mark r.2.pool a (turns + 1) r.1 (tried ++ r.1.held) := by
  cases hmove with
  | encoded hbody =>
    cases h with
    | asked => exact ⟨[], [], .refl world s, by simp, .ready (.nil good mark _) (Nat.zero_add _)⟩
  | @unencodable e s' hbody hdid =>
    obtain ⟨payload, hbody'⟩ := hsteady.encodes a (by simp)
    rw [hbody'] at hbody
    cases hbody
  | @spent call number last s' hdid =>
    cases h with
    | ready hcs hlen =>
      have hcs' := hcs.replay hp (by simp) (hdid.stepsSince_eq ▸ hroom) hdid.pool
      exact ⟨[], [], hdid, by simp, by simpa [Stage.held] using .exhausted hcs' hlen⟩
  | stopped hprep hdid =>
    cases h with
    | ready hcs hlen =>
      cases hprep with
      | noConnections hempty => exact absurd hempty (Pool.slots_ne_nil hgood)
      | noUrl htarget hdid₁ =>
        have hmem := Pool.replay_taken_mem hdid₁.pool (List.mem_singleton_self _)
        exact absurd htarget (hsteady.target_ne (by simp) hmem _ _)
      | gaveUp _ hup | gaveUpLate _ hup =>
        have := Client.givesUp_mono hdid hup
        rw [hsteady.token a (by simp)] at this
        cases this
  | @took _ _ _ _ conn _ s' hdid =>
    cases h with
    | ready hcs hlen =>
      rw [hdid.stepsSince_eq] at hroom
      have hfit : ∀ x ∈ [.taken conn], Pool.Fits good s.pool.connections x := by simp [Pool.Fits]
      -- those that were tried are spent, so this is none of them
      obtain ⟨-, hcs', hmem, hnew⟩ := hcs.taken hp hgood hroom hdid.pool
      exact ⟨_, _, hdid, hfit, .holding hcs' hmem hnew (by omega)⟩
  | @answered _ _ _ conn _ x b s' hx hanswers hdid =>
    cases h with
    | holding hcs hmem hnew hlen =>
      rw [hdid.stepsSince_eq] at hroom
      have hconn : good conn = true := by
        have := hsteady.outcomes x (by simp [hdid.sentSince_eq])
        simpa [hanswers, hx] using this
      have hfit : ∀ x ∈ [.markedLive conn], Pool.Fits good s.pool.connections x := by
        simp [Pool.Fits, hmem, hconn]
      refine ⟨_, _, hdid, hfit, ?_⟩
      rw [Stage.held, List.append_nil]
      exact .answered (hcs.replay hp hfit hroom hdid.pool) hconn
  | @failed _ _ _ conn _ x e s' hx _ hfails hdid =>
    cases h with
    | @holding _ _ _ _ _ cs hcs hmem hnew hlen =>
      rw [hdid.stepsSince_eq] at hroom
      have hbad : good conn = false := by
        have := hsteady.outcomes x (by simp [hdid.sentSince_eq])
        simpa [hfails, hx] using this
      have hfit : ∀ x ∈ [.markedDead conn], Pool.Fits good s.pool.connections x := by
        simp [Pool.Fits, hmem, hbad]
      have hpool : s.pool.markDead conn = s'.pool :=
        Option.some.inj (Pool.replay_singleton.symm.trans hdid.pool)
      have hcs' : Pool.Tried good mark s'.pool (cs ++ [conn]) :=
        hpool ▸ hcs.failed hp hmem hbad hnew hroom
      have hturns : 2 * (cs ++ [conn]).length + 1 = 2 * cs.length + 2 + 1 := by simp; omega
      refine ⟨_, _, hdid, hfit, ?_⟩
      rw [Stage.held, List.append_nil, ← hturns]
      exact .ready hcs' (by simp; omega)
  | interrupted _ _ _ hup =>
    rw [hsteady.token a (by simp)] at hup
    cases hup
  | rested =>
    refine ⟨[], [], .refl world s, by simp, ?_⟩
    rw [Stage.held, List.append_nil]
    cases h with
    | answered hcs hconn => exact .answered hcs hconn
    | exhausted hcs hlen => exact .exhausted hcs hlen

/-! ## Whole schedules -/

variable {w : Crowd} {i : Nat} {asks : List Ask}

theorem step_none (h : w.runners[i]? = none) : w.step world i = w := by
  simp only [step, h]

theorem step_some {r : Runner} (h : w.runners[i]? = some r) :
    w.step world i =
      ⟨(r.ask.advance world (r.stage, w.session)).2,
        w.runners.set i ⟨r.ask, (r.ask.advance world (r.stage, w.session)).1,
          r.tried ++ (r.ask.advance world (r.stage, w.session)).1.held⟩⟩ := by
  simp only [step, h]

theorem step_did (world : World) (w : Crowd) (i : Nat) :
    ∃ steps sent, w.session.Did world steps sent (w.step world i).session := by
  cases h : w.runners[i]? with
  | none => exact ⟨[], [], by rw [step_none h]; exact .refl world _⟩
  | some r =>
    rw [step_some h]
    exact (r.ask.advance_moves world r.stage w.session).did

theorem run_concat (world : World) (w : Crowd) (schedule : List Nat) (i : Nat) :
    w.run world (schedule ++ [i]) = (w.run world schedule).step world i := by
  simp [run]

theorem run_did (world : World) (w : Crowd) (schedule : List Nat) :
    ∃ steps sent, w.session.Did world steps sent (w.run world schedule).session := by
  induction schedule using List.reverseRecOn with
  | nil => exact ⟨[], [], .refl world _⟩
  | append_singleton schedule i ih =>
    rw [run_concat]
    obtain ⟨_, _, h₁⟩ := ih
    obtain ⟨_, _, h₂⟩ := step_did world (w.run world schedule) i
    exact ⟨_, _, h₁.trans h₂⟩

/-- What holds of requests on steady connections after any steps: each of them has come to something. -/
structure Sound (good : Connection → Bool) (mark : UInt64) (asks : List Ask) (schedule : List Nat)
    (w : Crowd) : Prop where
  asks_eq : w.runners.map (·.ask) = asks
  failover : w.session.pool.Failover good mark
  stands : ∀ i r, w.runners[i]? = some r →
    Stands good mark w.session.pool r.ask (schedule.count i) r.stage r.tried

theorem Sound.step {schedule : List Nat} (h : Sound good mark asks schedule w)
    (hgood : ∃ d ∈ w.session.pool.connections, good d = true) (i : Nat)
    (hsteady : Steady good asks w.session (w.step world i).session)
    (hroom : w.session.pool.HasRoom ((w.step world i).session.stepsSince w.session)) :
    Sound good mark asks (schedule ++ [i]) (w.step world i) := by
  cases hi : w.runners[i]? with
  | none =>
    rw [step_none hi]
    refine ⟨h.asks_eq, h.failover, fun j r hj => ?_⟩
    have hne : i ≠ j := fun he => by
      rw [he, hj] at hi
      cases hi
    simpa [List.count_append, List.count_singleton, hne] using h.stands j r hj
  | some r =>
    have hmem : r.ask ∈ asks := h.asks_eq ▸ List.mem_map_of_mem (List.mem_of_getElem? hi)
    have hmove := r.ask.advance_moves world r.stage w.session
    rw [step_some hi] at hsteady hroom ⊢
    generalize r.ask.advance world (r.stage, w.session) = t at hmove hsteady hroom ⊢
    obtain ⟨_, _, hdid⟩ := hmove.did
    have hone : Steady good [r.ask] w.session t.2 :=
      hsteady.left (by simpa using hmem) hdid (.refl world _)
    obtain ⟨steps, sent, hdid, hfit, hstands⟩ :=
      (h.stands i r hi).advance h.failover hgood hmove hone hroom
    rw [hdid.stepsSince_eq] at hroom
    refine ⟨?_, h.failover.replay hfit hroom hdid.pool, fun j r' hj => ?_⟩
    · obtain ⟨hlt, rfl⟩ := List.getElem?_eq_some_iff.mp hi
      have hset : (w.runners.map (·.ask)).set i _ = _ := List.set_getElem_self (by simpa using hlt)
      rw [List.getElem_map] at hset
      rw [List.map_set, hset, h.asks_eq]
    · by_cases hij : i = j
      · subst hij
        obtain ⟨hlt, -⟩ := List.getElem?_eq_some_iff.mp hi
        rw [List.getElem?_set_self hlt] at hj
        cases hj
        simpa [List.count_append, List.count_singleton] using hstands
      · rw [List.getElem?_set_ne hij] at hj
        have hothers := (h.stands j r' hj).replay h.failover hfit hroom hdid.pool
        simpa [List.count_append, List.count_singleton, hij] using hothers

/-- As long as connections are steady, what holds of the requests at first holds after any steps. -/
theorem run_sound (schedule : List Nat) (hreach : s.pool.Reachable)
    (hgood : ∃ d ∈ s.pool.connections, good d = true)
    (hsteady : Steady good asks s ((gather s asks).run world schedule).session)
    (hroom : s.pool.HasRoom (((gather s asks).run world schedule).session.stepsSince s)) :
    Sound good s.pool.nextDeadOrder asks schedule ((gather s asks).run world schedule) := by
  induction schedule using List.reverseRecOn with
  | nil =>
    refine ⟨(List.map_map ..).trans (List.map_id asks), hreach.wellFormed.failover good,
      fun i r hi => ?_⟩
    simp only [gather, run, List.foldl_nil, List.getElem?_map, Option.map_eq_some_iff] at hi
    obtain ⟨a, -, rfl⟩ := hi
    exact .asked
  | append_singleton schedule i ih =>
    -- connections that are steady until the end were so until the last step, and at it
    obtain ⟨_, _, h₁⟩ := run_did world (gather s asks) schedule
    obtain ⟨_, _, h₂⟩ := step_did world ((gather s asks).run world schedule) i
    rw [run_concat] at hsteady hroom ⊢
    have hsteps := (Session.Did.trans h₁ h₂).stepsSince_eq
    rw [show ((gather s asks).session) = s from rfl] at h₁ hsteps
    rw [hsteps] at hroom
    have hroom₁ := hroom.append_left
    rw [← h₁.stepsSince_eq] at hroom₁
    have hroom₂ := hroom.append_right h₁.pool
    rw [← h₂.stepsSince_eq] at hroom₂
    exact (ih (hsteady.left (List.Subset.refl _) h₁ h₂) hroom₁).step
      (h₁.connections ▸ hgood) i (hsteady.right (List.Subset.refl _) h₁ h₂) hroom₂

/-- No request has been handed a bad connection twice. -/
theorem Stands.count_le (h : Stands good mark p a turns stage tried) {c : Connection}
    (hbad : good c = false) : tried.count c ≤ 1 := by
  cases h with
  | asked => simp
  | ready hcs | exhausted hcs => exact List.nodup_iff_count_le_one.mp hcs.nodup c
  | @holding _ _ _ conn _ cs hcs _ hnew =>
    have hnodup : (cs ++ [conn]).Nodup := by simpa using hcs.nodup.concat hnew
    exact List.nodup_iff_count_le_one.mp hnodup c
  | @answered _ _ conn cs hcs hconn =>
    have hne : conn ≠ c := fun he => by
      rw [he, hbad] at hconn
      cases hconn
    have := List.nodup_iff_count_le_one.mp hcs.nodup c
    simpa [List.count_append, List.count_singleton, hne] using this

/-- A request that has an attempt to spare is answered, if it takes enough steps. -/
theorem Stands.answers (h : Stands good mark p a turns stage tried)
    (hspare : p.connections.countP (fun c => !good c) < a.client.maxRetries) :
    (∀ r, stage = .finished r → ∃ b, r = .ok b) ∧
      (2 * p.connections.countP (fun c => !good c) + 3 ≤ turns → ∃ b, stage = .finished (.ok b)) := by
  cases h with
  | asked => exact ⟨by simp, fun h => by omega⟩
  | ready hcs => exact ⟨by simp, fun h => by have := hcs.length_le; omega⟩
  | holding hcs => exact ⟨by simp, fun h => by have := hcs.length_le; omega⟩
  | answered => exact ⟨by simp, fun _ => ⟨_, rfl⟩⟩
  | exhausted hcs hlen => have := hcs.length_le; omega

/-- **Failover under interleaving**: however requests on steady connections interleave, none of them
attempts a bad connection twice. So one that may make more attempts than there are bad connections
succeeds whenever it ends, and it has ended once it has made two steps for each of these, and three
more. -/
theorem run_answers (good : Connection → Bool) (world : World) (s : Session) (asks : List Ask)
    (schedule : List Nat) (hreach : s.pool.Reachable)
    (hgood : ∃ d ∈ s.pool.connections, good d = true)
    (hsteady : Steady good asks s ((gather s asks).run world schedule).session)
    (hroom : s.pool.HasRoom (((gather s asks).run world schedule).session.stepsSince s)) :
    let w := (gather s asks).run world schedule
    let bad := s.pool.connections.countP fun c => !good c
    w.runners.map (·.ask) = asks ∧ ∀ i r, w.runners[i]? = some r →
      (∀ c, good c = false → r.tried.count c ≤ 1) ∧
      (bad < r.ask.client.maxRetries →
        (∀ result, r.stage = .finished result → ∃ b, result = .ok b) ∧
        (2 * bad + 3 ≤ schedule.count i → ∃ b, r.stage = .finished (.ok b))) := by
  intro w bad
  have hsound := run_sound schedule hreach hgood hsteady hroom
  obtain ⟨_, _, hdid⟩ := run_did world (gather s asks) schedule
  have hbad : w.session.pool.connections.countP (fun c => !good c) = bad := by
    rw [hdid.connections]
    rfl
  refine ⟨hsound.asks_eq, fun i r hi => ⟨fun c => (hsound.stands i r hi).count_le, ?_⟩⟩
  rw [← hbad]
  exact (hsound.stands i r hi).answers

/-- Two searches that take turns on two nodes, the first of which is down, are both answered. -/
theorem run_answers_halfDown :
    let w := (gather .twoNodes [.search, .search]).run .halfDown [0, 1, 0, 1, 0, 1, 0, 1, 0, 1]
    Session.twoNodes.pool.Reachable ∧ (∃ d ∈ Session.twoNodes.pool.connections, (d.id == 1) = true) ∧
      Steady (·.id == 1) [.search, .search] .twoNodes w.session ∧
      Session.twoNodes.pool.HasRoom (w.session.stepsSince .twoNodes) ∧
      ∀ i r, w.runners[i]? = some r → i < 2 ∧ ∃ b, r.stage = .finished (.ok b) := by
  intro w
  have hreach : Session.twoNodes.pool.Reachable := .setConnections _ _ .empty
  have hgood : ∃ d ∈ Session.twoNodes.pool.connections, (d.id == 1) = true := by decide +kernel
  have hsteady : Steady (·.id == 1) [.search, .search] .twoNodes w.session :=
    steady_twoNodes (by simp) (by decide +kernel) (by decide +kernel)
  have hroom : Session.twoNodes.pool.HasRoom (w.session.stepsSince .twoNodes) := by
    unfold Pool.HasRoom
    decide +kernel
  obtain ⟨hasks, hall⟩ := run_answers (·.id == 1) .halfDown .twoNodes [.search, .search] _
    hreach hgood hsteady hroom
  refine ⟨hreach, hgood, hsteady, hroom, fun i r hi => ?_⟩
  have hlt : i < 2 := by
    have hlen : w.runners.length = 2 := by simpa using congrArg List.length hasks
    exact hlen ▸ (List.getElem?_eq_some_iff.mp hi).1
  have hask : r.ask = .search := by
    have hmem : r.ask ∈ [Ask.search, Ask.search] := hasks ▸ List.mem_map_of_mem (List.mem_of_getElem? hi)
    simpa using hmem
  refine ⟨hlt, ((hall i r hi).2 ?_).2 ?_⟩
  · rw [hask]
    decide +kernel
  · obtain rfl | rfl : i = 0 ∨ i = 1 := by omega
    · decide +kernel
    · decide +kernel

end Crowd

end ClusterOutput
