/-
Runs that are not cancelled from outside, neither after an error nor in a pause. A
request of such a run is cancelled only within an exchange that does not come to
its end (`requestAs_calm`), so no later request finds the run cancelled.
-/
import ClusterOutput.Proofs.Client.Course

namespace ClusterOutput

namespace Session

variable {s s₁ : Session}

@[simp] theorem log_isCancelled (s : Session) (e : Event) :
    (s.log e).isCancelled = s.isCancelled := rfl

@[simp] theorem record_isCancelled (s : Session) (collector : Option Collector)
    (samples : List Sample) : (s.record collector samples).isCancelled = s.isCancelled := rfl

theorem take?_isCancelled {c : Connection} (h : s.take? = some (c, s₁)) :
    s₁.isCancelled = s.isCancelled := by
  simp only [take?, Option.map_eq_some_iff, Prod.mk.injEq] at h
  obtain ⟨choice, -, -, rfl⟩ := h
  rfl

@[simp] theorem markDead_isCancelled (s : Session) (collector : Option Collector)
    (c : Connection) : (s.markDead collector c).isCancelled = s.isCancelled := by
  simp only [markDead]
  split
  · rfl
  · split <;> rfl

@[simp] theorem markLive_isCancelled (s : Session) (collector : Option Collector)
    (c : Connection) : (s.markLive collector c).isCancelled = s.isCancelled := by
  simp only [markLive]
  split
  · rfl
  · split <;> rfl

end Session

namespace Client

variable {c : Client} {world : World} {call : Call} {s : Session}

/-! ## One attempt -/

section

variable (hcalm : ∀ m, world.cancels m = false)

include hcalm

theorem noteError_isCancelled (op : Operation) (method : String) (e : RequestError) :
    (c.noteError world op method e s).isCancelled = s.isCancelled := by
  simp [noteError, Session.pass, Session.record, hcalm]

theorem noteRetry_isCancelled (op : Operation) (method : String) (number : Nat) :
    (c.noteRetry world op method number s).isCancelled = s.isCancelled := by
  simp [noteRetry, Session.pass, Session.record, hcalm]

variable (c call) in
theorem prepare_calm (hs : s.isCancelled = false) (number : Nat) :
    (c.prepare world call number s).1 ≠ .error .cancelled ∧
      (c.prepare world call number s).2.isCancelled = false := by
  have hgoes {s₁ : Session} (h : s₁.isCancelled = false) : c.givesUp s₁ = false := by
    simp [givesUp, h]
  unfold prepare
  rw [if_neg (by simp [hgoes hs])]
  simp only []
  generalize hs₁ : (if isRetry number = true then
    c.noteRetry world call.operation call.method number s else s) = s₁
  have h₁ : s₁.isCancelled = false := by
    rw [← hs₁]
    split
    · rw [noteRetry_isCancelled hcalm, hs]
    · exact hs
  rw [if_neg (by simp [hgoes h₁])]
  split
  · exact ⟨by simp, h₁⟩
  next conn s₂ htake =>
    have h₂ : s₂.isCancelled = false := (Session.take?_isCancelled htake).trans h₁
    split
    next e htarget =>
      obtain ⟨message, rfl⟩ := target_error htarget
      exact ⟨by simp, h₂⟩
    next url _ =>
      have h₃ : (s₂.log (.sending number c.maxRetries call.method url.text)).isCancelled = false :=
        h₂
      rw [if_neg (by simp [hgoes h₃])]
      exact ⟨by simp, h₃⟩

end

/-- An attempt that is watched leaves the run as it was, unless it is cancelled. -/
theorem attempt_isCancelled (c : Client) (world : World) (op : Operation) (conn : Connection)
    (method : String) (url : Url) (payload : Option Bytes) (s : Session)
    (h : (c.attempt world true op conn method url payload s).1 ≠ .error .cancelled) :
    (c.attempt world true op conn method url payload s).2.isCancelled = s.isCancelled := by
  revert h
  unfold attempt
  simp only []
  split
  · exact fun h => absurd rfl h
  · intro _
    simp [unanswered]
  · intro _
    simp only [answered]
    split
    · simp
    · split <;> simp
  · exact fun h => absurd rfl h

variable (call s) in
theorem tryOn_calm (hcalm : ∀ m, world.cancels m = false) (htoken : c.carriesToken = true)
    (number : Nat) (conn : Connection) (url : Url)
    (h : (c.tryOn world call number conn url s).1 ≠ .error .cancelled) :
    (c.tryOn world call number conn url s).2.isCancelled = s.isCancelled := by
  have hattempt := attempt_isCancelled c world call.operation conn call.method url call.payload s
  revert h
  unfold tryOn
  rw [htoken]
  generalize c.attempt world true call.operation conn call.method url call.payload s = r
    at hattempt ⊢
  obtain ⟨r, s₁⟩ := r
  intro h
  cases r with
  | ok bytes =>
    rw [← hattempt (by simp)]
    simp only []
    split <;> rfl
  | error e =>
    cases e with
    | cancelled => exact absurd rfl h
    | _ =>
      rw [← hattempt (by simp)]
      exact noteError_isCancelled hcalm _ _ _

/-! ## A whole request -/

/-- A request that is cancelled has an exchange that did not come to its end; any other leaves the
run as it was. -/
def Calm (s : Session) (r : Except RequestError Bytes × Session) : Prop :=
  (r.1 = .error .cancelled → ∃ x ∈ r.2.sentSince s, x.reply.isOpen = true) ∧
    (r.1 ≠ .error .cancelled → r.2.isCancelled = false)

theorem mem_sentSince_of_did {s₁ s₂ : Session} {steps : List PoolStep} {sent : List Exchange}
    (h : s.Did world steps sent s₁) {x : Exchange} (hx : x ∈ s₂.sentSince s₁) :
    x ∈ s₂.sentSince s := by
  refine List.drop_subset_drop_left _ ?_ hx
  rw [h.handed, List.length_append]
  omega

variable (call) in
theorem attempts_calm (hcalm : ∀ m, world.cancels m = false) (htoken : c.carriesToken = true)
    (hs : s.isCancelled = false) (left number : Nat) (last : Option RequestError) :
    Calm s (c.attempts world call left number last s) := by
  induction left generalizing number last s with
  | zero => exact ⟨by simp [attempts, giveUp], fun _ => hs⟩
  | succ left ih =>
    unfold attempts
    obtain ⟨hne, hprepared⟩ := prepare_calm c call hcalm hs number
    have hprepare := prepare_ends c world call number s
    generalize c.prepare world call number s = r at hne hprepared hprepare ⊢
    obtain ⟨r, s₁⟩ := r
    cases r with
    | error e =>
      have hcancel : e ≠ .cancelled := fun h => hne (by rw [h])
      exact ⟨fun h => absurd (Except.error.inj h) hcancel, fun _ => hprepared⟩
    | ok aim =>
      obtain ⟨conn, url⟩ := aim
      cases hprepare with | aimed htarget hdid =>
      have hcalmed := tryOn_calm call s₁ hcalm htoken number conn url
      have htry := tryOn_ends c world call number conn url s₁
      simp only []
      generalize c.tryOn world call number conn url s₁ = r at hcalmed htry ⊢
      obtain ⟨r, s₂⟩ := r
      cases htry with
      | @interrupted x _ _ hopen hdid₂ =>
        refine ⟨fun _ => ⟨x, mem_sentSince_of_did hdid ?_, hopen⟩, fun h => absurd rfl h⟩
        rw [hdid₂.sentSince_eq]
        exact List.mem_singleton_self x
      | @completed x _ hx hover hdid₂ =>
        cases hout : x.outcome with
        | ok b =>
          rw [hout] at hcalmed
          exact ⟨by simp, fun _ => (hcalmed (by simp)).trans hprepared⟩
        | error e =>
          rw [hout] at hcalmed
          have hcancel : (.error e : Except RequestError Bytes) ≠ .error .cancelled := by
            simpa using Exchange.ne_cancelled hout
          have hrest := ih (s := s₂) ((hcalmed hcancel).trans hprepared) (number + 1) (some e)
          have hlater : Calm s (c.attempts world call left (number + 1) (some e) s₂) := by
            refine ⟨fun h => ?_, hrest.2⟩
            obtain ⟨y, hy, hopen⟩ := hrest.1 h
            exact ⟨y, mem_sentSince_of_did (hdid.trans hdid₂) hy, hopen⟩
          split
          next heq => cases heq
          next heq => cases heq; exact absurd rfl hcancel
          next heq => cases heq; exact hlater

theorem requestAs_calm {body : Option Body} {payload : Option Bytes} (op : Operation)
    (method path : String) (params : Option Url.Params) (hcalm : ∀ m, world.cancels m = false)
    (htoken : c.carriesToken = true) (hs : s.isCancelled = false)
    (hbody : payloadOf body = .ok payload) :
    Calm s (c.requestAs world op method path params body s) := by
  simp only [requestAs, dispatch, hbody]
  have hattempts := attempts_calm ⟨op, method, path, queryOf params, payload⟩ hcalm htoken hs
    c.maxRetries 1 none
  generalize c.attempts world ⟨op, method, path, queryOf params, payload⟩ c.maxRetries 1 none s = r
    at hattempts ⊢
  obtain ⟨r, s₁⟩ := r
  obtain ⟨hcancelled, hgoes⟩ := hattempts
  obtain ⟨hr, hdid⟩ := conclude_ends c world op method r s₁
  constructor
  · intro h
    rw [hr] at h
    obtain ⟨x, hx, hopen⟩ := hcancelled h
    refine ⟨x, ?_, hopen⟩
    rw [Session.sentSince, hdid.handed, List.append_nil]
    exact hx
  · intro h
    rw [hr] at h
    cases r with
    | ok bytes => exact hgoes h
    | error e =>
      simp only [conclude]
      split
      · exact hgoes h
      · rw [noteError_isCancelled hcalm]
        exact hgoes h

end Client

end ClusterOutput
