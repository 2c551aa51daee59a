/-
An account of the attempts of a request: which of them failed, what there was of
one after these, how many errors and retries were counted, and whether a pause
between them was the last thing that came of the request. Every request has one
(`requestAs_account`).
-/
import ClusterOutput.Proofs.Client.Course

namespace ClusterOutput.Client

variable {c : Client} {world : World} {call : Call} {number : Nat} {s : Session}

/-! ## Pauses -/

/-- The run is cancelled in the pause before an attempt. -/
structure Paused (c : Client) (world : World) (number : Nat) (s : Session) : Prop where
  token : c.carriesToken = true
  backoff : c.backoff.isZero = false
  retry : isRetry number = true
  goes : c.givesUp s = false
  fires : world.cancels (.pause (s.journal.retries + 1)) = true

/-- The run is not cancelled in a pause between two moments. -/
def Quiet (c : Client) (world : World) (s s₁ : Session) : Prop :=
  c.carriesToken = true → c.backoff.isZero = false → ∀ n, world.cancels (.pause n) = true →
    s.journal.retries < n → s₁.journal.retries < n

/-- A turn that counts a retry if it is one is quiet, if the pause before it is. -/
theorem Quiet.of_retries {s₁ : Session} (hpaused : ¬ c.Paused world number s)
    (hretries : s₁.journal.retries =
      s.journal.retries + if isRetry number && !c.givesUp s then 1 else 0) :
    c.Quiet world s s₁ := by
  intro htoken hback n hfire hlt
  by_contra hle
  rw [hretries] at hle
  split at hle
  next hmade =>
    simp only [Bool.and_eq_true, Bool.not_eq_true'] at hmade
    have hn : n = s.journal.retries + 1 := by omega
    exact hpaused ⟨htoken, hback, hmade.1, hmade.2, hn ▸ hfire⟩
  next => omega

theorem Paused.givesUp (h : c.Paused world number s) :
    c.givesUp (c.noteRetry world call.operation call.method number s) = true := by
  simp [Client.givesUp, h.token, noteRetry, Session.pass, Session.record, h.fires]

/-- No connection is looked for in a run that is cancelled in the pause. -/
theorem Paused.attempts (h : c.Paused world number s) (left : Nat) (earlier : Option RequestError) :
    c.attempts world call (left + 1) number earlier s =
      (.error .cancelled, c.noteRetry world call.operation call.method number s) := by
  simp [Client.attempts, prepare, h.goes, h.retry, h.backoff, h.givesUp]

/-! ## The account of a request -/

/-- What a request made of its attempts, from the `number`-th on, `left` of which could still be
made after one that ended in `earlier`. The exchanges of `failed` are over, and `last` is what there
was of an attempt after them; `late` errors were counted behind it. -/
structure Account (c : Client) (world : World) (call : Call) (left number : Nat)
    (earlier : Option RequestError) (s : Session) (r : Except RequestError Bytes × Session)
    (failed : List Exchange) (last : List Attempt) (late : Nat) : Prop where
  ran : s.Ran world (failed.map .completed ++ last) r.2
  ended : ∀ x ∈ failed, x.reply.fails = true ∧ (c.carriesToken && x.reply.isOpen) = false
  open_of_last : ∀ x, last = [.interrupted x] → x.reply.isOpen = true
  up : r.1 = .error .cancelled → c.givesUp r.2 = true
  errors : r.2.journal.errors = s.journal.errors + failed.length + late
  ends : failed.length = left ∧ last = [] ∧
      r.1 = .error (.retriesExhausted c.maxRetries (lastError earlier failed)) ∨
    failed.length < left ∧ Stops call last r.1
  /-- A pause that the run is cancelled in is the last thing that comes of the request. -/
  pause : c.carriesToken = true → c.backoff.isZero = false → ∀ n, world.cancels (.pause n) = true →
    s.journal.retries < n → n ≤ r.2.journal.retries →
      r.1 = .error .cancelled ∧ last = [] ∧
        n = s.journal.retries + failed.length + if isRetry number then 1 else 0

section

variable {left : Nat} {earlier : Option RequestError} {r : Except RequestError Bytes × Session}
  {failed : List Exchange} {last : List Attempt} {late : Nat} {s₁ : Session}

/-- A request has no attempt left. -/
theorem Account.spent :
    c.Account world call 0 number earlier s (c.attempts world call 0 number earlier s) [] [] 0 where
  ran := Session.did_log world s _
  ended := List.forall_mem_nil _
  open_of_last := by simp
  up := by simp [attempts, giveUp]
  errors := rfl
  ends := .inl ⟨rfl, rfl, rfl⟩
  pause := fun _ _ _ _ hlt hle => absurd (Nat.lt_of_lt_of_le hlt hle) (Nat.lt_irrefl _)

/-- A request is cancelled in the pause before an attempt. -/
theorem Paused.account (h : c.Paused world number s) :
    c.Account world call (left + 1) number earlier s
      (c.attempts world call (left + 1) number earlier s) [] [] 0 := by
  rw [h.attempts]
  refine ⟨did_noteRetry c world _ _ _ s, by simp, by simp, fun _ => h.givesUp, rfl,
    .inr ⟨Nat.succ_pos left, .gaveUp⟩, fun _ _ n _ hlt hle => ⟨rfl, rfl, ?_⟩⟩
  have hle' : n ≤ s.journal.retries + 1 := hle
  rw [if_pos h.retry, List.length_nil]
  omega

/-- A request stops at once. -/
theorem Account.stop (hran : s.Ran world last r.2) (hstop : Stops call last r.1)
    (hlast : ∀ x, last = [.interrupted x] → x.reply.isOpen = true)
    (hup : r.1 = .error .cancelled → c.givesUp r.2 = true)
    (herrors : r.2.journal.errors = s.journal.errors) (hquiet : c.Quiet world s r.2) :
    c.Account world call (left + 1) number earlier s r [] last 0 where
  ran := hran
  ended := List.forall_mem_nil _
  open_of_last := hlast
  up := hup
  errors := herrors
  ends := .inr ⟨Nat.succ_pos left, hstop⟩
  pause := fun htoken hback n hfire hlt hle =>
    absurd (Nat.lt_of_lt_of_le (hquiet htoken hback n hfire hlt) hle) (Nat.lt_irrefl _)

/-- An attempt fails, and the account goes on behind it. -/
theorem Account.cons {x : Exchange} {e : RequestError} (hnumber : 1 ≤ number)
    (hran : s.Ran world [.completed x] s₁) (hout : x.outcome = .error e)
    (hover : (c.carriesToken && x.reply.isOpen) = false)
    (herrors : s₁.journal.errors = s.journal.errors + 1)
    (hretries : s₁.journal.retries = s.journal.retries + if isRetry number then 1 else 0)
    (hquiet : c.Quiet world s s₁)
    (h : c.Account world call left (number + 1) (some e) s₁ r failed last late) :
    c.Account world call (left + 1) number earlier s r (x :: failed) last late where
  ran := hran.trans h.ran
  ended := List.forall_mem_cons.mpr ⟨⟨(Exchange.fails_of_error hout).1, hover⟩, h.ended⟩
  open_of_last := h.open_of_last
  up := h.up
  errors := by rw [h.errors, herrors, List.length_cons]; omega
  ends := by
    simpa [lastError_cons hout] using h.ends
  pause := fun htoken hback n hfire hlt hle => by
    obtain ⟨hr, hlast, hn⟩ :=
      h.pause htoken hback n hfire (hquiet htoken hback n hfire hlt) hle
    have hretry : isRetry (number + 1) = true := decide_eq_true (by omega)
    rw [hretries, hretry, if_pos rfl] at hn
    refine ⟨hr, hlast, ?_⟩
    rw [hn, List.length_cons]
    omega

end

theorem attempts_account (c : Client) (world : World) (call : Call) (left number : Nat)
    (earlier : Option RequestError) (s : Session) (hnumber : 1 ≤ number) :
    ∃ failed last, c.Account world call left number earlier s
      (c.attempts world call left number earlier s) failed last 0 := by
  induction left generalizing number earlier s with
  | zero => exact ⟨[], [], .spent⟩
  | succ left ih =>
    by_cases hpaused : c.Paused world number s
    · exact ⟨[], [], hpaused.account⟩
    have hturned := attempts_turned c world call left number earlier s
    generalize c.attempts world call (left + 1) number earlier s = r at hturned ⊢
    cases hturned with
    | stops hstop hran hopen hup _ hcounts =>
      obtain ⟨herrors, hretries⟩ := Prod.mk.inj hcounts
      exact ⟨[], _, .stop hran hstop hopen hup herrors (.of_retries hpaused hretries)⟩
    | @fails x e s₁ _ hout hover hran hgoes hcounts =>
      obtain ⟨herrors, hretries⟩ := Prod.mk.inj hcounts
      have hquiet : c.Quiet world s s₁ := .of_retries hpaused (by simpa [hgoes] using hretries)
      obtain ⟨failed, last, hrest⟩ := ih (number + 1) (some e) s₁ (by omega)
      exact ⟨x :: failed, last, .cons hnumber hran hout hover herrors hretries hquiet hrest⟩

/-! ## A whole request -/

/-- How many errors are counted for the end of a request. -/
def lateErrors : Except RequestError Bytes → Nat
  | .ok _ => 0
  | .error e => if e.isExhaustion then 0 else 1

theorem conclude_counts (c : Client) (world : World) (op : Operation) (method : String)
    (r : Except RequestError Bytes) (s : Session) :
    (c.conclude world op method (r, s)).2.counts =
      (s.journal.errors + lateErrors r, s.journal.retries) := by
  cases r with
  | ok bytes => rfl
  | error e =>
    simp only [conclude, lateErrors]
    split <;> rfl

theorem Account.conclude {left : Nat} {earlier : Option RequestError}
    {r : Except RequestError Bytes × Session} {failed : List Exchange} {last : List Attempt}
    (h : c.Account world call left number earlier s r failed last 0) (op : Operation)
    (method : String) :
    c.Account world call left number earlier s (c.conclude world op method r) failed last
      (lateErrors (c.conclude world op method r).1) := by
  obtain ⟨r, s₁⟩ := r
  obtain ⟨hr, hdid⟩ := conclude_ends c world op method r s₁
  obtain ⟨herrors, hretries⟩ := Prod.mk.inj (conclude_counts c world op method r s₁)
  refine ⟨h.ran.before hdid, h.ended, h.open_of_last, ?_, ?_, ?_, ?_⟩
  · rw [hr]
    exact fun hc => givesUp_mono hdid (h.up hc)
  · rw [herrors, hr, h.errors]
    rfl
  · rw [hr]
    exact h.ends
  · rw [hr, hretries]
    exact h.pause

/-- The account of a whole request whose body is encoded. -/
theorem requestAs_account {op : Operation} {method path : String} {params : Option Url.Params}
    {body : Option Body} {payload : Option Bytes} (world : World) (s : Session)
    (hbody : payloadOf body = .ok payload) :
    ∃ failed last, c.Account world ⟨op, method, path, queryOf params, payload⟩ c.maxRetries 1 none s
      (c.requestAs world op method path params body s) failed last
      (lateErrors (c.requestAs world op method path params body s).1) := by
  obtain ⟨failed, last, haccount⟩ := attempts_account c world
    ⟨op, method, path, queryOf params, payload⟩ c.maxRetries 1 none s (Nat.le_refl 1)
  simp only [requestAs, dispatch, hbody]
  exact ⟨failed, last, haccount.conclude op method⟩

end ClusterOutput.Client
