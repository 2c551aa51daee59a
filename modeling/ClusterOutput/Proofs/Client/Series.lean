/-
Requests one after another. They do to the pool and hand to the transport what
their attempts do (`serve_ran`).

While requests are made, connections may be steady: each of them fails always or
never. Then a request is answered by the first connection that does not fail,
or has made all its attempts on others (`Steady.serves`).
-/
import ClusterOutput.Proofs.Client.Course

namespace ClusterOutput

/-- A request as it is asked of a client. -/
structure Ask where
  client : Client
  operation : Operation
  method : String
  path : String
  params : Option Url.Params
  body : Option Body

/-- The call that a request comes to once its body is encoded. -/
def Ask.call (a : Ask) (payload : Option Bytes) : Client.Call :=
  ⟨a.operation, a.method, a.path, Client.queryOf a.params, payload⟩

/-- Makes the request. -/
def Ask.serve (a : Ask) (world : World) (s : Session) : Except RequestError Bytes × Session :=
  a.client.requestAs world a.operation a.method a.path a.params a.body s

/-- A search for everything, of a client that tries three times. -/
def Ask.search : Ask := ⟨.patient, .request, "GET", "/_search", none, none⟩

/-- The attempts of a request, if its body is encoded, and none if it is not. -/
theorem Ask.ran (a : Ask) (world : World) (s : Session) :
    ∃ hist, s.Ran world hist (a.serve world s).2 := by
  cases hbody : Client.payloadOf a.body with
  | error e => exact ⟨[], (Client.requestAs_unencodable hbody).2⟩
  | ok payload =>
    obtain ⟨hist, hran, -⟩ := Client.requestAs_course hbody
    exact ⟨hist, hran⟩

namespace Session

/-- Makes requests one after another: their results, and the session after them. -/
def serve (world : World) : Session → List Ask → List (Except RequestError Bytes) × Session
  | s, [] => ([], s)
  | s, a :: asks =>
    let (r, s) := a.serve world s
    let (rs, s) := s.serve world asks
    (r :: rs, s)

theorem serve_cons (world : World) (s : Session) (a : Ask) (asks : List Ask) :
    s.serve world (a :: asks) =
      ((a.serve world s).1 :: ((a.serve world s).2.serve world asks).1,
        ((a.serve world s).2.serve world asks).2) := rfl

variable {world : World} {s s₁ s₂ : Session} {hist later : List Attempt}

theorem Ran.refl (world : World) (s : Session) : s.Ran world [] s := Did.refl world s

theorem Ran.trans (h₁ : s.Ran world hist s₁) (h₂ : s₁.Ran world later s₂) :
    s.Ran world (hist ++ later) s₂ := by
  unfold Ran
  rw [List.flatMap_append, List.flatMap_append]
  exact Did.trans h₁ h₂

theorem serve_ran (world : World) (s : Session) (asks : List Ask) :
    ∃ hist, s.Ran world hist (s.serve world asks).2 := by
  induction asks generalizing s with
  | nil => exact ⟨[], .refl world s⟩
  | cons a asks ih =>
    obtain ⟨hist, hran⟩ := a.ran world s
    obtain ⟨later, hlater⟩ := ih (a.serve world s).2
    exact ⟨hist ++ later, hran.trans hlater⟩

theorem serve_append (world : World) (s : Session) (asks later : List Ask) :
    s.serve world (asks ++ later) =
      ((s.serve world asks).1 ++ ((s.serve world asks).2.serve world later).1,
        ((s.serve world asks).2.serve world later).2) := by
  induction asks generalizing s with
  | nil => rfl
  | cons a asks ih => simp only [List.cons_append, serve_cons, ih]

end Session

/-! ## Steady connections -/

/-- Between two moments of a session the connections were steady, the good ones answering always
and the others never, nothing was wrong with the requests themselves, and no client had to give
up. -/
structure Steady (good : Connection → Bool) (asks : List Ask) (s after : Session) : Prop where
  encodes : ∀ a ∈ asks, ∃ payload, Client.payloadOf a.body = .ok payload
  targets : ∀ a ∈ asks, ∀ d ∈ s.pool.connections,
    ∃ url, Client.target d.url a.path (Client.queryOf a.params) = .ok url
  token : ∀ a ∈ asks, a.client.givesUp after = false
  outcomes : ∀ x ∈ after.sentSince s, x.reply.fails = !good x.connection

section Steady

variable {good : Connection → Bool} {asks part : List Ask} {a : Ask} {world : World}
  {s s₁ s₂ : Session} {steps later : List PoolStep} {sent sent' : List Exchange}

theorem Steady.left (h : Steady good asks s s₂) (hpart : part ⊆ asks)
    (h₁ : s.Did world steps sent s₁) (h₂ : s₁.Did world later sent' s₂) :
    Steady good part s s₁ where
  encodes := fun a ha => h.encodes a (hpart ha)
  targets := fun a ha => h.targets a (hpart ha)
  token := fun a ha => Bool.eq_false_iff.mpr fun hup =>
    Bool.eq_false_iff.mp (h.token a (hpart ha)) (Client.givesUp_mono h₂ hup)
  outcomes := fun x hx => h.outcomes x <| by
    rw [(h₁.trans h₂).sentSince_eq]
    rw [h₁.sentSince_eq] at hx
    exact List.mem_append_left _ hx

theorem Steady.right (h : Steady good asks s s₂) (hpart : part ⊆ asks)
    (h₁ : s.Did world steps sent s₁) (h₂ : s₁.Did world later sent' s₂) :
    Steady good part s₁ s₂ where
  encodes := fun a ha => h.encodes a (hpart ha)
  targets := fun a ha => by
    rw [h₁.connections]
    exact h.targets a (hpart ha)
  token := fun a ha => h.token a (hpart ha)
  outcomes := fun x hx => h.outcomes x <| by
    rw [(h₁.trans h₂).sentSince_eq]
    rw [h₂.sentSince_eq] at hx
    exact List.mem_append_right _ hx

theorem Steady.target_ne (h : Steady good asks s s₁) (ha : a ∈ asks) {d : Connection}
    (hd : d ∈ s.pool.connections) (payload : Option Bytes) (e : RequestError) :
    Client.target d.url (a.call payload).path (a.call payload).query ≠ .error e := by
  obtain ⟨url, hurl⟩ := h.targets a ha d hd
  show Client.target d.url a.path (Client.queryOf a.params) ≠ .error e
  rw [hurl]
  intro he
  cases he

/-- How a request goes on steady connections: bad ones come first, and it is answered by the first
good one, unless it has no attempt left for it. -/
inductive Served (good : Connection → Bool) (a : Ask) :
    List Exchange → Except RequestError Bytes → Prop
  | answered {failed : List Exchange} {x : Exchange} {b : Bytes}
    (hfailed : ∀ y ∈ failed, good y.connection = false) (hx : good x.connection = true)
    (hlen : failed.length < a.client.maxRetries) : Served good a (failed ++ [x]) (.ok b)
  | exhausted {failed : List Exchange} {e : RequestError}
    (hfailed : ∀ y ∈ failed, good y.connection = false)
    (hlen : failed.length = a.client.maxRetries) : Served good a failed (.error e)

theorem Steady.serves (h : Steady good [a] s (a.serve world s).2) (hne : s.pool.slots ≠ []) :
    ∃ sent, s.Ran world (sent.map .completed) (a.serve world s).2 ∧
      Served good a sent (a.serve world s).1 := by
  obtain ⟨payload, hbody⟩ := h.encodes a (by simp)
  obtain ⟨hist, hran, hcourse, hup, hempty⟩ :
      a.client.Goes world (a.call payload) a.client.maxRetries none s (a.serve world s) :=
    Client.requestAs_course hbody
  have hcancel : (a.serve world s).1 ≠ .error .cancelled := fun he => by
    simp [h.token a (by simp)] at hup
    exact hup he
  generalize (a.serve world s).1 = r at hcourse hempty hcancel ⊢
  obtain ⟨failed, tail, rfl, hfailed, hend⟩ := hcourse.split
  have hgood : ∀ x ∈ failed ++ tail.flatMap Attempt.exchanges,
      x.reply.fails = !good x.connection := by
    have hsent := hran.sentSince_eq
    rw [List.flatMap_append, exchanges_completed] at hsent
    exact hsent ▸ h.outcomes
  have hbad : ∀ x ∈ failed, good x.connection = false := fun x hx => by
    have := hgood x (List.mem_append_left _ hx)
    rw [(hfailed x hx).2] at this
    simpa using this
  rcases hend with ⟨hlen, rfl, rfl⟩ | ⟨hlt, hstop⟩
  · exact ⟨failed, by simpa using hran, .exhausted hbad hlen⟩
  · cases hstop with
    | @answered x b hx hout =>
      refine ⟨failed ++ [x], by simpa using hran, .answered hbad ?_ hlt⟩
      have := hgood x (by simp [Attempt.exchanges])
      rw [Exchange.answers_of_ok hout] at this
      simpa using this
    | noConnections => exact absurd (hempty rfl) hne
    | @noUrl conn message htarget =>
      have hmem : conn ∈ s.pool.connections :=
        Pool.replay_taken_mem hran.pool (by simp [Attempt.steps])
      exact absurd htarget (h.target_ne (by simp) hmem payload _)
    | gaveUp => exact absurd rfl hcancel
    | gaveUpLate => exact absurd rfl hcancel
    | interrupted => exact absurd rfl hcancel

/-- Searches are made on steady connections if the second of two nodes answers and the first does
not. -/
theorem steady_twoNodes {asks : List Ask} {after : Session} (hasks : ∀ a ∈ asks, a = .search)
    (htoken : Ask.search.client.givesUp after = false)
    (houtcomes : ∀ x ∈ after.sentSince .twoNodes, x.reply.fails = !(x.connection.id == 1)) :
    Steady (·.id == 1) asks .twoNodes after where
  encodes := fun a ha => ⟨none, hasks a ha ▸ rfl⟩
  targets := fun a ha d hd => by
    rw [hasks a ha]
    exact Session.twoNodes_target hd
  token := fun a ha => hasks a ha ▸ htoken
  outcomes := houtcomes

end Steady

end ClusterOutput
