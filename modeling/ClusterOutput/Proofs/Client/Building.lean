/-
What building a client does. It succeeds exactly if all URLs of nodes are right ones
(`ClientOptions.build_ok`, `ClientOptions.build_error`), and then the pool has one
connection for each of them.
-/
import ClusterOutput.Client.Options
import ClusterOutput.Proofs.Pool.Invariant
import ClusterOutput.Proofs.Result

namespace ClusterOutput

/-! ## URLs of nodes -/

theorem normalizeHost_error {raw : String} {e : RequestError} (h : normalizeHost raw = .error e) :
    ∃ message, e = .invalidUrl message := by
  unfold normalizeHost at h
  simp only [] at h
  split at h
  · cases h
    exact ⟨_, rfl⟩
  · split at h
    · cases h
    · cases h
      exact ⟨_, rfl⟩

theorem normalizeHosts_error {raws : List String} {e : RequestError}
    (h : normalizeHosts raws = .error e) : ∃ message, e = .invalidUrl message := by
  induction raws with
  | nil => cases h
  | cons raw raws ih =>
    simp only [normalizeHosts, bind, Except.bind] at h
    split at h
    next hhost =>
      cases h
      exact normalizeHost_error hhost
    · split at h
      next hhosts =>
        cases h
        exact ih hhosts
      · cases h

theorem normalizeHosts_length {raws hosts : List String} (h : normalizeHosts raws = .ok hosts) :
    hosts.length = raws.length := by
  induction raws generalizing hosts with
  | nil =>
    cases h
    rfl
  | cons raw raws ih =>
    simp only [normalizeHosts, bind_eq_ok] at h
    obtain ⟨host, -, rest, hrest, h⟩ := h
    cases h
    rw [List.length_cons, ih hrest, List.length_cons]

theorem freshSlots_length (credentials : Option Credentials) (id : Nat) (urls : List String) :
    (Pool.freshSlots credentials id urls).length = urls.length := by
  induction urls generalizing id with
  | nil => rfl
  | cons url urls ih => rw [Pool.freshSlots, List.length_cons, ih, List.length_cons]

theorem setConnections_length (s : Session) (urls : List String)
    (credentials : Option Credentials) :
    (s.setConnections urls credentials).pool.connections.length = urls.length := by
  show ((Pool.freshSlots credentials _ urls).map _).length = urls.length
  rw [List.length_map, freshSlots_length]

/-! ## Clients -/

namespace ClientOptions

variable {o : ClientOptions} {s : Session}

/-- A client that was built has the settings, and its connections are those of the nodes. -/
theorem build_ok {c : Client} {s' : Session} (h : o.build s = .ok (c, s')) :
    ∃ (hosts : List String) (s₁ : Session), normalizeHosts o.hosts = .ok hosts ∧
      c = ⟨o.maxRetries, o.backoff, o.collector, o.carriesToken⟩ ∧
      s' = s₁.setConnections hosts o.credentials ∧ s₁.journal.sent = s.journal.sent ∧
      s₁.isCancelled = s.isCancelled := by
  simp only [build, bind_eq_ok] at h
  obtain ⟨hosts, hhosts, h⟩ := h
  cases h
  refine ⟨hosts, _, hhosts, rfl, rfl, ?_, ?_⟩ <;> split <;> split <;> rfl

theorem build_error {e : RequestError} (h : o.build s = .error e) :
    normalizeHosts o.hosts = .error e := by
  simp only [build, bind, Except.bind] at h
  split at h
  next hhosts =>
    cases h
    exact hhosts
  · cases h

end ClientOptions

end ClusterOutput
