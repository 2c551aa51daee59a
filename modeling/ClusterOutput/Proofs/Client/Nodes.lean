/-
The nodes of a client. Whichever way a client sets the connections of its pool,
each of them has the URL of a node as it is kept, and what is done with the pool
later changes no URL (`Session.Configured.accepted`).
-/
import ClusterOutput.Proofs.Client.Building
import ClusterOutput.Proofs.Client.Naming

namespace ClusterOutput

/-! ## URLs as they are kept -/

theorem trimSlashes_trimSlashes (s : String) :
    Text.trimSlashes (Text.trimSlashes s) = Text.trimSlashes s := by
  unfold Text.trimSlashes
  rw [String.toList_ofList]
  exact congrArg String.ofList (List.rdropWhile_idempotent _ _)

/-- What is kept of the URL of a node has no slash at its end. -/
theorem trimSlashes_of_normalizeHost {raw host : String} (h : normalizeHost raw = .ok host) :
    Text.trimSlashes host = host := by
  obtain ⟨-, -, -, rfl⟩ := normalizeHost_ok h
  exact trimSlashes_trimSlashes _

/-- Every URL that is kept is that of a node. -/
theorem normalizeHosts_accepted {raws hosts : List String} (h : normalizeHosts raws = .ok hosts) :
    ∀ host ∈ hosts, ∃ raw, normalizeHost raw = .ok host := by
  induction raws generalizing hosts with
  | nil =>
    cases h
    exact List.forall_mem_nil _
  | cons raw raws ih =>
    simp only [normalizeHosts, bind_eq_ok] at h
    obtain ⟨host, hhost, rest, hrest, h⟩ := h
    cases h
    exact List.forall_mem_cons.mpr ⟨⟨raw, hhost⟩, ih hrest⟩

/-! ## Connections -/

/-- Connections keep URLs without a slash at the end as they are. -/
theorem freshSlots_urls (credentials : Option Credentials) (id : Nat) {urls : List String}
    (h : ∀ url ∈ urls, Text.trimSlashes url = url) :
    (Pool.freshSlots credentials id urls).map (·.connection.url) = urls := by
  induction urls generalizing id with
  | nil => rfl
  | cons url urls ih =>
    rw [List.forall_mem_cons] at h
    rw [Pool.freshSlots, List.map_cons, ih _ h.2, h.1]

theorem setConnections_urls {raws hosts : List String} (h : normalizeHosts raws = .ok hosts)
    (p : Pool) (credentials : Option Credentials) :
    (p.setConnections hosts credentials).urls = hosts := by
  refine freshSlots_urls credentials p.nextId fun host hhost => ?_
  obtain ⟨raw, hraw⟩ := normalizeHosts_accepted h host hhost
  exact trimSlashes_of_normalizeHost hraw

theorem setConnections_accepted {raws hosts : List String} (h : normalizeHosts raws = .ok hosts)
    (p : Pool) (credentials : Option Credentials) :
    ∀ d ∈ (p.setConnections hosts credentials).connections, ∃ raw, normalizeHost raw = .ok d.url := by
  intro d hd
  obtain ⟨slot, hslot, rfl⟩ := List.mem_map.mp hd
  refine normalizeHosts_accepted h _ ?_
  rw [← setConnections_urls h p credentials]
  exact List.mem_map_of_mem hslot

/-- The connections were set by a client: when it was built, or later. Whatever else was done since
leaves them as they are. -/
inductive Session.Configured : Session → Prop
  | built {o : ClientOptions} {s s' : Session} {c : Client} (hbuild : o.build s = .ok (c, s')) :
    Configured s'
  | replaced {urls : List String} {credentials : Option Credentials} {s s' : Session}
    (hset : Client.setConnections urls credentials s = (.ok (), s')) : Configured s'
  | used {world : World} {s s' : Session} {steps : List PoolStep} {sent : List Exchange}
    (h : Configured s) (hdid : s.Did world steps sent s') : Configured s'

/-- The connections of a client are those of nodes. -/
theorem Session.Configured.accepted {s : Session} (h : s.Configured) :
    ∀ d ∈ s.pool.connections, ∃ raw, normalizeHost raw = .ok d.url := by
  induction h with
  | built hbuild =>
    obtain ⟨hosts, s₁, hhosts, -, rfl, -⟩ := ClientOptions.build_ok hbuild
    exact setConnections_accepted hhosts s₁.pool _
  | @replaced urls credentials s s' hset =>
    unfold Client.setConnections at hset
    split at hset
    · cases hset
    next hosts hhosts =>
      cases hset
      exact setConnections_accepted hhosts s.pool credentials
  | used _ hdid ih =>
    rw [hdid.connections]
    exact ih

end ClusterOutput
