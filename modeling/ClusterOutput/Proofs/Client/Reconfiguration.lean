/-
Replacing the nodes of a client. Whatever is done with a client and its clones, all
URLs of the pool are those of nodes (`Session.later_configured`), for every way of a
client to set them checks all of them first. If one is turned down, the session is
left as it was; else they are the nodes of all clients of the session
(`reconfigures_as_whole`).
-/
import ClusterOutput.Proofs.Client.Silence
import ClusterOutput.Proofs.Client.Validation

namespace ClusterOutput

/-! ## Lists of nodes -/

/-- The text names a node: apart from white space around it, it is an http or https URL with a
host. -/
def IsNode (raw : String) : Prop := ∃ u, Url.parse (Text.trim raw) = .ok u ∧ u.isWeb = true

/-- The URL of a node as it is kept: one that can be read as it stands, without a slash at its
end. -/
structure IsKept (url : String) : Prop where
  parses : ∃ u, Url.parse url = .ok u ∧ u.isWeb = true
  no_slash : url.toList.getLast? ≠ some '/'

theorem isKept_of_normalizeHost {raw url : String} (h : normalizeHost raw = .ok url) :
    IsKept url where
  parses := by
    obtain ⟨u, -, hparse, hweb, -⟩ := parse_normalizeHost h
    exact ⟨u, hparse, hweb⟩
  no_slash := by
    intro hlast
    have htrimmed : Text.trimEndBy (· == '/') url.toList = url.toList := by
      have := congrArg String.toList (trimSlashes_of_normalizeHost h)
      rwa [Text.trimSlashes, String.toList_ofList] at this
    have hne : url.toList ≠ [] := by
      intro hnil
      rw [hnil] at hlast
      cases hlast
    have hend := List.rdropWhile_eq_self_iff.mp htrimmed hne
    rw [List.getLast?_eq_some_getLast hne] at hlast
    rw [Option.some.inj hlast] at hend
    exact hend rfl

theorem isNode_iff {raw : String} : IsNode raw ↔ ∃ host, normalizeHost raw = .ok host :=
  ⟨fun ⟨u, hparse, hweb⟩ => ⟨_, normalizeHost_eq_ok.mpr ⟨u, hparse, hweb, rfl⟩⟩, fun ⟨_, h⟩ => by
    obtain ⟨u, hparse, hweb, -⟩ := normalizeHost_eq_ok.mp h
    exact ⟨u, hparse, hweb⟩⟩

theorem normalizeHost_node {raw : String} (h : IsNode raw) :
    normalizeHost raw = .ok (Text.trimSlashes (Text.trim raw)) := by
  obtain ⟨u, hparse, hweb⟩ := h
  exact normalizeHost_eq_ok.mpr ⟨u, hparse, hweb, rfl⟩

/-- A text that names no node is turned down, and shown. -/
theorem normalizeHost_refused {raw : String} (h : ¬IsNode raw) :
    ∃ why, normalizeHost raw = .error (.invalidUrl (Text.trim raw ++ ": " ++ why)) := by
  unfold normalizeHost
  cases hparse : Url.parse (Text.trim raw) with
  | error fault => exact ⟨fault.message, by simp only [hparse]⟩
  | ok u =>
    have hweb : u.isWeb = false := by
      by_contra hweb
      exact h ⟨u, hparse, by simpa using hweb⟩
    refine ⟨"expected an http(s) URL with a host", ?_⟩
    simp only [hparse, hweb, Bool.false_eq_true, if_false, String.append_assoc]
    rfl

theorem normalizeHosts_nodes {raws : List String} (h : ∀ raw ∈ raws, IsNode raw) :
    normalizeHosts raws = .ok (raws.map fun raw => Text.trimSlashes (Text.trim raw)) := by
  induction raws with
  | nil => rfl
  | cons raw raws ih =>
    rw [List.forall_mem_cons] at h
    rw [normalizeHosts, normalizeHost_node h.1, ih h.2]
    rfl

/-- The first text that names no node is reported. -/
theorem normalizeHosts_refused {front : List String} (hfront : ∀ raw ∈ front, IsNode raw)
    {bad : String} {e : RequestError} (hbad : normalizeHost bad = .error e) (back : List String) :
    normalizeHosts (front ++ bad :: back) = .error e := by
  induction front with
  | nil =>
    rw [List.nil_append, normalizeHosts, hbad]
    rfl
  | cons raw front ih =>
    rw [List.forall_mem_cons] at hfront
    rw [List.cons_append, normalizeHosts, normalizeHost_node hfront.1, ih hfront.2]
    rfl

/-- A list that holds a text that names no node has a first one. -/
theorem first_refused {raws : List String} (h : ∃ raw ∈ raws, ¬IsNode raw) :
    ∃ front bad back, raws = front ++ bad :: back ∧ (∀ raw ∈ front, IsNode raw) ∧ ¬IsNode bad := by
  induction raws with
  | nil =>
    obtain ⟨raw, hraw, -⟩ := h
    cases hraw
  | cons first raws ih =>
    by_cases hfirst : IsNode first
    · have hrest : ∃ raw ∈ raws, ¬IsNode raw := by
        obtain ⟨raw, hraw, hbad⟩ := h
        rcases List.mem_cons.mp hraw with rfl | hraw
        · exact absurd hfirst hbad
        · exact ⟨raw, hraw, hbad⟩
      obtain ⟨front, bad, back, rfl, hfront, hbad⟩ := ih hrest
      exact ⟨first :: front, bad, back, rfl, List.forall_mem_cons.mpr ⟨hfirst, hfront⟩, hbad⟩
    · exact ⟨[], first, raws, rfl, List.forall_mem_nil _, hfirst⟩

theorem freshSlots_credentials {credentials : Option Credentials} {id : Nat} {urls : List String} :
    ∀ slot ∈ Pool.freshSlots credentials id urls, slot.connection.credentials = credentials := by
  induction urls generalizing id with
  | nil => exact List.forall_mem_nil _
  | cons url urls ih => exact List.forall_mem_cons.mpr ⟨rfl, ih⟩

/-! ## All that clients do -/

/-- Connections are set at the pool itself, where nothing checks them. -/
def Deed.isUnchecked : Deed → Bool
  | pool _ (.setConnections ..) => true
  | _ => false

section

variable {world : World} {s s' : Session}

theorem Client.Tells.keeps_configured {α : Type} {c : Client} {r : Except RequestError α × Session}
    (h : c.Tells world s r) (hs : s.Configured) : r.2.Configured := by
  obtain ⟨hist, -, hran⟩ := h
  exact .used hs hran

theorem Session.call_keeps_configured {collector : Option Collector} {asked : PoolCall}
    (hchecked : (Deed.pool collector asked).isUnchecked = false) (hs : s.Configured) :
    (s.call collector asked).2.Configured := by
  -- no call depends on a world
  have world : World := ⟨.dead, fun _ => false⟩
  cases asked with
  | setConnections => cases hchecked
  | take =>
    simp only [Session.call]
    split
    · exact hs
    next htake => exact .used hs (Session.did_take world htake)
  | markDead conn => exact .used hs (Session.did_markDead world s collector conn)
  | markLive conn => exact .used hs (Session.did_markLive world s collector conn)
  | health | urls | size | liveCount => exact hs

theorem Client.setConnections_keeps_configured (urls : List String)
    (credentials : Option Credentials) (hs : s.Configured) :
    (Client.setConnections urls credentials s).2.Configured := by
  cases h : normalizeHosts urls with
  | error e =>
    rw [Client.setConnections, h]
    exact hs
  | ok hosts =>
    have hset : Client.setConnections urls credentials s =
        (.ok (), (Client.setConnections urls credentials s).2) := by
      rw [Client.setConnections, h]
    exact .replaced hset

theorem Deed.keeps_configured (d : Deed) (world : World) (hchecked : d.isUnchecked = false)
    (hs : s.Configured) : (d.act world s).Configured := by
  cases d with
  | ask a => exact (Client.serve_tells a world s).keeps_configured hs
  | index c | delete c | createIndex c | search c =>
    exact (Client.reading_tells c world _ _ _ _ _ _).keeps_configured
      (.used hs (Session.did_log world s _))
  | refresh c => exact (Client.reading_tells c world _ _ _ _ _ _).keeps_configured hs
  | perform c conn method url payload =>
    obtain ⟨x, -, -, hdid⟩ := Client.perform_marks c world conn method url payload s
    exact .used hs hdid
  | step a stage =>
    obtain ⟨steps, sent, hdid⟩ := a.resume_did world stage s
    exact .used hs hdid
  | setMaxRetries c n =>
    simp only [Deed.act, Client.setMaxRetries]
    split
    · exact .used hs (Session.did_log world s _)
    · exact hs
  | setConnections urls credentials => exact Client.setConnections_keeps_configured urls credentials hs
  | pool collector asked => exact Session.call_keeps_configured hchecked hs
  | cancel => exact .used hs (Session.did_cancel world s)

/-- Whatever is done with clients, the connections are those that a client set. -/
theorem Session.later_configured {deeds : List (World × Deed)}
    (hchecked : ∀ turn ∈ deeds, turn.2.isUnchecked = false) (hs : s.Configured) :
    (s.later deeds).Configured := by
  induction deeds generalizing s with
  | nil => exact hs
  | cons turn deeds ih =>
    rw [List.forall_mem_cons] at hchecked
    exact ih hchecked.2 (turn.2.keeps_configured turn.1 hchecked.1 hs)

/-- The URLs of the pool are kept ones. -/
theorem Session.Configured.urls_kept (h : s.Configured) : ∀ url ∈ s.pool.urls, IsKept url := by
  intro url hurl
  obtain ⟨slot, hslot, rfl⟩ := List.mem_map.mp hurl
  obtain ⟨raw, hraw⟩ := h.accepted slot.connection (List.mem_map_of_mem hslot)
  exact isKept_of_normalizeHost hraw

end

/-! ## Setting the connections of a client -/

/-- New nodes of all clients of a session: as they are kept, in their order, all of them live and
with the same credentials. -/
structure Session.HasNodes (s : Session) (raws : List String) (credentials : Option Credentials) :
    Prop where
  urls : s.pool.urls = raws.map fun raw => Text.trimSlashes (Text.trim raw)
  live : ∀ slot ∈ s.pool.slots, slot.isLive = true
  credentials : ∀ slot ∈ s.pool.slots, slot.connection.credentials = credentials

theorem Client.setConnections_nodes {raws : List String} (h : ∀ raw ∈ raws, IsNode raw)
    (credentials : Option Credentials) (s : Session) :
    (Client.setConnections raws credentials s).1 = .ok () ∧
      (Client.setConnections raws credentials s).2.HasNodes raws credentials := by
  have hhosts := normalizeHosts_nodes h
  rw [Client.setConnections, hhosts]
  refine ⟨rfl, setConnections_urls hhosts s.pool credentials, fun slot hslot => ?_,
    freshSlots_credentials⟩
  obtain ⟨-, -, hhealth, -⟩ := Pool.mem_freshSlots hslot
  rw [Slot.isLive, hhealth]
  rfl

/-- **The nodes of a client are replaced as a whole.** After a client was built, by options or for
nodes, let clients of its session do anything, but let nobody set connections at the pool itself.
Then every URL of the pool is an http or https URL with a host, and has no slash at its end. If a
client is given nodes one of which is none, the first such is reported, and the session is left as it
was. Else they are the nodes of all clients of the session, in their order, live, and with the new
credentials. -/
theorem reconfigures_as_whole {c : Client} {s₀ s₁ : Session} {deeds : List (World × Deed)}
    (hbuilt : (∃ o : ClientOptions, o.build s₀ = .ok (c, s₁)) ∨
      ∃ hosts credentials, Client.ofHosts hosts credentials s₀ = .ok (c, s₁))
    (hchecked : ∀ turn ∈ deeds, turn.2.isUnchecked = false) :
    let s := s₁.later deeds
    (∀ url ∈ s.pool.urls, IsKept url) ∧
    (∀ raws credentials, (∃ raw ∈ raws, ¬IsNode raw) →
      ∃ front bad back why, raws = front ++ bad :: back ∧ (∀ raw ∈ front, IsNode raw) ∧
        ¬IsNode bad ∧ Client.setConnections raws credentials s =
          (.error (.invalidUrl (Text.trim bad ++ ": " ++ why)), s)) ∧
    ∀ raws credentials, (∀ raw ∈ raws, IsNode raw) →
      (Client.setConnections raws credentials s).1 = .ok () ∧
        (Client.setConnections raws credentials s).2.HasNodes raws credentials := by
  intro s
  have hconfigured : s₁.Configured := by
    rcases hbuilt with ⟨o, hbuild⟩ | ⟨hosts, credentials, hbuild⟩ <;> exact .built hbuild
  refine ⟨(Session.later_configured hchecked hconfigured).urls_kept, ?_, ?_⟩
  · intro raws credentials hbad
    obtain ⟨front, bad, back, rfl, hfront, hbad⟩ := first_refused hbad
    obtain ⟨why, hwhy⟩ := normalizeHost_refused hbad
    refine ⟨front, bad, back, why, rfl, hfront, hbad, ?_⟩
    rw [Client.setConnections, normalizeHosts_refused hfront hwhy]
  · exact fun raws credentials h => Client.setConnections_nodes h credentials s

/-- A node is kept with the space behind its slash. A request on it fails, and it is not replaced
where one of two others is no node. -/
theorem reconfigures_as_whole_refused :
    let o : ClientOptions := { ClientOptions.default with hosts := [" http://a/ / "] }
    let deeds : List (World × Deed) :=
      [(.down, .ask .search), (.down, .setConnections ["http://b", "nonsense"] none)]
    ∃ c s₁, o.build .start = .ok (c, s₁) ∧ s₁.pool.urls = ["http://a/ "] ∧
      (∀ turn ∈ deeds, turn.2.isUnchecked = false) ∧
      (∀ url ∈ (s₁.later deeds).pool.urls, IsKept url) ∧
      (Client.setConnections ["nonsense", "http://b"] none (s₁.later deeds)).2 = s₁.later deeds ∧
      (Client.setConnections ["http://b//"] none (s₁.later deeds)).2.pool.urls = ["http://b"] := by
  intro o deeds
  have hhosts : normalizeHosts o.hosts = .ok ["http://a/ "] := ok_of_toOption (by decide +kernel)
  obtain ⟨c, s₁, hbuild, hurls, -⟩ := ClientOptions.build_nodes hhosts .start
  have hchecked : ∀ turn ∈ deeds, turn.2.isUnchecked = false := by simp [deeds, Deed.isUnchecked]
  obtain ⟨hkept, hrefused, hset⟩ := reconfigures_as_whole (.inl ⟨o, hbuild⟩) hchecked
  have hnode : IsNode "http://b//" :=
    isNode_iff.mpr ⟨"http://b", ok_of_toOption (by decide +kernel)⟩
  have hbad : ¬IsNode "nonsense" := by
    rw [isNode_iff]
    rintro ⟨host, hhost⟩
    have hnone : (normalizeHost "nonsense").toOption = none := by decide +kernel
    rw [hhost] at hnone
    cases hnone
  refine ⟨c, s₁, hbuild, hurls, hchecked, hkept, ?_, ?_⟩
  · obtain ⟨_, _, _, _, -, -, -, hsame⟩ :=
      hrefused ["nonsense", "http://b"] none ⟨"nonsense", List.mem_cons_self, hbad⟩
    rw [hsame]
  · rw [(hset ["http://b//"] none (List.forall_mem_singleton.mpr hnode)).2.urls]
    decide +kernel

end ClusterOutput
