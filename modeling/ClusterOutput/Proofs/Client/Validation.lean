/-
The two checks of a node's URL. Settings keep the text that a URL is read to, and a
client keeps the text that it is given, but they turn down the same texts, and what
settings keep is what a client keeps of it. So a client is built from any settings,
and its nodes are the hosts of these (`validators_agree`).
-/
import ClusterOutput.Proofs.Client.Nodes
import ClusterOutput.Proofs.Config.Layers
import ClusterOutput.Proofs.Url.Rereading

namespace ClusterOutput

/-! ## One host -/

/-- A text that is visible throughout has nothing around it. -/
theorem trim_visible {s : String} (h : ∀ c ∈ s.toList, Url.isVisible c = true) : Text.trim s = s := by
  have hkept (c : Char) (hc : c ∈ s.toList) : Text.isBlank c = false := (Url.isVisible_plain (h c hc)).2
  have hdrop : s.toList.dropWhile Text.isBlank = s.toList := by
    cases hs : s.toList with
    | nil => rfl
    | cons c cs =>
      have hc : Text.isBlank c = false := hkept c (hs ▸ List.mem_cons_self)
      rw [List.dropWhile_cons_of_neg (by simp [hc])]
  rw [Text.trim, Text.trimChars, hdrop,
    Url.trimEndBy_eq_self fun c hc => hkept c (List.mem_of_getLast? hc), String.ofList_toList]

/-- Settings keep the text that the URL of a node is read to. -/
theorem Loader.checkHost_eq_ok {raw host : String} : Loader.checkHost raw = .ok host ↔
    ∃ u, Url.parse (Text.trim raw) = .ok u ∧ u.isWeb = true ∧ Text.trimSlashes u.text = host := by
  unfold Loader.checkHost
  cases hparse : Url.parse (Text.trim raw) with
  | error fault => simp [hparse]
  | ok u =>
    simp only [hparse, Except.ok.injEq, exists_eq_left', Url.isWeb_iff]
    split
    next hscheme => simp [hscheme]
    next hscheme =>
      split
      next hhost => simp [hhost]
      next hhost => simp [hhost, or_iff_not_and_not.mpr hscheme]

/-- A client keeps the text that it is given. -/
theorem normalizeHost_eq_ok {raw host : String} : normalizeHost raw = .ok host ↔
    ∃ u, Url.parse (Text.trim raw) = .ok u ∧ u.isWeb = true ∧
      Text.trimSlashes (Text.trim raw) = host := by
  refine ⟨normalizeHost_ok, fun h => ?_⟩
  obtain ⟨u, hparse, hweb, rfl⟩ := h
  simp [normalizeHost, hparse, hweb]

/-- Both accept the URLs of nodes. -/
theorem checkHost_accepts {raw : String} :
    (∃ host, Loader.checkHost raw = .ok host) ↔ ∃ host, normalizeHost raw = .ok host := by
  constructor
  · rintro ⟨host, h⟩
    obtain ⟨u, hparse, hweb, -⟩ := Loader.checkHost_eq_ok.mp h
    exact ⟨_, normalizeHost_eq_ok.mpr ⟨u, hparse, hweb, rfl⟩⟩
  · rintro ⟨host, h⟩
    obtain ⟨u, hparse, hweb, -⟩ := normalizeHost_eq_ok.mp h
    exact ⟨_, Loader.checkHost_eq_ok.mpr ⟨u, hparse, hweb, rfl⟩⟩

/-- What settings keep, a client keeps as it is. -/
theorem normalizeHost_checkHost {raw host : String} (h : Loader.checkHost raw = .ok host) :
    normalizeHost host = .ok host := by
  obtain ⟨u, hparse, hweb, rfl⟩ := Loader.checkHost_eq_ok.mp h
  obtain ⟨hvisible, v, hv, hvweb, -⟩ := Url.reread hparse hweb
  have hchars : (Text.trimSlashes u.text).toList = Text.trimEndBy (· == '/') u.chars := by
    rw [Text.trimSlashes, Url.text, String.toList_ofList, String.toList_ofList]
  rw [← hchars] at hvisible hv
  have htrim : Text.trim (Text.trimSlashes u.text) = Text.trimSlashes u.text := trim_visible hvisible
  refine normalizeHost_eq_ok.mpr ⟨v, ?_, hvweb, ?_⟩
  · rw [htrim]
    exact hv
  · rw [htrim]
    exact trimSlashes_trimSlashes _

/-! ## All hosts -/

/-- Settings accept a list of hosts if they accept each of them. -/
theorem checkHosts_accepts {raws : List String} :
    (∃ hosts, Loader.checkHosts raws = .ok hosts) ↔
      ∀ raw ∈ raws, ∃ host, normalizeHost raw = .ok host := by
  induction raws with
  | nil => exact ⟨fun _ => List.forall_mem_nil _, fun _ => ⟨[], rfl⟩⟩
  | cons raw raws ih =>
    rw [List.forall_mem_cons, ← ih, ← checkHost_accepts]
    simp only [Loader.checkHosts, bind_eq_ok]
    constructor
    · rintro ⟨-, host, hhost, hosts, hhosts, -⟩
      exact ⟨⟨host, hhost⟩, ⟨hosts, hhosts⟩⟩
    · rintro ⟨⟨host, hhost⟩, ⟨hosts, hhosts⟩⟩
      exact ⟨_, host, hhost, hosts, hhosts, rfl⟩

theorem normalizeHosts_checkHosts {raws hosts : List String} (h : Loader.checkHosts raws = .ok hosts) :
    normalizeHosts hosts = .ok hosts := by
  induction raws generalizing hosts with
  | nil =>
    cases h
    rfl
  | cons raw raws ih =>
    simp only [Loader.checkHosts, bind_eq_ok] at h
    obtain ⟨host, hhost, rest, hrest, h⟩ := h
    cases h
    rw [normalizeHosts, normalizeHost_checkHost hhost, ih hrest]
    rfl

/-! ## Settings -/

namespace Loader

variable {l : Loader}

/-- Settings are made if the hosts, the credentials and the connection settings are right. The last
two do not depend on the hosts. -/
theorem build_eq_ok {made : Settings × List Event} : l.build = .ok made ↔
    ∃ hosts, l.finalHosts = .ok hosts ∧ ¬ (l.password.isSome ∧ l.username.isNone) ∧
      checkConnection (l.connection []) = .ok () ∧
      (⟨l.connection hosts, ⟨l.username, l.password⟩, l.index.getD defaultIndex⟩,
        warnings (l.connection hosts)) = made := by
  simp only [build, bind_eq_ok]
  constructor
  · rintro ⟨hosts, hhosts, h⟩
    split at h
    · cases h
    next hauth =>
      obtain ⟨_, hconnection, h⟩ := bind_eq_ok.mp h
      exact ⟨hosts, hhosts, hauth, hconnection, Except.ok.inj h⟩
  · rintro ⟨hosts, hhosts, hauth, hconnection, rfl⟩
    have hchecked : checkConnection (l.connection hosts) = .ok () := hconnection
    refine ⟨hosts, hhosts, ?_⟩
    rw [if_neg hauth, hchecked]
    rfl

theorem finalHosts_checked {hosts : List String} (h : l.finalHosts = .ok hosts) :
    ∃ raws, checkHosts raws = .ok hosts := by
  unfold finalHosts at h
  split at h
  next raws _ => exact ⟨raws, h⟩
  · cases h
    exact ⟨[defaultHost], checkHosts_default⟩

end Loader

/-! ## Clients -/

/-- A client is built whose nodes are right, and they are live. -/
theorem ClientOptions.build_nodes {o : ClientOptions} {hosts : List String}
    (h : normalizeHosts o.hosts = .ok hosts) (s : Session) :
    ∃ c s', o.build s = .ok (c, s') ∧ s'.pool.urls = hosts ∧
      ∀ slot ∈ s'.pool.slots, slot.isLive = true := by
  have hbuild : ∃ made, o.build s = .ok made := by
    rw [ClientOptions.build, h]
    exact ⟨_, rfl⟩
  obtain ⟨⟨c, s'⟩, hbuild⟩ := hbuild
  obtain ⟨hosts', s₁, hhosts, -, rfl, -⟩ := ClientOptions.build_ok hbuild
  obtain rfl : hosts = hosts' := Except.ok.inj (h.symm.trans hhosts)
  refine ⟨c, _, hbuild, setConnections_urls h s₁.pool o.credentials, fun slot hslot => ?_⟩
  obtain ⟨-, -, hhealth, -⟩ := Pool.mem_freshSlots hslot
  rw [Slot.isLive, hhealth]
  rfl

/-- **The checks of hosts agree**: settings accept a host if and only if a client does, alone and as
one of the hosts of settings that are right otherwise. From any settings that were made a client is
built, whatever else it is given, and the nodes of its pool are the hosts of the settings, as they
are and in their order, all live. -/
theorem validators_agree :
    (∀ raw, (∃ host, Loader.checkHost raw = .ok host) ↔ ∃ host, normalizeHost raw = .ok host) ∧
    (∀ (l : Loader) (hosts : List String), (∃ made, (l.withHosts []).build = .ok made) →
      ((∃ made, (l.withHosts hosts).build = .ok made) ↔
        ∀ raw ∈ hosts, ∃ host, normalizeHost raw = .ok host)) ∧
    (∀ (l : Loader) (settings : Settings) (events : List Event), l.build = .ok (settings, events) →
      ∀ (o : ClientOptions) (s : Session), ∃ c s', (o.ofSettings settings).build s = .ok (c, s') ∧
        s'.pool.urls = settings.connection.hosts ∧ ∀ slot ∈ s'.pool.slots, slot.isLive = true) := by
  refine ⟨fun raw => checkHost_accepts, fun l raws hothers => ?_,
    fun l settings events hbuild o s => ?_⟩
  · obtain ⟨_, hothers⟩ := hothers
    obtain ⟨-, -, hauth, hconnection, -⟩ := Loader.build_eq_ok.mp hothers
    rw [← checkHosts_accepts]
    constructor
    · rintro ⟨_, hbuild⟩
      obtain ⟨hosts, hhosts, -⟩ := Loader.build_eq_ok.mp hbuild
      exact ⟨hosts, hhosts⟩
    · rintro ⟨hosts, hhosts⟩
      exact ⟨_, Loader.build_eq_ok.mpr ⟨hosts, hhosts, hauth, hconnection, rfl⟩⟩
  · obtain ⟨hosts, hhosts, -, -, hmade⟩ := Loader.build_eq_ok.mp hbuild
    cases hmade
    obtain ⟨raws, hraws⟩ := Loader.finalHosts_checked hhosts
    exact ClientOptions.build_nodes (normalizeHosts_checkHosts hraws) s

/-- Two hosts with white space, slashes, an encoded letter and one that is not ASCII; and a text
that settings turn down because a client does. -/
theorem validators_agree_spelled :
    (∃ made, (Loader.empty.withHosts []).build = .ok made) ∧
    ¬ (∃ made, (Loader.empty.withHosts ["localhost:9200"]).build = .ok made) ∧
    ∃ settings events,
      (Loader.empty.withHosts [" HTTP://Ex%41mple.COM:80/a// ", "http://bücher.example/"]).build =
        .ok (settings, events) ∧
      settings.connection.hosts = ["http://example.com/a", "http://xn--bcher-kva.example"] ∧
      ∃ c s', (ClientOptions.default.ofSettings settings).build Session.start = .ok (c, s') ∧
        s'.pool.urls = settings.connection.hosts ∧ ∀ slot ∈ s'.pool.slots, slot.isLive = true := by
  have hnone : ∃ made, (Loader.empty.withHosts []).build = .ok made := ⟨_, rfl⟩
  have hdown : (normalizeHost "localhost:9200").toOption = none := by decide +kernel
  have hmade : ((Loader.empty.withHosts
      [" HTTP://Ex%41mple.COM:80/a// ", "http://bücher.example/"]).build.toOption.map
        (·.1.connection.hosts)) = some ["http://example.com/a", "http://xn--bcher-kva.example"] := by
    decide +kernel
  refine ⟨hnone, fun hbuild => ?_, ?_⟩
  · obtain ⟨host, hhost⟩ :=
      (validators_agree.2.1 _ _ hnone).mp hbuild "localhost:9200" (List.mem_singleton.mpr rfl)
    rw [hhost] at hdown
    cases hdown
  · obtain ⟨⟨settings, events⟩, hsettings, hhosts⟩ := Option.map_eq_some_iff.mp hmade
    have hbuild := ok_of_toOption hsettings
    exact ⟨settings, events, hbuild, hhosts,
      validators_agree.2.2 _ settings events hbuild ClientOptions.default Session.start⟩

end ClusterOutput
