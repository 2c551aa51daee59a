/-
Which settings are made (`build_accepts`): those whose hosts are URLs of nodes,
whose password has a user name, and whose connection settings are within bounds.

Two bounds are compared in whole units: the part of a second by which a timeout
exceeds the longest one is not seen, nor the part of a millisecond of a pause
(`overlong_accepted`). It makes no difference where durations are whole in the unit
in which files and variables give them.
-/
import ClusterOutput.Proofs.Client.Reconfiguration
import ClusterOutput.Proofs.Config.Rereading

namespace ClusterOutput

/-! ## Bounds -/

instance : LE Duration := ⟨fun d e => d.nanoseconds ≤ e.nanoseconds⟩

instance : LT Duration := ⟨fun d e => d.nanoseconds < e.nanoseconds⟩

namespace Duration

variable {d : Duration} {n : Nat}

/-- Whole seconds reach a number of them as the exact span does. -/
theorem le_seconds : n ≤ d.seconds ↔ ofSeconds n ≤ d := Nat.le_div_iff_mul_le (by decide)

theorem seconds_lt : d.seconds < n ↔ d < ofSeconds n := Nat.div_lt_iff_lt_mul (by decide)

theorem millis_lt : d.millis < n ↔ d < ofMillis n := Nat.div_lt_iff_lt_mul (by decide)

end Duration

/-- A whole number of units that is below the next one after a bound is within the bound. -/
theorem whole_le {unit n bound : Nat} (h : n * unit < (bound + 1) * unit) :
    n * unit ≤ bound * unit :=
  Nat.mul_le_mul_right _ (Nat.le_of_lt_succ (Nat.lt_of_mul_lt_mul_right h))

namespace ConnectionSettings

/-- The connection settings are within bounds, but for the longest timeout and the longest pause. -/
structure IsSound (c : ConnectionSettings) : Prop where
  timeout_least : .ofSeconds 1 ≤ c.timeout
  connectTimeout_pos : .zero < c.connectTimeout
  connectTimeout_most : c.connectTimeout ≤ c.timeout
  maxRetries_most : c.maxRetries ≤ 100

/-- The connection settings are within bounds, as exact durations. -/
structure IsBounded (c : ConnectionSettings) : Prop extends c.IsSound where
  timeout_most : c.timeout ≤ .ofSeconds 3600
  retryBackoff_most : c.retryBackoff ≤ .ofMillis 60000

/-- The connection settings are within bounds, the longest timeout in whole seconds and the longest
pause in whole milliseconds. -/
structure IsTaken (c : ConnectionSettings) : Prop extends c.IsSound where
  timeout_most : c.timeout < .ofSeconds 3601
  retryBackoff_most : c.retryBackoff < .ofMillis 60001

variable {c : ConnectionSettings}

theorem IsBounded.isTaken (h : c.IsBounded) : c.IsTaken where
  toIsSound := h.toIsSound
  timeout_most := Nat.lt_of_le_of_lt h.timeout_most (by decide)
  retryBackoff_most := Nat.lt_of_le_of_lt h.retryBackoff_most (by decide)

/-- Whole units cannot exceed a bound by a part of one. -/
theorem IsTaken.isBounded (h : c.IsTaken) (htimeout : ∃ n, c.timeout = .ofSeconds n)
    (hbackoff : ∃ n, c.retryBackoff = .ofMillis n) : c.IsBounded where
  toIsSound := h.toIsSound
  timeout_most := by
    obtain ⟨n, hn⟩ := htimeout
    have hmost := h.timeout_most
    rw [hn] at hmost ⊢
    exact whole_le hmost
  retryBackoff_most := by
    obtain ⟨n, hn⟩ := hbackoff
    have hmost := h.retryBackoff_most
    rw [hn] at hmost ⊢
    exact whole_le hmost

end ConnectionSettings

open ConnectionSettings (IsTaken IsBounded)

/-- Hosts, credentials and connection settings are right, the last by these bounds. -/
structure IsRight (bounds : ConnectionSettings → Prop) (hosts : List String) (auth : AuthSettings)
    (c : ConnectionSettings) : Prop where
  hosts : ∀ raw ∈ hosts, IsNode raw
  credentials : auth.password.isSome = true → auth.username.isSome = true
  connection : bounds c

/-- What was supplied is right, with defaults for what was not. -/
def Loader.IsRight (l : Loader) (bounds : ConnectionSettings → Prop) : Prop :=
  ClusterOutput.IsRight bounds (l.hosts.getD [defaultHost]) ⟨l.username, l.password⟩ (l.connection [])

/-- The settings are right. -/
def Settings.IsRight (s : Settings) (bounds : ConnectionSettings → Prop) : Prop :=
  ClusterOutput.IsRight bounds s.connection.hosts s.auth s.connection

variable {bounds bounds' : ConnectionSettings → Prop}

theorem IsRight.imp {hosts : List String} {auth : AuthSettings} {c : ConnectionSettings}
    (h : IsRight bounds hosts auth c) (hbounds : bounds c → bounds' c) :
    IsRight bounds' hosts auth c where
  hosts := h.hosts
  credentials := h.credentials
  connection := hbounds h.connection

/-! ## Checking -/

/-- Hosts that a client takes are nodes. -/
theorem nodes_of_normalizeHosts {raws hosts : List String} (h : normalizeHosts raws = .ok hosts) :
    ∀ raw ∈ raws, IsNode raw := by
  by_contra hnot
  push Not at hnot
  obtain ⟨front, bad, back, rfl, hfront, hbad⟩ := first_refused hnot
  obtain ⟨why, hbad⟩ := normalizeHost_refused hbad
  rw [normalizeHosts_refused hfront hbad back] at h
  cases h

namespace Loader

variable {l : Loader}

theorem finalHosts_accepts :
    (∃ hosts, l.finalHosts = .ok hosts) ↔ ∀ raw ∈ l.hosts.getD [defaultHost], IsNode raw := by
  simp only [isNode_iff, ← checkHosts_accepts, finalHosts]
  cases l.hosts with
  | some hosts => rfl
  | none => exact ⟨fun _ => ⟨_, checkHosts_default⟩, fun _ => ⟨_, rfl⟩⟩

/-- The hosts that are kept are nodes too. -/
theorem finalHosts_nodes {hosts : List String} (h : l.finalHosts = .ok hosts) :
    ∀ host ∈ hosts, IsNode host := by
  obtain ⟨raws, hraws⟩ := finalHosts_checked h
  exact nodes_of_normalizeHosts (normalizeHosts_checkHosts hraws)

/-- Whole seconds do not exceed the longest timeout as long as the exact span is below the next one. -/
theorem checkConnection_takes {c : ConnectionSettings} :
    checkConnection c = .ok () ↔ c.IsTaken := by
  rw [checkConnection_eq_ok, ← Nat.lt_succ_iff (m := c.timeout.seconds),
    ← Nat.lt_succ_iff (m := c.retryBackoff.millis), Duration.seconds_lt, Duration.millis_lt,
    ← Nat.succ_le_iff (n := c.timeout.seconds), Duration.le_seconds]
  constructor
  · rintro ⟨hleast, hmost, hpos, hconnect, hretries, hpause⟩
    exact ⟨⟨hleast, hpos, hconnect, hretries⟩, hmost, hpause⟩
  · rintro ⟨⟨hleast, hpos, hconnect, hretries⟩, hmost, hpause⟩
    exact ⟨hleast, hmost, hpos, hconnect, hretries, hpause⟩

theorem credentials_right :
    ¬ (l.password.isSome ∧ l.username.isNone) ↔
      (l.password.isSome = true → l.username.isSome = true) := by
  cases l.password <;> cases l.username <;> simp

/-- Settings are made of what is right. -/
theorem build_iff : (∃ made, l.build = .ok made) ↔ l.IsRight IsTaken := by
  constructor
  · rintro ⟨made, hbuild⟩
    obtain ⟨hosts, hhosts, hauth, hconnection, -⟩ := build_eq_ok.mp hbuild
    exact ⟨finalHosts_accepts.mp ⟨hosts, hhosts⟩, credentials_right.mp hauth,
      checkConnection_takes.mp hconnection⟩
  · rintro ⟨hhosts, hauth, hconnection⟩
    obtain ⟨hosts, hhosts⟩ := finalHosts_accepts.mpr hhosts
    exact ⟨_, build_eq_ok.mpr ⟨hosts, hhosts, credentials_right.mpr hauth,
      checkConnection_takes.mpr hconnection, rfl⟩⟩

/-- Settings that are made are right. -/
theorem build_isRight {settings : Settings} {events : List Event}
    (h : l.build = .ok (settings, events)) : settings.IsRight IsTaken := by
  obtain ⟨hosts, hhosts, hauth, hconnection, hmade⟩ := build_eq_ok.mp h
  cases hmade
  have hchecked : checkConnection (l.connection hosts) = .ok () := hconnection
  exact ⟨finalHosts_nodes hhosts, credentials_right.mp hauth, checkConnection_takes.mp hchecked⟩

/-- What is supplied in whole units is within bounds if it is accepted. -/
theorem connection_isBounded (hunits : l.layer.InUnits) (h : (l.connection []).IsTaken) :
    (l.connection []).IsBounded :=
  h.isBounded (getD_inUnits (hunits .timeout) ⟨30, rfl⟩) (getD_inUnits (hunits .retryBackoff) ⟨0, rfl⟩)

end Loader

/-- **Settings are made of what is right, and are right**: their hosts are nodes, a password has a user
name, and the connection settings are within bounds. The timeout may exceed the longest one by part of
a second, and the pause by part of a millisecond. What is supplied in whole seconds and milliseconds is
held to the bounds exactly. -/
theorem build_accepts (l : Loader) :
    ((∃ made, l.build = .ok made) ↔ l.IsRight IsTaken) ∧
    (∀ settings events, l.build = .ok (settings, events) → settings.IsRight IsTaken) ∧
    (l.layer.InUnits → ((∃ made, l.build = .ok made) ↔ l.IsRight IsBounded) ∧
      ∀ settings events, l.build = .ok (settings, events) → settings.IsRight IsBounded) := by
  refine ⟨Loader.build_iff, fun _ _ => Loader.build_isRight, fun hunits => ⟨?_, ?_⟩⟩
  · rw [Loader.build_iff]
    exact ⟨fun h => h.imp (Loader.connection_isBounded hunits), fun h => h.imp (·.isTaken)⟩
  · intro settings events h
    obtain ⟨⟨n, -, hn⟩, -, -, k, -, hk⟩ := Loader.build_inUnits hunits h
    exact (Loader.build_isRight h).imp (·.isBounded ⟨n, hn⟩ ⟨k, hk⟩)

/-- All at their bounds: two timeouts of an hour, a hundred attempts and a pause of a minute. -/
theorem build_accepts_longest :
    let l : Loader :=
      { Loader.empty with
        hosts := some [" http://es1:9200/"]
        username := some "u"
        password := some ⟨"p"⟩
        timeout := some (.ofSeconds 3600)
        connectTimeout := some (.ofSeconds 3600)
        maxRetries := some 100
        retryBackoff := some (.ofMillis 60000) }
    l.layer.InUnits ∧ l.IsRight IsBounded ∧
      ∃ settings events, l.build = .ok (settings, events) ∧
        settings.connection.hosts = ["http://es1:9200"] ∧ settings.IsRight IsBounded := by
  intro l
  have hunits : l.layer.InUnits := by
    intro k v hv
    cases k with
    | timeout => exact ⟨3600, (Option.some.inj hv).symm⟩
    | connectTimeout => exact ⟨3600, (Option.some.inj hv).symm⟩
    | retryBackoff => exact ⟨60000, (Option.some.inj hv).symm⟩
    | hosts | username | password | skipVerify | maxRetries | index => trivial
  have hmade : l.build.toOption.map (·.1.connection.hosts) = some ["http://es1:9200"] := by
    decide +kernel
  obtain ⟨⟨settings, events⟩, hsettings, hhosts⟩ := Option.map_eq_some_iff.mp hmade
  have hbuild := ok_of_toOption hsettings
  obtain ⟨haccepts, hright⟩ := (build_accepts l).2.2 hunits
  exact ⟨hunits, haccepts.mp ⟨_, hbuild⟩, settings, events, hbuild, hhosts,
    hright settings events hbuild⟩

/-- A timeout of an hour and a nanosecond is accepted, and so is a pause of a minute and a
nanosecond. -/
theorem overlong_accepted :
    let late := Loader.empty.withTimeout ⟨3600000000001⟩
    let slow := Loader.empty.withRetryBackoff ⟨60000000001⟩
    ((∃ made, late.build = .ok made) ∧ ¬ late.IsRight IsBounded) ∧
      (∃ made, slow.build = .ok made) ∧ ¬ slow.IsRight IsBounded := by
  refine ⟨⟨⟨_, rfl⟩, fun h => ?_⟩, ⟨_, rfl⟩, fun h => ?_⟩
  · exact absurd h.connection.timeout_most (by decide)
  · exact absurd h.connection.retryBackoff_most (by decide)

end ClusterOutput
