/-
Settings survive being written and read again (`settings_reread`), passwords
included, if they fit the units in which they are written: whole seconds for
timeouts, whole milliseconds of 64 bits for the pause. What does not fit is
truncated (`Settings.truncated`).

All settings fit that were read from JSON, or made of files and variables: these
name durations in the same units.
-/
import ClusterOutput.Proofs.Client.Validation
import ClusterOutput.Proofs.Config.Layers
import ClusterOutput.Proofs.Json.Reading
import ClusterOutput.Proofs.Json.Records

namespace ClusterOutput

open Json (Takes)

/-! ## Units -/

namespace Duration

theorem seconds_ofSeconds (n : Nat) : (ofSeconds n).seconds = n :=
  Nat.mul_div_cancel n (by decide)

theorem millis_ofMillis (n : Nat) : (ofMillis n).millis = n :=
  Nat.mul_div_cancel n (by decide)

/-- The duration without what is less than a second. -/
def inSeconds (d : Duration) : Duration := .ofSeconds d.seconds

/-- The duration without what is less than a millisecond, and no more milliseconds than 64 bits
can count. -/
def inMillis (d : Duration) : Duration := .ofMillis (d.millis % Text.wordLimit)

theorem inSeconds_ofSeconds (n : Nat) : (ofSeconds n).inSeconds = ofSeconds n := by
  rw [inSeconds, seconds_ofSeconds]

theorem inMillis_ofMillis {n : Nat} (h : n < Text.wordLimit) : (ofMillis n).inMillis = ofMillis n := by
  rw [inMillis, millis_ofMillis, Nat.mod_eq_of_lt h]

end Duration

/-! ## Members -/

section

variable {α β : Type} {n nesting : Nat}

/-- A reader that makes something of what another reads. -/
theorem Json.Takes.map {reader : Json.Reader α} {v : Json} {a : α}
    (h : Takes (reader nesting) v a) (f : α → β) :
    Takes (fun bytes => do let (a, rest) ← reader nesting bytes; .ok (f a, rest)) v (f a) := by
  intro style level bytes rest hskip hrest
  exact bind_eq_ok.mpr ⟨_, h style level hskip hrest, rfl⟩

theorem readSeconds_takes (nesting : Nat) (h : n < Text.wordLimit) :
    Takes (readSeconds nesting) (.int n) (.ofSeconds n) :=
  (Json.readUnsigned_takes "u64" nesting h).map Duration.ofSeconds

theorem readMillis_takes (nesting : Nat) (h : n < Text.wordLimit) :
    Takes (readMillis nesting) (.int n) (.ofMillis n) :=
  (Json.readUnsigned_takes "u64" nesting h).map Duration.ofMillis

/-- What may be missing is written as `null` where it is. -/
theorem Json.readOptional_takes {value : Json.Reader α} {write : α → Json} {o : Option α}
    (h : ∀ a ∈ o, Takes (value nesting) (write a) a)
    (hfloatless : ∀ a, (write a).isFloatless = true) (hne : ∀ a, write a ≠ .null) :
    Takes (Json.readOptional value nesting) (o.elim .null write) o := by
  cases o with
  | none => exact Json.readOptional_takes_none value nesting
  | some a => exact Json.readOptional_takes_some (h a rfl) (hfloatless a) (hne a)

theorem readText?_takes (nesting : Nat) (text : Option String) :
    Takes (Json.readOptional Json.readText nesting) (.ofText? text) text := by
  have hwrite : Json.ofText? text = text.elim .null .str := by cases text <;> rfl
  rw [hwrite]
  exact Json.readOptional_takes (fun s _ => Json.readText_takes nesting s) (fun _ => rfl)
    (fun _ => Json.noConfusion)

theorem readSecret?_takes (nesting : Nat) (secret : Option Secret) :
    Takes (readSecret? nesting) (.ofText? (secret.map (·.reveal))) secret := by
  have hread := (readText?_takes nesting (secret.map (·.reveal))).map (Option.map Secret.mk)
  rwa [Option.map_map, show Secret.mk ∘ (·.reveal) = id from rfl, Option.map_id] at hread

theorem readBool?_takes (nesting : Nat) (b : Option Bool) :
    Takes (Json.readOptional Json.readBool nesting) (.ofBool? b) b := by
  have hwrite : Json.ofBool? b = b.elim .null .bool := by cases b <;> rfl
  rw [hwrite]
  exact Json.readOptional_takes (fun b _ => Json.readBool_takes nesting b) (fun _ => rfl)
    (fun _ => Json.noConfusion)

theorem readUnsigned?_takes (expected : String) (nesting : Nat) {number : Option Nat}
    (h : ∀ n ∈ number, n < Text.wordLimit) :
    Takes (Json.readOptional (Json.readUnsigned expected) nesting) (.ofNat? number) number := by
  have hwrite : Json.ofNat? number = number.elim .null (.int ·) := by cases number <;> rfl
  rw [hwrite]
  exact Json.readOptional_takes (fun n hn => Json.readUnsigned_takes expected nesting (h n hn))
    (fun _ => rfl) (fun _ => Json.noConfusion)

theorem readUnsigned?_lt {expected : String} {number : Option Nat} {bytes rest : Bytes}
    (h : Json.readOptional (Json.readUnsigned expected) nesting bytes = .ok (number, rest)) :
    ∀ n ∈ number, n < Text.wordLimit := by
  unfold Json.readOptional at h
  split at h
  · split at h
    · obtain ⟨_, -, h⟩ := bind_eq_ok.mp h
      cases h
      exact fun _ hn => by cases hn
    · obtain ⟨⟨n, _⟩, hread, h⟩ := bind_eq_ok.mp h
      cases h
      rintro _ ⟨⟩
      exact Json.readUnsigned_lt hread
  · obtain ⟨⟨n, _⟩, hread, h⟩ := bind_eq_ok.mp h
    cases h
    rintro _ ⟨⟩
    exact Json.readUnsigned_lt hread

theorem ofTexts_isFloatless (texts : List String) : (Json.ofTexts texts).isFloatless = true := by
  rw [Json.ofTexts, Json.isFloatless_arr, List.forall_mem_map]
  exact fun _ _ => rfl

theorem readTexts_takes (nesting : Nat) (texts : List String) :
    Takes (Json.readList Json.readText (nesting + 1)) (.ofTexts texts) texts :=
  Json.readList_takes (fun s _ => Json.readText_takes nesting s) fun _ _ => rfl

theorem ofText?_isFloatless (text : Option String) : (Json.ofText? text).isFloatless = true := by
  cases text <;> rfl

theorem ofBool?_isFloatless (b : Option Bool) : (Json.ofBool? b).isFloatless = true := by
  cases b <;> rfl

theorem ofNat?_isFloatless (n : Option Nat) : (Json.ofNat? n).isFloatless = true := by
  cases n <;> rfl

end

/-! ## Records -/

namespace AuthSettings

theorem toJson_isFloatless (a : AuthSettings) : a.toJson.isFloatless = true := by
  rw [toJson, Json.isFloatless_obj]
  simp only [List.forall_mem_cons]
  exact ⟨ofText?_isFloatless _, ofText?_isFloatless _, List.forall_mem_nil _⟩

theorem toJson_takes (a : AuthSettings) (nesting : Nat) : Takes (read (nesting + 1)) a.toJson a := by
  have hrecord : Takes (Json.readRecord layout (nesting + 1)) a.toJson
      ⟨some a.username, some a.password⟩ := by
    refine Json.readRecord_takes ?_ rfl (Json.isFloatless_obj.mp a.toJson_isFloatless)
    refine .cons (Json.Layout.takes rfl rfl (readText?_takes nesting a.username)) ?_
    exact .cons (Json.Layout.takes rfl rfl (readSecret?_takes nesting a.password)) (.nil _)
  exact Json.readAs_takes hrecord

end AuthSettings

namespace ConnectionSettings

/-- The numbers of the settings have 64 bits. -/
structure HasWords (c : ConnectionSettings) : Prop where
  timeout : c.timeout.seconds < Text.wordLimit
  connectTimeout : c.connectTimeout.seconds < Text.wordLimit
  maxRetries : c.maxRetries < Text.wordLimit

/-- The settings in the units in which they are written. -/
def truncated (c : ConnectionSettings) : ConnectionSettings :=
  { c with
    timeout := c.timeout.inSeconds
    connectTimeout := c.connectTimeout.inSeconds
    retryBackoff := c.retryBackoff.inMillis }

theorem toJson_isFloatless (c : ConnectionSettings) : c.toJson.isFloatless = true := by
  rw [toJson, Json.isFloatless_obj]
  simp only [List.forall_mem_cons]
  exact ⟨ofTexts_isFloatless _, rfl, rfl, rfl, rfl, rfl, List.forall_mem_nil _⟩

theorem toJson_takes {c : ConnectionSettings} (h : c.HasWords) (nesting : Nat) :
    Takes (read (nesting + 2)) c.toJson c.truncated := by
  have hbackoff : c.retryBackoff.millis % Text.wordLimit < Text.wordLimit :=
    Nat.mod_lt _ (by decide)
  have hrecord : Takes (Json.readRecord layout (nesting + 2)) c.toJson
      ⟨some c.hosts, some c.skipVerify, some c.timeout.inSeconds, some c.connectTimeout.inSeconds,
        some c.maxRetries, some c.retryBackoff.inMillis⟩ := by
    refine Json.readRecord_takes ?_ rfl (Json.isFloatless_obj.mp c.toJson_isFloatless)
    refine .cons (Json.Layout.takes rfl rfl (readTexts_takes nesting c.hosts)) ?_
    refine .cons (Json.Layout.takes rfl rfl (Json.readBool_takes (nesting + 1) c.skipVerify)) ?_
    refine .cons (Json.Layout.takes rfl rfl (readSeconds_takes (nesting + 1) h.timeout)) ?_
    refine .cons (Json.Layout.takes rfl rfl (readSeconds_takes (nesting + 1) h.connectTimeout)) ?_
    refine .cons (Json.Layout.takes rfl rfl
      (Json.readUnsigned_takes "usize" (nesting + 1) h.maxRetries)) ?_
    exact .cons (Json.Layout.takes rfl rfl (readMillis_takes (nesting + 1) hbackoff)) (.nil _)
  exact Json.readAs_takes hrecord

end ConnectionSettings

namespace Settings

/-- The settings in the units in which they are written. -/
def truncated (s : Settings) : Settings := { s with connection := s.connection.truncated }

theorem toJson_isFloatless (s : Settings) : s.toJson.isFloatless = true := by
  rw [toJson, Json.isFloatless_obj]
  simp only [List.forall_mem_cons]
  exact ⟨s.connection.toJson_isFloatless, s.auth.toJson_isFloatless, rfl, List.forall_mem_nil _⟩

theorem toJson_takes {s : Settings} (h : s.connection.HasWords) :
    Takes (read Json.nestingLimit) s.toJson s.truncated := by
  have hrecord : Takes (Json.readRecord layout Json.nestingLimit) s.toJson
      ⟨some s.connection.truncated, some s.auth, some s.index⟩ := by
    refine Json.readRecord_takes ?_ rfl (Json.isFloatless_obj.mp s.toJson_isFloatless)
    refine .cons (Json.Layout.takes rfl rfl (ConnectionSettings.toJson_takes h 124)) ?_
    refine .cons (Json.Layout.takes rfl rfl (s.auth.toJson_takes 125)) ?_
    exact .cons (Json.Layout.takes rfl rfl (Json.readText_takes 126 s.index)) (.nil _)
  exact Json.readAs_takes hrecord

end Settings

namespace FileSettings

/-- The numbers of the settings have 64 bits. -/
structure HasWords (f : FileSettings) : Prop where
  timeout : ∀ n ∈ f.timeoutSeconds, n < Text.wordLimit
  connectTimeout : ∀ n ∈ f.connectTimeoutSeconds, n < Text.wordLimit
  maxRetries : ∀ n ∈ f.maxRetries, n < Text.wordLimit
  retryBackoff : ∀ n ∈ f.retryBackoffMillis, n < Text.wordLimit

theorem toJson_isFloatless (f : FileSettings) : f.toJson.isFloatless = true := by
  rw [toJson, Json.isFloatless_obj]
  simp only [List.forall_mem_cons]
  refine ⟨?_, ofText?_isFloatless _, ofText?_isFloatless _, ofBool?_isFloatless _,
    ofNat?_isFloatless _, ofNat?_isFloatless _, ofNat?_isFloatless _, ofNat?_isFloatless _,
    ofText?_isFloatless _, List.forall_mem_nil _⟩
  cases f.hosts with
  | none => rfl
  | some hosts => exact ofTexts_isFloatless hosts

theorem readHosts_takes (nesting : Nat) (hosts : Option (List String)) :
    Takes (Json.readOptional (Json.readList Json.readText) (nesting + 1))
      (match hosts with | none => .null | some hosts => .ofTexts hosts) hosts := by
  have hread : Takes (Json.readOptional (Json.readList Json.readText) (nesting + 1))
      (hosts.elim .null .ofTexts) hosts :=
    Json.readOptional_takes (fun hosts _ => readTexts_takes nesting hosts) ofTexts_isFloatless
      (fun _ => Json.noConfusion)
  cases hosts <;> exact hread

theorem toJson_takes {f : FileSettings} (h : f.HasWords) :
    Takes (read Json.nestingLimit) f.toJson f := by
  have hrecord : Takes (Json.readRecord layout Json.nestingLimit) f.toJson
      ⟨some f.hosts, some f.username, some f.password, some f.skipVerify, some f.timeoutSeconds,
        some f.connectTimeoutSeconds, some f.maxRetries, some f.retryBackoffMillis,
        some f.index⟩ := by
    refine Json.readRecord_takes ?_ rfl (Json.isFloatless_obj.mp f.toJson_isFloatless)
    refine .cons (Json.Layout.takes rfl rfl (readHosts_takes 125 f.hosts)) ?_
    refine .cons (Json.Layout.takes rfl rfl (readText?_takes 126 f.username)) ?_
    refine .cons (Json.Layout.takes rfl rfl (readSecret?_takes 126 f.password)) ?_
    refine .cons (Json.Layout.takes rfl rfl (readBool?_takes 126 f.skipVerify)) ?_
    refine .cons (Json.Layout.takes rfl rfl (readUnsigned?_takes "u64" 126 h.timeout)) ?_
    refine .cons (Json.Layout.takes rfl rfl (readUnsigned?_takes "u64" 126 h.connectTimeout)) ?_
    refine .cons (Json.Layout.takes rfl rfl (readUnsigned?_takes "usize" 126 h.maxRetries)) ?_
    refine .cons (Json.Layout.takes rfl rfl (readUnsigned?_takes "u64" 126 h.retryBackoff)) ?_
    exact .cons (Json.Layout.takes rfl rfl (readText?_takes 126 f.index)) (.nil _)
  exact Json.readAs_takes hrecord

/-- What a file can give. -/
theorem hasWords_of_decode {bytes : Bytes} {f : FileSettings} (h : Json.decode read bytes = .ok f) :
    f.HasWords := by
  have hfields : ∀ field ∈ layout.fields, field.Keeps 126 fun d => d.complete.HasWords := by
    simp only [layout, List.forall_mem_cons]
    refine ⟨?hosts, ?username, ?password, ?skipVerify, ?timeout, ?connectTimeout, ?maxRetries,
      ?retryBackoff, ?index, List.forall_mem_nil _⟩
    case timeout =>
      exact Json.Field.of_keeps fun _ _ _ _ hread hdraft =>
        { hdraft with timeout := readUnsigned?_lt hread }
    case connectTimeout =>
      exact Json.Field.of_keeps fun _ _ _ _ hread hdraft =>
        { hdraft with connectTimeout := readUnsigned?_lt hread }
    case maxRetries =>
      exact Json.Field.of_keeps fun _ _ _ _ hread hdraft =>
        { hdraft with maxRetries := readUnsigned?_lt hread }
    case retryBackoff =>
      exact Json.Field.of_keeps fun _ _ _ _ hread hdraft =>
        { hdraft with retryBackoff := readUnsigned?_lt hread }
    all_goals exact Json.Field.of_keeps fun _ _ _ _ _ hdraft => { hdraft with }
  have hblank : layout.blank.complete.HasWords :=
    ⟨fun _ hn => (by cases hn), fun _ hn => (by cases hn), fun _ hn => (by cases hn),
      fun _ hn => (by cases hn)⟩
  obtain ⟨draft, hdraft, rfl⟩ := Json.decode_invariant hfields hblank h
  exact hdraft

end FileSettings

/-! ## Settings in the units in which they are written -/

/-- The settings are whole in the units in which they are written, and have 64 bits there. -/
structure ConnectionSettings.InUnits (c : ConnectionSettings) : Prop where
  timeout : ∃ n < Text.wordLimit, c.timeout = .ofSeconds n
  connectTimeout : ∃ n < Text.wordLimit, c.connectTimeout = .ofSeconds n
  maxRetries : c.maxRetries < Text.wordLimit
  retryBackoff : ∃ n < Text.wordLimit, c.retryBackoff = .ofMillis n

namespace ConnectionSettings

variable {c : ConnectionSettings}

theorem InUnits.hasWords (h : c.InUnits) : c.HasWords := by
  obtain ⟨⟨n, hn, htimeout⟩, ⟨m, hm, hconnect⟩, hretries, -⟩ := h
  refine ⟨?_, ?_, hretries⟩
  · rwa [htimeout, Duration.seconds_ofSeconds]
  · rwa [hconnect, Duration.seconds_ofSeconds]

theorem InUnits.truncated_eq (h : c.InUnits) : c.truncated = c := by
  obtain ⟨⟨n, -, htimeout⟩, ⟨m, -, hconnect⟩, -, k, hk, hbackoff⟩ := h
  obtain ⟨hosts, skipVerify, timeout, connectTimeout, maxRetries, retryBackoff⟩ := c
  obtain rfl : timeout = .ofSeconds n := htimeout
  obtain rfl : connectTimeout = .ofSeconds m := hconnect
  obtain rfl : retryBackoff = .ofMillis k := hbackoff
  simp only [truncated, Duration.inSeconds_ofSeconds, Duration.inMillis_ofMillis hk]

theorem default_inUnits : default.InUnits :=
  ⟨⟨30, by decide, rfl⟩, ⟨10, by decide, rfl⟩, by decide, ⟨0, by decide, rfl⟩⟩

/-- A duration that was read is a number of 64 bits in its unit. -/
theorem read_inUnit {make : Nat → Duration} {nesting : Nat} {bytes rest : Bytes} {d : Duration}
    (h : (do let (n, rest) ← Json.readUnsigned "u64" nesting bytes; .ok (make n, rest)) =
      Except.ok (d, rest)) : ∃ n < Text.wordLimit, d = make n := by
  obtain ⟨⟨n, rest'⟩, hread, h⟩ := bind_eq_ok.mp h
  cases h
  exact ⟨n, Json.readUnsigned_lt hread, rfl⟩

theorem inUnits_of_read {nesting : Nat} {bytes rest : Bytes}
    (h : read (nesting + 1) bytes = .ok (c, rest)) : c.InUnits := by
  have hfields : ∀ field ∈ layout.fields, field.Keeps nesting fun d => d.complete.InUnits := by
    simp only [layout, List.forall_mem_cons]
    refine ⟨?hosts, ?skipVerify, ?timeout, ?connectTimeout, ?maxRetries, ?retryBackoff,
      List.forall_mem_nil _⟩
    case timeout =>
      exact Json.Field.of_keeps fun _ _ _ _ hread hdraft =>
        { hdraft with timeout := read_inUnit hread }
    case connectTimeout =>
      exact Json.Field.of_keeps fun _ _ _ _ hread hdraft =>
        { hdraft with connectTimeout := read_inUnit hread }
    case maxRetries =>
      exact Json.Field.of_keeps fun _ _ _ _ hread hdraft =>
        { hdraft with maxRetries := Json.readUnsigned_lt hread }
    case retryBackoff =>
      exact Json.Field.of_keeps fun _ _ _ _ hread hdraft =>
        { hdraft with retryBackoff := read_inUnit hread }
    all_goals exact Json.Field.of_keeps fun _ _ _ _ _ hdraft => { hdraft with }
  have hblank : layout.blank.complete.InUnits :=
    ⟨⟨0, by decide, rfl⟩, ⟨0, by decide, rfl⟩, by decide, ⟨0, by decide, rfl⟩⟩
  obtain ⟨⟨draft, rest'⟩, hdraft, h⟩ := bind_eq_ok.mp h
  cases h
  exact Json.readRecord_invariant (P := fun d => d.complete.InUnits) hfields hblank hdraft

end ConnectionSettings

/-- Settings that were read are in the units in which they are written. -/
theorem Settings.inUnits_of_decode {bytes : Bytes} {s : Settings}
    (h : Json.decode read bytes = .ok s) : s.connection.InUnits := by
  have hfields : ∀ field ∈ layout.fields,
      field.Keeps 126 fun d => d.complete.connection.InUnits := by
    simp only [layout, List.forall_mem_cons]
    refine ⟨?connection, ?auth, ?index, List.forall_mem_nil _⟩
    case connection =>
      exact Json.Field.of_keeps fun _ _ _ _ hread _ => ConnectionSettings.inUnits_of_read hread
    all_goals exact Json.Field.of_keeps fun _ _ _ _ _ hdraft => hdraft
  obtain ⟨draft, hdraft, rfl⟩ :=
    Json.decode_invariant hfields ConnectionSettings.default_inUnits h
  exact hdraft

/-! ## Settings made of files and variables -/

/-- What is supplied for a setting is whole in the unit in which it is written. -/
def SettingName.InUnits : (k : SettingName) → k.Value → Prop
  | timeout, d | connectTimeout, d => ∃ n, d = .ofSeconds n
  | retryBackoff, d => ∃ n, d = .ofMillis n
  | hosts, _ | username, _ | password, _ | skipVerify, _ | maxRetries, _ | index, _ => True

/-- All that is supplied is whole in the unit in which it is written. -/
def Layer.InUnits (y : Layer) : Prop := ∀ k, ∀ v ∈ y k, k.InUnits v

namespace Layer

theorem nothing_inUnits : nothing.InUnits := fun _ _ hv => by cases hv

theorem InUnits.or {y y' y'' : Layer} (h : y.InUnits) (h' : y'.InUnits)
    (hor : ∀ k, y'' k = (y k).or (y' k)) : y''.InUnits := by
  intro k v hv
  rw [hor, Option.mem_def, Option.or_eq_some_iff] at hv
  rcases hv with hv | ⟨-, hv⟩
  · exact h k v hv
  · exact h' k v hv

/-- A layer whose durations are numbers of seconds and of milliseconds. -/
theorem inUnits_of_numbers {y : Layer} {timeout connectTimeout backoff : Option Nat}
    (htimeout : y .timeout = timeout.map .ofSeconds)
    (hconnect : y .connectTimeout = connectTimeout.map .ofSeconds)
    (hbackoff : y .retryBackoff = backoff.map .ofMillis) : y.InUnits := by
  intro k v hv
  cases k with
  | timeout =>
    obtain ⟨n, -, hn⟩ := Option.map_eq_some_iff.mp (htimeout.symm.trans hv)
    exact ⟨n, hn.symm⟩
  | connectTimeout =>
    obtain ⟨n, -, hn⟩ := Option.map_eq_some_iff.mp (hconnect.symm.trans hv)
    exact ⟨n, hn.symm⟩
  | retryBackoff =>
    obtain ⟨n, -, hn⟩ := Option.map_eq_some_iff.mp (hbackoff.symm.trans hv)
    exact ⟨n, hn.symm⟩
  | hosts | username | password | skipVerify | maxRetries | index => trivial

end Layer

namespace Loader

variable {l l' : Loader} {source : Source} {sources : List Source}

/-- What the caller gives is whole in the unit in which it is written; files and variables can
give nothing else. -/
def Source.InUnits : Source → Prop
  | given k v => k.InUnits v
  | file _ | environment _ | path _ => True

theorem Source.layer_inUnits (h : source.InUnits) (l : Loader) : (source.layer l).InUnits := by
  cases source with
  | file s =>
    simp only [layer, fileLayer]
    split
    next => exact Layer.inUnits_of_numbers rfl rfl rfl
    next => exact Layer.nothing_inUnits
  | environment env => exact Layer.inUnits_of_numbers rfl rfl rfl
  | path p => exact Layer.nothing_inUnits
  | given k v =>
    intro j w hw
    simp only [layer] at hw
    split at hw
    next hkj =>
      subst hkj
      cases hw
      exact h
    next => cases hw

theorem loadAll_inUnits (hsources : ∀ source ∈ sources, source.InUnits) (hl : l.layer.InUnits)
    (h : l.loadAll sources = .ok l') : l'.layer.InUnits := by
  induction sources generalizing l with
  | nil =>
    cases h
    exact hl
  | cons source sources ih =>
    obtain ⟨l₁, hload, h⟩ := bind_eq_ok.mp h
    obtain ⟨hsource, hrest⟩ := List.forall_mem_cons.mp hsources
    exact ih hrest ((source.layer_inUnits hsource l).or hl (source.load_layer hload)) h

theorem checkConnection_eq_ok {c : ConnectionSettings} : checkConnection c = .ok () ↔
    0 < c.timeout.seconds ∧ c.timeout.seconds ≤ longestTimeout ∧ 0 < c.connectTimeout.nanoseconds ∧
      c.connectTimeout.nanoseconds ≤ c.timeout.nanoseconds ∧ c.maxRetries ≤ mostRetries ∧
      c.retryBackoff.millis ≤ longestBackoff := by
  simp only [checkConnection, Duration.isZero, beq_iff_eq]
  repeat' split
  all_goals first
    | exact iff_of_true rfl ⟨by omega, by omega, by omega, by omega, by omega, by omega⟩
    | exact iff_of_false nofun (by omega)

theorem getD_inUnits {k : SettingName} {v : Option k.Value} {w : k.Value}
    (hv : ∀ u ∈ v, k.InUnits u) (hw : k.InUnits w) : k.InUnits (v.getD w) := by
  cases v with
  | none => exact hw
  | some u => exact hv u rfl

/-- Settings made of what is whole are in the units in which they are written: their bounds are below
64 bits. -/
theorem build_inUnits {s : Settings} {events : List Event} (hl : l.layer.InUnits)
    (h : l.build = .ok (s, events)) : s.connection.InUnits := by
  obtain ⟨hosts, -, -, hchecked, hmade⟩ := build_eq_ok.mp h
  obtain ⟨rfl, -⟩ := Prod.mk.inj hmade
  obtain ⟨-, hlong, -, hlonger, hretries, hpause⟩ := checkConnection_eq_ok.mp hchecked
  obtain ⟨n, hn⟩ : SettingName.timeout.InUnits (l.connection []).timeout :=
    getD_inUnits (hl .timeout) ⟨30, rfl⟩
  obtain ⟨m, hm⟩ : SettingName.connectTimeout.InUnits (l.connection []).connectTimeout :=
    getD_inUnits (hl .connectTimeout) ⟨10, rfl⟩
  obtain ⟨k, hk⟩ : SettingName.retryBackoff.InUnits (l.connection []).retryBackoff :=
    getD_inUnits (hl .retryBackoff) ⟨0, rfl⟩
  rw [hn, Duration.seconds_ofSeconds] at hlong
  rw [hk, Duration.millis_ofMillis] at hpause
  rw [hn, hm] at hlonger
  have hle : m ≤ n := Nat.le_of_mul_le_mul_right hlonger (by decide)
  refine ⟨⟨n, ?_, hn⟩, ⟨m, ?_, hm⟩, ?_, ⟨k, ?_, hk⟩⟩
  · exact Nat.lt_of_le_of_lt hlong (by decide)
  · exact Nat.lt_of_le_of_lt (hle.trans hlong) (by decide)
  · exact Nat.lt_of_le_of_lt hretries (by decide)
  · exact Nat.lt_of_le_of_lt hpause (by decide)

end Loader

/-! ## Written and read again -/

/-- The text of a value is read as this, compact or indented. -/
def Json.RereadsAs {α : Type} (reader : Json.Reader α) (v : Json) (a : α) : Prop :=
  Json.decode reader (Utf8.encode v.compact) = .ok a ∧
    Json.decode reader (Utf8.encode v.pretty) = .ok a

theorem Json.Takes.rereadsAs {α : Type} {reader : Json.Reader α} {v : Json} {a : α}
    (h : Takes (reader Json.nestingLimit) v a) (hv : v.isFloatless = true) :
    Json.RereadsAs reader v a := ⟨Json.decode_compact h hv, Json.decode_pretty h hv⟩

theorem FileSettings.rereads {f : FileSettings} (h : f.HasWords) :
    Json.RereadsAs read f.toJson f := (toJson_takes h).rereadsAs f.toJson_isFloatless

theorem Settings.rereads {s : Settings} (h : s.connection.HasWords) :
    Json.RereadsAs read s.toJson s.truncated := (toJson_takes h).rereadsAs s.toJson_isFloatless

theorem Settings.rereads_inUnits {s : Settings} (h : s.connection.InUnits) :
    Json.RereadsAs read s.toJson s := by
  have hreread := s.rereads h.hasWords
  rwa [truncated, h.truncated_eq] at hreread

/-- **Settings survive being written and read again**, with their passwords. Those of a file and
those that authenticate are read as they were written. Of settings in full, the timeouts are cut to
whole seconds and the pause to whole milliseconds of 64 bits, and all else is as it was. So nothing is
lost of settings that were read from JSON, or that were made of files and variables. -/
theorem settings_reread :
    (∀ f : FileSettings, f.HasWords → Json.RereadsAs FileSettings.read f.toJson f) ∧
    (∀ a : AuthSettings, Json.RereadsAs AuthSettings.read a.toJson a) ∧
    (∀ s : Settings, s.connection.HasWords → Json.RereadsAs Settings.read s.toJson s.truncated) ∧
    (∀ (bytes : Bytes) (f : FileSettings), Json.decode FileSettings.read bytes = .ok f →
      Json.RereadsAs FileSettings.read f.toJson f) ∧
    (∀ (bytes : Bytes) (s : Settings), Json.decode Settings.read bytes = .ok s →
      Json.RereadsAs Settings.read s.toJson s) ∧
    ∀ (sources : List Loader.Source) (l : Loader) (s : Settings) (events : List Event),
      (∀ source ∈ sources, source.InUnits) → Loader.empty.loadAll sources = .ok l →
      l.build = .ok (s, events) → Json.RereadsAs Settings.read s.toJson s := by
  have hempty : Loader.empty.layer.InUnits := fun k v hv => by
    rw [Loader.empty_layer] at hv
    cases hv
  refine ⟨?_, ?_, ?_, ?_, ?_, ?_⟩
  · exact fun f hwords => f.rereads hwords
  · exact fun a => (a.toJson_takes 126).rereadsAs a.toJson_isFloatless
  · exact fun s hwords => s.rereads hwords
  · exact fun bytes f hread => f.rereads (FileSettings.hasWords_of_decode hread)
  · exact fun bytes s hread => s.rereads_inUnits (Settings.inUnits_of_decode hread)
  · intro sources l s events hsources hload hbuild
    have hl := Loader.loadAll_inUnits hsources hempty hload
    exact s.rereads_inUnits (Loader.build_inUnits hl hbuild)

/-- Of one and a half seconds one is kept, and of a pause of more milliseconds than 64 bits can count
what they do count. A file and a variable name the same units as JSON, and lose nothing. -/
theorem settings_reread_units :
    let whole := { ConnectionSettings.default with retryBackoff := .ofMillis 7 }
    let fine := { whole with
      timeout := ⟨1500000000⟩
      retryBackoff := .ofMillis (Text.wordLimit + 7) }
    let auth := AuthSettings.basic "\"u\n" ⟨"p\u0001"⟩
    let settings (c : ConnectionSettings) : Settings := ⟨c, auth, "i"⟩
    let file : FileSettings := ⟨some [], none, some ⟨"p"⟩, none, some 20, none, some 0, none, none⟩
    let s : Surroundings :=
      ⟨[], fun _ => .file (Utf8.encode "\x7b\"timeout_seconds\":20\x7d"), Path.ofString "/", []⟩
    let sources : List Loader.Source :=
      [.file s, .environment [("ES_OUTPUT_RETRY_BACKOFF_MS", Utf8.encode "250")]]
    Json.RereadsAs FileSettings.read file.toJson file ∧
      Json.RereadsAs Settings.read (settings fine).toJson
        (settings { whole with timeout := .ofSeconds 1 }) ∧
      ∃ l made events, Loader.empty.loadAll sources = .ok l ∧ l.build = .ok (made, events) ∧
        Json.RereadsAs Settings.read made.toJson made := by
  intro whole fine auth settings file s sources
  obtain ⟨hfile, -, hsettings, -, -, hmade⟩ := settings_reread
  have hfileWords : file.HasWords := by
    refine ⟨?_, ?_, ?_, ?_⟩ <;> simp [file, Text.wordLimit]
  have hwords : (settings fine).connection.HasWords := ⟨by decide, by decide, by decide⟩
  have hcut : (settings fine).truncated = settings { whole with timeout := .ofSeconds 1 } := by
    decide +kernel
  have hreread := hsettings (settings fine) hwords
  rw [hcut] at hreread
  have hunits : ∀ source ∈ sources, source.InUnits := by
    simp [sources, Loader.Source.InUnits]
  have hbuilt : ((Loader.empty.loadAll sources).toOption.bind (·.build.toOption)).isSome = true := by
    decide +kernel
  obtain ⟨⟨made, events⟩, hbuilt⟩ := Option.isSome_iff_exists.mp hbuilt
  obtain ⟨l, hload, hbuild⟩ := Option.bind_eq_some_iff.mp hbuilt
  have hload := ok_of_toOption hload
  have hbuild := ok_of_toOption hbuild
  exact ⟨hfile file hfileWords, hreread, l, made, events, hload, hbuild,
    hmade sources l made events hunits hload hbuild⟩

end ClusterOutput
