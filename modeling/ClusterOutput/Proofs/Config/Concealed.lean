/-
Settings whose passwords are concealed. Diagnostics show of settings what they show
of settings with any other password, and no source and no check looks at a
password: from what differs in passwords only they make settings that differ in
passwords only, or the same error (`fromFile_alike`, `fromEnvironment_alike`,
`build_alike`).
-/
import ClusterOutput.Config.Loader
import ClusterOutput.Proofs.Pool.Concealed
import ClusterOutput.Proofs.Result

namespace ClusterOutput

/-- The variable that holds the password. -/
def passwordVariable : String := "ES_OUTPUT_PASSWORD"

/-- Environments that differ in the password only. It is text in both, and not blank; or there is
none in either. -/
structure Environment.Alike (env env' : Environment) : Prop where
  others : ∀ name, name ≠ passwordVariable → env.value? name = env'.value? name
  password : (env.setting? passwordVariable).isSome = (env'.setting? passwordVariable).isSome

/-- Surroundings that differ in the password of the environment only. -/
structure Surroundings.Alike (s s' : Surroundings) : Prop where
  environment : s.environment.Alike s'.environment
  files : s.files = s'.files
  workingDirectory : s.workingDirectory = s'.workingDirectory
  accountHome : s.accountHome = s'.accountHome

/-! ## Any password -/

def AuthSettings.concealed (a : AuthSettings) : AuthSettings :=
  { a with password := a.password.map fun _ => ⟨""⟩ }

def Settings.concealed (s : Settings) : Settings := { s with auth := s.auth.concealed }

def FileSettings.concealed (f : FileSettings) : FileSettings :=
  { f with password := f.password.map fun _ => ⟨""⟩ }

def Loader.concealed (l : Loader) : Loader := { l with password := l.password.map fun _ => ⟨""⟩ }

/-! ## Diagnostics -/

namespace Environment

variable {env env' : Environment}

theorem Alike.setting (h : env.Alike env') (name : String) (hname : name ≠ passwordVariable) :
    env.setting? name = env'.setting? name := by
  simp only [setting?, text?, h.others name hname]

theorem Alike.isDisabled (h : env.Alike env') :
    Dotenv.isDisabled env = Dotenv.isDisabled env' := by
  simp only [Dotenv.isDisabled, text?, h.others "DOTENV_DISABLED" (by decide)]

end Environment

namespace Surroundings

variable {s s' : Surroundings}

theorem defaultConfigPath_alike (henv : s.environment.Alike s'.environment)
    (hhome : s.accountHome = s'.accountHome) : s.defaultConfigPath = s'.defaultConfigPath := by
  have hhomes : s.home = s'.home := by
    simp only [home, henv.others "HOME" (by decide), hhome]
  simp only [defaultConfigPath, configDirectory, hhomes,
    henv.others "XDG_CONFIG_HOME" (by decide)]

end Surroundings

/-! ## Files of variables -/

namespace Dotenv

variable {v v' : Value} {lookup lookup' : String → String}

/-- A value that is being read, without what was read of its text. -/
def Value.bare (v : Value) : Value := { v with text := [] }

end Dotenv

namespace Loader

/-! ## Sources -/

/-- Two files are the same, or both hold settings, which differ in passwords only. -/
inductive FileAlike (s s' : Surroundings) (path : Path) : Prop
  | same (h : s.files path = s'.files path)
  | settings {f f' : FileSettings} (h : readFile s path = .ok f) (h' : readFile s' path = .ok f')
    (hconcealed : f.concealed = f'.concealed)

variable {l l' : Loader} {s s' : Surroundings} {env env' : Environment}

theorem withFile_concealed (l : Loader) (f : FileSettings) :
    (l.withFile f).concealed = l.concealed.withFile f.concealed := by
  simp only [withFile, concealed, FileSettings.concealed, Option.map_or]

theorem readFile_isThere {path : Path} {f : FileSettings} (h : readFile s path = .ok f) :
    (s.files path).isThere = true := by
  unfold readFile Surroundings.readText at h
  cases hstate : s.files path <;> rw [hstate] at h <;> first | rfl | cases h

theorem readFile_alike {path : Path} (h : FileAlike s s' path) :
    (s.files path).isThere = (s'.files path).isThere ∧
      Agree (·.concealed = ·.concealed) (readFile s path) (readFile s' path) := by
  cases h with
  | same h =>
    refine ⟨by rw [h], ?_⟩
    have hread : readFile s path = readFile s' path := by
      rw [readFile, readFile, Surroundings.readText, Surroundings.readText, h]
    rw [hread]
    exact Agree.refl (fun f => Eq.refl f.concealed) _
  | settings h h' hconcealed =>
    refine ⟨(readFile_isThere h).trans (readFile_isThere h').symm, ?_⟩
    rw [h, h']
    exact .ok hconcealed

/-- What a file adds: the same, apart from the password, and one event. -/
structure LoadedAlike (loaded loaded' : Loader × Event) : Prop where
  loader : loaded.1.concealed = loaded'.1.concealed
  event : loaded.2 = loaded'.2

theorem withFileAt_alike (hl : l.concealed = l'.concealed) {path : Path}
    (hfile : FileAlike s s' path) :
    Agree LoadedAlike (l.withFileAt s path) (l'.withFileAt s' path) := by
  have hread := (readFile_alike hfile).2
  unfold withFileAt
  generalize readFile s path = r at hread ⊢
  generalize readFile s' path = r' at hread ⊢
  cases hread with
  | error e => exact .error e
  | ok hf => exact .ok ⟨by rw [withFile_concealed, hl, hf, withFile_concealed], rfl⟩

theorem configPath_concealed (hl : l.concealed = l'.concealed) : l.configPath = l'.configPath := by
  simpa [concealed] using congrArg (·.configPath) hl

theorem fromFile_alike (hl : l.concealed = l'.concealed)
    (henv : s.environment.Alike s'.environment) (hhome : s.accountHome = s'.accountHome)
    (hfiles : ∀ path, FileAlike s s' path) :
    Agree LoadedAlike (l.fromFile s) (l'.fromFile s') := by
  unfold fromFile
  rw [configPath_concealed hl, Surroundings.defaultConfigPath_alike henv hhome]
  split
  next path _ =>
    rw [(readFile_alike (hfiles path)).1]
    split
    · exact withFileAt_alike hl (hfiles path)
    · exact .error _
  · simp only [(readFile_alike (hfiles s'.defaultConfigPath)).1]
    split
    · exact withFileAt_alike hl (hfiles _)
    · exact .ok ⟨hl, rfl⟩

theorem settingOf?_alike {α : Type} (henv : env.Alike env') {name : String}
    (hname : name ≠ passwordVariable) (message : String) (read : String → Option α) :
    settingOf? env name message read = settingOf? env' name message read := by
  rw [settingOf?, settingOf?, henv.setting name hname]

theorem fromEnvironment_alike (hl : l.concealed = l'.concealed) (henv : env.Alike env') :
    Agree (·.concealed = ·.concealed) (l.fromEnvironment env) (l'.fromEnvironment env') := by
  have henvironment : ((env.setting? "ES_OUTPUT_PASSWORD").map fun _ => (⟨""⟩ : Secret)) =
      (env'.setting? "ES_OUTPUT_PASSWORD").map fun _ => ⟨""⟩ := by
    have hsome : (env.setting? "ES_OUTPUT_PASSWORD").isSome =
        (env'.setting? "ES_OUTPUT_PASSWORD").isSome := henv.password
    cases hp : env.setting? "ES_OUTPUT_PASSWORD" <;> cases hp' : env'.setting? "ES_OUTPUT_PASSWORD" <;>
      simp [hp, hp'] at hsome ⊢
  simp only [concealed, Loader.mk.injEq] at hl
  obtain ⟨hhosts, husername, hpassword, hskip, htimeout, hconnect, hretries, hbackoff, hindex, hpath⟩ := hl
  have hsame {α : Type} (r : Except ConfigError α) : Agree Eq r r := .refl (fun _ => rfl) r
  simp only [fromEnvironment, retriesVariable?]
  rw [settingOf?_alike henv (by decide), settingOf?_alike henv (by decide),
    settingOf?_alike henv (by decide), settingOf?_alike henv (by decide),
    settingOf?_alike henv (by decide)]
  refine (hsame _).bind ?_
  rintro skip _ rfl
  refine (hsame _).bind ?_
  rintro timeout _ rfl
  refine (hsame _).bind ?_
  rintro connectTimeout _ rfl
  refine (hsame _).bind ?_
  rintro maxRetries _ rfl
  refine (hsame _).bind ?_
  rintro retryBackoff _ rfl
  refine .ok ?_
  simp only [concealed, Option.map_or, Option.map_map, Function.comp_def, henvironment, hpassword,
    hhosts, husername, hskip, htimeout, hconnect, hretries, hbackoff, hindex, hpath,
    henv.setting "ES_OUTPUT_HOSTS" (by decide), henv.setting "ES_OUTPUT_USERNAME" (by decide),
    henv.setting "ES_OUTPUT_INDEX" (by decide), henv.setting "ES_OUTPUT_CONFIG_PATH" (by decide)]

/-! ## Checking -/

/-- What settings come to: they differ in the password only, and the warnings are the same. -/
structure CheckedAlike (checked checked' : Settings × List Event) : Prop where
  settings : checked.1.concealed = checked'.1.concealed
  warnings : checked.2 = checked'.2

theorem build_alike (hl : l.concealed = l'.concealed) : Agree CheckedAlike l.build l'.build := by
  obtain ⟨hosts, username, password, skip, timeout, connectTimeout, retries, backoff, index, path⟩ := l
  obtain ⟨_, _, password', _, _, _, _, _, _, _⟩ := l'
  simp only [concealed, Loader.mk.injEq] at hl
  obtain ⟨rfl, rfl, hpassword, rfl, rfl, rfl, rfl, rfl, rfl, rfl⟩ := hl
  have hsome : password.isSome = password'.isSome := by
    simpa using congrArg Option.isSome hpassword
  have hsame {α : Type} (r : Except ConfigError α) : Agree Eq r r := .refl (fun _ => rfl) r
  unfold build
  refine Agree.bind (hsame _) ?_
  rintro hosts _ rfl
  simp only [hsome]
  split
  · exact .error _
  · refine Agree.bind (hsame _) ?_
    rintro _ _ -
    refine .ok ⟨?_, rfl⟩
    simp only [Settings.concealed, AuthSettings.concealed, hpassword]
    rfl

end Loader

end ClusterOutput
