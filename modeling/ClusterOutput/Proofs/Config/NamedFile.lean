/-
Which file a loader reads (`fromFile_reads`). The last path that the caller gave
names it; else an environment does, but only one that was read before the file. A
file that was named has to be there, and where none was the default one may be
missing.

So where the file is read before the environment, a variable that names another
file is not seen (`fromFile_before_environment`).
-/
import ClusterOutput.Proofs.Config.Layers

namespace ClusterOutput

/-! ## The file that is named -/

/-- The configuration file that variables name, unless the name is blank. -/
def Environment.configPath? (env : Environment) : Option Path :=
  (env.setting? "ES_OUTPUT_CONFIG_PATH").map Path.ofString

namespace Loader

/-- The path that a source gives: that of a caller. -/
def Source.givenPath? : Source → Option Path
  | path p => some p
  | file _ | environment _ | given _ _ => none

/-- The path that a source names, unless one is known already: that of an environment. -/
def Source.namedPath? : Source → Option Path
  | environment env => env.configPath?
  | file _ | path _ | given _ _ => none

/-- The path that the caller gave last. -/
def givenPath? (sources : List Source) : Option Path := sources.reverse.findSome? (·.givenPath?)

/-- The path that the first environment names that names one. -/
def namedPath? (sources : List Source) : Option Path := sources.findSome? (·.namedPath?)

/-- The file that sources name. -/
def namedFile? (sources : List Source) : Option Path :=
  (givenPath? sources).or (namedPath? sources)

variable {l l' : Loader} {s : Surroundings} {sources : List Source}

theorem fromFile_configPath {event : Event} (h : l.fromFile s = .ok (l', event)) :
    l'.configPath = l.configPath := by
  have hat {path : Path} (h : l.withFileAt s path = .ok (l', event)) :
      l'.configPath = l.configPath := by
    simp only [withFileAt] at h
    split at h <;> cases h
    rfl
  simp only [fromFile] at h
  split at h <;> split at h
  · exact hat h
  · cases h
  · exact hat h
  · cases h
    rfl

theorem fromEnvironment_configPath {env : Environment} (h : l.fromEnvironment env = .ok l') :
    l'.configPath = l.configPath.or env.configPath? := by
  simp only [fromEnvironment, bind_eq_ok] at h
  obtain ⟨_, -, _, -, _, -, _, -, _, -, h⟩ := h
  cases h
  rfl

/-- A path that the caller gives replaces the one before, and one that an environment names does
not. -/
theorem Source.load_configPath {source : Source} (h : source.load l = .ok l') :
    l'.configPath = source.givenPath?.or (l.configPath.or source.namedPath?) := by
  cases source with
  | file s =>
    obtain ⟨⟨_, event⟩, hfile, rfl⟩ := map_eq_ok.mp h
    simp [givenPath?, namedPath?, fromFile_configPath hfile]
  | environment env => exact fromEnvironment_configPath h
  | path p =>
    cases h
    rfl
  | given k v =>
    cases h
    cases k <;> simp [givenPath?, namedPath?, give] <;> rfl

theorem givenPath?_cons (source : Source) (sources : List Source) :
    givenPath? (source :: sources) = (givenPath? sources).or source.givenPath? := by
  simp [givenPath?, List.findSome?_append]

theorem namedPath?_cons (source : Source) (sources : List Source) :
    namedPath? (source :: sources) = source.namedPath?.or (namedPath? sources) := by
  cases h : source.namedPath? <;> simp [namedPath?, h]

theorem loadAll_configPath (h : l.loadAll sources = .ok l') :
    l'.configPath = (givenPath? sources).or (l.configPath.or (namedPath? sources)) := by
  induction sources generalizing l with
  | nil =>
    cases h
    simp [givenPath?, namedPath?]
  | cons source sources ih =>
    obtain ⟨l₁, hload, h⟩ := bind_eq_ok.mp h
    rw [ih h, source.load_configPath hload, givenPath?_cons, namedPath?_cons]
    simp only [Option.or_assoc]

end Loader

/-! ## Reading it -/

namespace Loader

variable {s : Surroundings}

/-- The file that is read: the one of this name, or else the default one. -/
def filePath (s : Surroundings) (named? : Option Path) : Path := named?.getD s.defaultConfigPath

/-- What comes of reading a configuration file that may be named. -/
inductive Reads (l : Loader) (s : Surroundings) (named? : Option Path) :
    Except ConfigError (Loader × Event) → Prop where
  /-- What the file supplies is added. -/
  | loaded {f : FileSettings} (isThere : (s.files (filePath s named?)).isThere = true)
      (read : readFile s (filePath s named?) = .ok f) :
    Reads l s named? (.ok (l.withFile f, .fileLoaded (Path.shown (filePath s named?))))
  /-- The file cannot be read. -/
  | faulty {e : ConfigError} (isThere : (s.files (filePath s named?)).isThere = true)
      (read : readFile s (filePath s named?) = .error e) : Reads l s named? (.error e)
  /-- A file that was named has to be there. -/
  | missing {path : Path} (named : named? = some path)
      (notThere : (s.files path).isThere = false) : Reads l s named? (.error (.fileMissing path))
  /-- Without the default file all is as it was. -/
  | skipped (unnamed : named? = none)
      (notThere : (s.files s.defaultConfigPath).isThere = false) :
    Reads l s named? (.ok (l, .noDefaultFile (Path.shown s.defaultConfigPath)))

/-- Only the default file may be missing. -/
theorem Reads.unnamed_of_skipped {l l' : Loader} {named? : Option Path} {shown : String}
    {result : Except ConfigError (Loader × Event)} (h : l.Reads s named? result)
    (hskipped : result = .ok (l', .noDefaultFile shown)) : named? = none := by
  cases h with
  | skipped unnamed => exact unnamed
  | loaded => simp at hskipped
  | faulty | missing => cases hskipped

theorem withFileAt_reads (l : Loader) (named? : Option Path)
    (h : (s.files (filePath s named?)).isThere = true) :
    l.Reads s named? (l.withFileAt s (filePath s named?)) := by
  unfold withFileAt
  split
  next f hread => exact .loaded h hread
  next e hread => exact .faulty h hread

/-- A loader reads the file that its path names. -/
theorem fromFile_reads_configPath (l : Loader) (s : Surroundings) :
    l.Reads s l.configPath (l.fromFile s) := by
  simp only [fromFile]
  split
  next path hpath =>
    rw [hpath]
    split
    next hthere => exact l.withFileAt_reads (some path) hthere
    next hmissing => exact .missing rfl (by simpa using hmissing)
  next hpath =>
    rw [hpath]
    split
    next hthere => exact l.withFileAt_reads none hthere
    next hmissing => exact .skipped rfl (by simpa using hmissing)

/-- No other file matters. -/
theorem fromFile_congr {l : Loader} {s' : Surroundings}
    (hdefault : s'.defaultConfigPath = s.defaultConfigPath)
    (hfile : s'.files (filePath s l.configPath) = s.files (filePath s l.configPath)) :
    l.fromFile s' = l.fromFile s := by
  have hread {path : Path} (h : s'.files path = s.files path) :
      l.withFileAt s' path = l.withFileAt s path := by
    simp only [withFileAt, readFile, Surroundings.readText, h]
  unfold fromFile
  rw [hdefault]
  cases hpath : l.configPath with
  | some path | none =>
    rw [hpath] at hfile
    simp only [filePath, Option.getD_some, Option.getD_none] at hfile
    simp only [hread hfile, hfile]

/-! ## After other sources -/

variable {sources : List Source}

/-- Environments that all name the same path name it if there is one. -/
theorem namedPath?_eq {named? : Option Path}
    (hsame : ∀ env, Source.environment env ∈ sources → env.configPath? = named?)
    (hread : named? = none ∨ ∃ env, Source.environment env ∈ sources) :
    namedPath? sources = named? := by
  cases hnamed : namedPath? sources with
  | some path =>
    obtain ⟨source, hsource, hpath⟩ := List.exists_of_findSome?_eq_some hnamed
    cases source with
    | environment env => exact hpath.symm.trans (hsame env hsource)
    | file _ | path _ | given _ _ => cases hpath
  | none =>
    rcases hread with rfl | ⟨env, henv⟩
    · rfl
    · have hnone := List.findSome?_eq_none_iff.mp hnamed _ henv
      exact hnone.symm.trans (hsame env henv)

end Loader

open Loader in
/-- **A loader reads the file that was named before**, by the caller or else by an environment, and no
other. Where an environment was read, or where it makes no difference, that is the file that the
caller or the environment names; but where none was read, no variable is seen. A file that was named has
to be there, and without the default file the loader is as it was. -/
theorem fromFile_reads (sources : List Source) (l : Loader) (s : Surroundings)
    (hload : Loader.empty.loadAll sources = .ok l) :
    l.Reads s (namedFile? sources) (l.fromFile s) ∧
    (∀ s', s'.defaultConfigPath = s.defaultConfigPath →
      s'.files (filePath s (namedFile? sources)) = s.files (filePath s (namedFile? sources)) →
      l.fromFile s' = l.fromFile s) ∧
    ((∀ env, .environment env ∈ sources → env.configPath? = s.environment.configPath?) →
      (givenPath? sources).isSome = true ∨ s.environment.configPath? = none ∨
        (∃ env, .environment env ∈ sources) →
      l.Reads s ((givenPath? sources).or s.environment.configPath?) (l.fromFile s)) ∧
    ((∀ env, .environment env ∉ sources) → l.Reads s (givenPath? sources) (l.fromFile s)) := by
  have hpath : l.configPath = namedFile? sources := by
    rw [loadAll_configPath hload, show Loader.empty.configPath = none from rfl, Option.none_or,
      namedFile?]
  have hreads := l.fromFile_reads_configPath s
  rw [hpath] at hreads
  refine ⟨hreads, fun s' hdefault hfile => fromFile_congr hdefault (hpath ▸ hfile), ?_, ?_⟩
  · intro hsame hseen
    rw [namedFile?] at hreads
    rcases hseen with hgiven | hread
    · obtain ⟨path, hgiven⟩ := Option.isSome_iff_exists.mp hgiven
      rw [hgiven] at hreads ⊢
      exact hreads
    · rwa [namedPath?_eq hsame hread] at hreads
  · intro hnone
    have hunnamed : namedPath? sources = none :=
      namedPath?_eq (fun env henv => absurd henv (hnone env)) (.inl rfl)
    rwa [namedFile?, hunnamed, Option.or_none] at hreads

/-- A file that the environment names, between white space, and that is there. -/
def Surroundings.withNamedFile : Surroundings where
  environment := [("ES_OUTPUT_CONFIG_PATH", Utf8.encode " /named.json ")]
  files path :=
    if path = Path.ofString "/named.json" then .file (Utf8.encode "\x7b\"index\":\"named\"\x7d")
    else .missing
  workingDirectory := Path.ofString "/"
  accountHome := Path.ofString "/root"

/-- Behind the environment the file is read. -/
theorem fromFile_reads_after_environment :
    let s := Surroundings.withNamedFile
    ∃ l, Loader.empty.loadAll [.given .index "given", .environment s.environment] = .ok l ∧
      l.Reads s (some (Path.ofString "/named.json")) (l.fromFile s) ∧
      (l.fromFile s).toOption.map (·.1.index) = some (some "named") := by
  intro s
  have hindex : ((Loader.empty.loadAll
      [.given .index "given", .environment s.environment]).toOption.bind fun l =>
        (l.fromFile s).toOption.map (·.1.index)) = some (some "named") := by
    decide +kernel
  obtain ⟨l, hl, hindex⟩ := Option.bind_eq_some_iff.mp hindex
  have hload := ok_of_toOption hl
  have hreads := (fromFile_reads _ l s hload).2.2.1 (by simp) (.inr (.inr ⟨s.environment, by simp⟩))
  have hnamed : s.environment.configPath? = some (Path.ofString "/named.json") := by decide +kernel
  rw [hnamed] at hreads
  exact ⟨l, hload, hreads, hindex⟩

/-- Before the environment it is not, and the environment that is read behind it does not make up for
that. -/
theorem fromFile_before_environment :
    let s := Surroundings.withNamedFile
    Loader.empty.loadAll [] = .ok Loader.empty ∧
      ¬ Loader.empty.Reads s ((Loader.givenPath? []).or s.environment.configPath?)
        (Loader.empty.fromFile s) ∧
      (Loader.empty.loadAll [.file s, .environment s.environment]).toOption.map (·.index) =
        some none := by
  intro s
  have hskipped : Loader.empty.fromFile s =
      .ok (Loader.empty, .noDefaultFile (Path.shown s.defaultConfigPath)) := by
    rfl
  have hnamed : s.environment.configPath? = some (Path.ofString "/named.json") := by decide +kernel
  refine ⟨rfl, fun hreads => ?_, by decide +kernel⟩
  have hunnamed := hreads.unnamed_of_skipped hskipped
  rw [hnamed] at hunnamed
  cases hunnamed

end ClusterOutput
