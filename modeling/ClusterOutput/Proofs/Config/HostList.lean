/-
Lists of hosts. What stands in front of a comma and behind it are read by themselves,
every entry is trimmed and not empty, and entries are read again from any list they
are spread over, whatever white space and empty pieces stand around them
(`parseHosts_splits`).

So a list is read the same with white space around it or without, which is what the
environment takes away.
-/
import ClusterOutput.Config.Loader
import ClusterOutput.Proofs.Text.Trimming

namespace ClusterOutput

/-- What can be an entry of a list of hosts. -/
structure IsEntry (host : String) : Prop where
  ne_empty : host ≠ ""
  noComma : ',' ∉ host.toList
  trimmed : Text.trim host = host

/-- The pieces hold these entries in order, with white space around each, and else nothing but
white space. -/
inductive Spread : List String → List String → Prop
  | nil : Spread [] []
  | blank {piece : String} {hosts pieces : List String} (hpiece : Text.isAllBlank piece = true)
    (hrest : Spread hosts pieces) : Spread hosts (piece :: pieces)
  | entry {before after : String} (host : String) {hosts pieces : List String}
    (hbefore : Text.isAllBlank before = true) (hafter : Text.isAllBlank after = true)
    (hrest : Spread hosts pieces) : Spread (host :: hosts) ((before ++ host ++ after) :: pieces)

theorem isAllBlank_iff {s : String} :
    Text.isAllBlank s = true ↔ ∀ c ∈ s.toList, Text.isBlank c = true := List.all_eq_true

/-- The entries among trimmed pieces. -/
def entriesOf (trimmed : List (List Char)) : List String :=
  (trimmed.filter (!·.isEmpty)).map String.ofList

theorem parseHosts_eq (text : String) :
    parseHosts text = entriesOf ((Text.pieces ',' text.toList).map Text.trimChars) := rfl

theorem entriesOf_append (xs ys : List (List Char)) :
    entriesOf (xs ++ ys) = entriesOf xs ++ entriesOf ys := by
  simp only [entriesOf, List.filter_append, List.map_append]

theorem parseHosts_comma (a b : String) :
    parseHosts (a ++ "," ++ b) = parseHosts a ++ parseHosts b := by
  have htext : (a ++ "," ++ b).toList = a.toList ++ ',' :: b.toList := by simp
  rw [parseHosts_eq, htext, Text.pieces_between, List.map_append, entriesOf_append]
  rfl

theorem isEntry_of_mem {text host : String} (h : host ∈ parseHosts text) : IsEntry host := by
  rw [parseHosts_eq, entriesOf, List.mem_map] at h
  obtain ⟨cs, hcs, rfl⟩ := h
  rw [List.mem_filter, List.mem_map] at hcs
  obtain ⟨⟨piece, hpiece, rfl⟩, hne⟩ := hcs
  refine ⟨fun hempty => ?_, fun hcomma => ?_, ?_⟩
  · rw [String.ofList_eq_empty_iff] at hempty
    simp [hempty] at hne
  · rw [String.toList_ofList] at hcomma
    exact (Text.mem_of_mem_pieces hpiece).1 (Text.mem_of_mem_trimChars hcomma)
  · rw [Text.trim, String.toList_ofList, Text.trimChars_trimChars]

/-- A piece between commas gives its entry, if it is not blank. -/
theorem parseHosts_piece {piece : String} (h : ',' ∉ piece.toList) :
    parseHosts piece = entriesOf [Text.trimChars piece.toList] := by
  rw [parseHosts_eq, Text.pieces_single h, List.map_singleton]

theorem comma_not_mem_blank {piece : String} (h : Text.isAllBlank piece = true) :
    ',' ∉ piece.toList := by
  intro hcomma
  have hblank : Text.isBlank ',' = true := isAllBlank_iff.mp h ',' hcomma
  exact absurd hblank (by decide)

theorem parseHosts_blank {piece : String} (h : Text.isAllBlank piece = true) :
    parseHosts piece = [] := by
  rw [parseHosts_piece (comma_not_mem_blank h), Text.trimChars_blank (isAllBlank_iff.mp h)]
  rfl

theorem parseHosts_entry {before host after : String} (hhost : IsEntry host)
    (hbefore : Text.isAllBlank before = true) (hafter : Text.isAllBlank after = true) :
    parseHosts (before ++ host ++ after) = [host] := by
  have htext : (before ++ host ++ after).toList = before.toList ++ host.toList ++ after.toList := by
    simp
  have hnone : ',' ∉ (before ++ host ++ after).toList := by
    simp only [htext, List.mem_append, not_or]
    exact ⟨⟨comma_not_mem_blank hbefore, hhost.noComma⟩, comma_not_mem_blank hafter⟩
  have htrim : Text.trimChars host.toList = host.toList := by
    have htoList := congrArg String.toList hhost.trimmed
    rwa [Text.trim, String.toList_ofList] at htoList
  have hne : host.toList.isEmpty = false := by
    simpa using hhost.ne_empty
  rw [parseHosts_piece hnone, htext,
    Text.trimChars_around (isAllBlank_iff.mp hbefore) (isAllBlank_iff.mp hafter), htrim, entriesOf]
  simp [hne]

/-- Joined pieces are read one by one. -/
theorem parseHosts_joined (pieces : List String) :
    parseHosts (",".intercalate pieces) = pieces.flatMap parseHosts := by
  induction pieces with
  | nil => rfl
  | cons piece pieces ih =>
    cases pieces with
    | nil => simp
    | cons next pieces =>
      rw [String.intercalate_cons_cons, parseHosts_comma, ih]
      rfl

theorem Spread.parseHosts_joined {hosts pieces : List String} (h : Spread hosts pieces)
    (hhosts : ∀ host ∈ hosts, IsEntry host) : parseHosts (",".intercalate pieces) = hosts := by
  rw [ClusterOutput.parseHosts_joined]
  induction h with
  | nil => rfl
  | blank hpiece _ ih => rw [List.flatMap_cons, parseHosts_blank hpiece, ih hhosts, List.nil_append]
  | entry host hbefore hafter _ ih =>
    rw [List.forall_mem_cons] at hhosts
    rw [List.flatMap_cons, parseHosts_entry hhosts.1 hbefore hafter, ih hhosts.2,
      List.singleton_append]

/-- Entries are spread over themselves. -/
theorem Spread.self (hosts : List String) : Spread hosts hosts := by
  have hblank : Text.isAllBlank "" = true := by decide
  induction hosts with
  | nil => exact .nil
  | cons host hosts ih => simpa using Spread.entry host hblank hblank ih

theorem parseHosts_trim (text : String) : parseHosts (Text.trim text) = parseHosts text := by
  have hcomma : Text.isBlank ',' = false := by decide
  rw [parseHosts_eq, Text.trim, String.toList_ofList, Text.trimmedPieces_trimChars hcomma,
    ← parseHosts_eq]

/-- **Reading a list of hosts takes it apart at its commas**: a list of two lists gives the entries of
the one and then of the other. Every entry is something, and has no comma and no white space at its
ends. Any such entries are what is read from pieces that they are spread over, with white space and
empty pieces around them; so what was read is read again from its own list. And the white space
around a variable that is not blank makes no difference to the entries that it gives. -/
theorem parseHosts_splits :
    (∀ a b : String, parseHosts (a ++ "," ++ b) = parseHosts a ++ parseHosts b) ∧
    (∀ text : String, ∀ host ∈ parseHosts text, IsEntry host) ∧
    (∀ hosts pieces : List String, (∀ host ∈ hosts, IsEntry host) → Spread hosts pieces →
      parseHosts (",".intercalate pieces) = hosts) ∧
    (∀ text : String, parseHosts (",".intercalate (parseHosts text)) = parseHosts text) ∧
    ∀ (env : Environment) (name raw : String), env.text? name = some raw →
      Text.isAllBlank raw = false → (env.setting? name).map parseHosts = some (parseHosts raw) := by
  refine ⟨parseHosts_comma, fun text host => isEntry_of_mem, fun hosts pieces hhosts hspread =>
    hspread.parseHosts_joined hhosts, fun text => ?_, fun env name raw hraw hblank => ?_⟩
  · exact (Spread.self _).parseHosts_joined fun host => isEntry_of_mem
  · simp only [Environment.setting?, hraw, Option.bind_some, hblank, Bool.false_eq_true, if_false,
      Option.map_some, parseHosts_trim]

/-- Two hosts, of which the second stands between an ideographic space and a line end, with blank
pieces around them. -/
theorem parseHosts_splits_spread :
    let hosts := ["http://a:9200", "b c"]
    let pieces := ["\t", " http://a:9200", "", "\u3000b c\r\n", " \u00a0"]
    let raw := "\t, http://a:9200,,\u3000b c\r\n, \u00a0"
    let env : Environment := [("ES_OUTPUT_HOSTS", Utf8.encode raw)]
    Spread hosts pieces ∧ ",".intercalate pieces = raw ∧ parseHosts raw = hosts ∧
      (env.setting? "ES_OUTPUT_HOSTS").map parseHosts = some hosts := by
  intro hosts pieces raw env
  obtain ⟨-, -, hread, -, hsetting⟩ := parseHosts_splits
  have hspread : Spread hosts pieces :=
    .blank (by decide) (@Spread.entry " " "" "http://a:9200" _ _ (by decide) (by decide)
      (.blank (by decide) (@Spread.entry "\u3000" "\r\n" "b c" _ _ (by decide) (by decide)
        (.blank (by decide) .nil))))
  have hentries : ∀ host ∈ hosts, IsEntry host := by
    intro host hhost
    rcases List.mem_pair.mp hhost with rfl | rfl
    · exact ⟨by decide, by decide, by decide⟩
    · exact ⟨by decide, by decide, by decide⟩
  have hjoined : ",".intercalate pieces = raw := by decide
  have hparse : parseHosts raw = hosts := hjoined ▸ hread hosts pieces hentries hspread
  have htext : env.text? "ES_OUTPUT_HOSTS" = some raw := by decide
  have hblank : Text.isAllBlank raw = false := by decide
  exact ⟨hspread, hjoined, hparse, by rw [hsetting env _ raw htext hblank, hparse]⟩

end ClusterOutput
