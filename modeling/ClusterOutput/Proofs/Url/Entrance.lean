/-
What stands behind a slash does not decide whether a text is a URL. If the
authority of a URL of a special scheme begins in front of the slash, it ends
there at the latest (`Enters`), and path, query and fragment are always read
(`Enters.parseChars_slash`).
-/
import ClusterOutput.Proofs.Url.Extension

namespace ClusterOutput.Url

/-! ## Text in front of a slash -/

/-- The text that counts in front of a slash. -/
def opening (cs : List Char) : List Char :=
  (cs.dropWhile isControlOrSpace).filter (!isTabOrNewline ·)

/-- The text that counts behind a slash. -/
def ending (cs : List Char) : List Char :=
  (Text.trimEndBy isControlOrSpace cs).filter (!isTabOrNewline ·)

theorem trimEndBy_append_stop {p : Char → Bool} {c : Char} (hc : p c = false)
    (cs later : List Char) :
    Text.trimEndBy p (cs ++ c :: later) = cs ++ c :: Text.trimEndBy p later := by
  have hdrop : (later.reverse ++ (c :: cs.reverse)).dropWhile p =
      later.reverse.dropWhile p ++ (c :: cs.reverse) :=
    (dropWhile_append_stop _ (by rintro d ⟨⟩; exact hc)).1
  simp only [Text.trimEndBy, List.reverse_append, List.reverse_cons, List.append_assoc,
    List.singleton_append, hdrop, List.reverse_reverse]

theorem cleaned_slash (cs later : List Char) :
    cleaned (cs ++ '/' :: later) = opening cs ++ '/' :: ending later := by
  have hdrop : (cs ++ '/' :: later).dropWhile isControlOrSpace =
      cs.dropWhile isControlOrSpace ++ '/' :: later :=
    (dropWhile_append_stop cs (by rintro c ⟨⟩; rfl)).1
  rw [cleaned, hdrop, trimEndBy_append_stop rfl, List.filter_append, List.filter_cons_of_pos rfl]
  rfl

theorem opening_eq (cs : List Char) :
    ∃ dropped, opening cs = cleaned cs ++ dropped ∧ ∀ c ∈ dropped, isControlOrSpace c = true := by
  obtain ⟨dropped, hdropped, hcontrol⟩ :=
    trimEndBy_append isControlOrSpace (cs.dropWhile isControlOrSpace)
  refine ⟨dropped.filter (!isTabOrNewline ·), ?_, fun c hc => hcontrol c (List.mem_of_mem_filter hc)⟩
  rw [opening, hdropped, List.filter_append]
  rfl

/-- A scheme ends in front of a slash. -/
theorem splitScheme?_slash (cs later : List Char) :
    splitScheme? (cs ++ '/' :: later) =
      (splitScheme? cs).map fun p => (p.1, p.2 ++ '/' :: later) := by
  cases hcs : splitScheme? cs with
  | some p => exact splitScheme?_append hcs _
  | none =>
    refine Option.eq_none_iff_forall_ne_some.mpr fun ⟨scheme, rest⟩ h => ?_
    obtain ⟨⟨c, hc, hletter⟩, hrest, hscheme⟩ := splitScheme?_eq_some.mp h
    rw [(dropWhile_append_stop cs (by rintro c ⟨⟩; rfl)).1] at hrest
    cases hsplit : cs.dropWhile isSchemeChar with
    | nil =>
      rw [hsplit] at hrest
      cases hrest
    | cons d rest' =>
      rw [hsplit, List.cons_append] at hrest
      obtain ⟨rfl, -⟩ := List.cons.inj hrest
      have hne : cs ≠ [] := by
        rintro rfl
        cases hsplit
      rw [List.head?_append_of_ne_nil _ hne] at hc
      have hsome := splitScheme?_eq_some.mpr ⟨⟨c, hc, hletter⟩, hsplit, rfl⟩
      rw [hcs] at hsome
      cases hsome

/-! ## Texts in which an authority begins -/

/-- The text begins a URL of a special scheme, and its authority begins within it. -/
structure Enters (cs scheme rest : List Char) : Prop where
  special : kindOf scheme = .special
  split : splitScheme? (opening cs) = some (scheme, rest)
  within : rest.dropWhile (isSlash .special) ≠ []

section

variable {cs scheme rest slashes : List Char} {v : Url}

/-- Whether the text of an authority behind a scheme is right decides whether there is a URL. -/
theorem Enters.parseChars_slash (h : Enters cs scheme rest) (later : List Char) :
    ∃ back, parseChars (cs ++ '/' :: later) =
      (parseAuthority scheme
        ((rest.dropWhile (isSlash .special)).takeWhile (!endsAuthority .special ·)) true).map
          (urlOf scheme back) := by
  let opened := rest.dropWhile (isSlash .special)
  refine ⟨opened.dropWhile (!endsAuthority .special ·) ++ '/' :: ending later,
    Opens.parseChars ⟨h.special, ⟨rest ++ '/' :: ending later, ?_, ?_⟩, ?_, ?_⟩⟩
  · rw [cleaned_slash, splitScheme?_slash, h.split]
    rfl
  · rw [(dropWhile_append h.within _).1, ← List.append_assoc, List.takeWhile_append_dropWhile]
  · exact fun c hc => List.mem_takeWhile_imp (p := (!endsAuthority .special ·)) hc
  · intro c hc
    rw [List.head?_append, Option.or_eq_some_iff] at hc
    rcases hc with hc | ⟨-, hc⟩
    · exact stops_of_dropWhile (p := (!endsAuthority .special ·)) hc
    · obtain rfl : '/' = c := Option.some.inj hc
      rfl

/-- The authority of a URL of a special scheme begins in front of the slashes at its end. -/
theorem Enters.of_slashed (hok : parseChars (cs ++ slashes) = .ok v)
    (hkind : kindOf v.scheme = .special) (hslashes : ∀ c ∈ slashes, c = '/') :
    ∃ rest, Enters cs v.scheme rest := by
  obtain ⟨front, back, hopens⟩ := opens_of_parse hok hkind
  have hfront := hopens.front_ne_nil hok
  obtain ⟨rest, hsplit, hrest⟩ := hopens.split
  have hne : rest.dropWhile (isSlash .special) ≠ [] := by simp [hrest, hfront]
  cases slashes with
  | nil =>
    obtain ⟨dropped, hopening, -⟩ := opening_eq cs
    rw [List.append_nil] at hsplit
    refine ⟨rest ++ dropped, hkind, ?_, ?_⟩
    · rw [hopening]
      exact splitScheme?_append hsplit dropped
    · rw [(dropWhile_append hne dropped).1]
      exact List.append_ne_nil_of_left_ne_nil hne dropped
  | cons c slashes =>
    obtain rfl := hslashes c List.mem_cons_self
    rw [cleaned_slash, splitScheme?_slash, Option.map_eq_some_iff] at hsplit
    obtain ⟨⟨scheme, before⟩, hbefore, heq⟩ := hsplit
    obtain ⟨rfl, rfl⟩ := Prod.mk.inj heq
    refine ⟨before, hkind, hbefore, fun hnil => hne ?_⟩
    -- behind the scheme there are slashes only
    have hslash : ∀ c ∈ ending slashes, isSlash .special c = true := by
      intro c hc
      have hmem : c ∈ slashes :=
        (List.rdropWhile_prefix _ _).subset (List.mem_of_mem_filter hc)
      rw [hslashes c (List.mem_cons_of_mem _ hmem)]
      rfl
    rw [List.dropWhile_eq_nil_iff] at hnil ⊢
    exact List.forall_mem_append.mpr ⟨hnil, List.forall_mem_cons.mpr ⟨rfl, hslash⟩⟩

end

end ClusterOutput.Url
