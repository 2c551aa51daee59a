/-
A query behind a text. Encoded parameters that stand behind a question mark are
read as the query that they are, whatever the text before: if that has neither a
question mark nor a number sign, the URL is the one of the text alone, with this
query (`parseChars_query`).

There are two exceptions. Controls and spaces at the end of a text are dropped,
but not where a query stands behind them (`counted`); and an authority of nothing
but an at sign is taken where the text ends, and not before a query.
-/
import ClusterOutput.Proofs.Result
import ClusterOutput.Proofs.Url.Extension

namespace ClusterOutput.Url

/-- The URL with a query. -/
def withQuery (q : List Char) (u : Url) : Url := { u with query := some q }

/-- The text has neither a question mark nor a number sign. -/
def IsBare (cs : List Char) : Prop := ∀ c ∈ cs, isPathChar c = true

instance (cs : List Char) : Decidable (IsBare cs) := List.decidableBAll _ cs

/-- All of the text is kept in a query. -/
def IsForm (q : List Char) : Prop := ∀ c ∈ q, isFormChar c = true

/-- The text ends in no control and no space, but for tabs and newlines. -/
def EndsVisibly (cs : List Char) : Prop := EndsPlain (cs.filter (!isTabOrNewline ·))

variable {cs q : List Char} {u : Url} {kind : SchemeKind} {scheme : List Char}

theorem IsBare.tail {c : Char} (h : IsBare (c :: cs)) : IsBare cs :=
  (List.forall_mem_cons.mp h).2

theorem IsBare.dropWhile (h : IsBare cs) (p : Char → Bool) : IsBare (cs.dropWhile p) :=
  fun c hc => h c ((List.dropWhile_suffix p).subset hc)

theorem IsForm.tail_plain (hq : IsForm q) : IsPlain ('?' :: q) :=
  List.forall_mem_cons.mpr ⟨rfl, fun c hc => isFormChar_plain (hq c hc)⟩

/-! ## The text that counts -/

/-- The text that counts where another follows: nothing is dropped at its end. -/
def counted (cs : List Char) : List Char :=
  (cs.dropWhile isControlOrSpace).filter (!isTabOrNewline ·)

theorem mem_of_mem_counted {c : Char} (h : c ∈ counted cs) : c ∈ cs :=
  (List.dropWhile_suffix _).subset (List.mem_filter.mp h).1

theorem cleaned_query (cs : List Char) (hq : IsForm q) :
    cleaned (cs ++ '?' :: q) = counted cs ++ '?' :: q := by
  have hplain := hq.tail_plain
  have hdrop : (cs ++ '?' :: q).dropWhile isControlOrSpace =
      cs.dropWhile isControlOrSpace ++ '?' :: q :=
    (dropWhile_append_stop cs fun c hc => hplain c (List.mem_of_head? hc)).1
  have hend : ∀ c, (cs.dropWhile isControlOrSpace ++ '?' :: q).getLast? = some c →
      isControlOrSpace c = false := by
    intro c hc
    rw [List.getLast?_append_of_ne_nil _ (List.cons_ne_nil _ _)] at hc
    exact hplain c (List.mem_of_getLast? hc)
  rw [cleaned, hdrop, trimEndBy_eq_self hend, List.filter_append, hplain.filter_eq, counted]

/-- What is dropped at the end of a text are tabs and newlines, if it ends in no control and no
space but for these. -/
theorem cleaned_eq_counted (hend : EndsVisibly cs) :
    cleaned cs = counted cs := by
  obtain ⟨dropped, hcs, hdropped⟩ :=
    trimEndBy_append isControlOrSpace (cs.dropWhile isControlOrSpace)
  have hnil : dropped.filter (!isTabOrNewline ·) = [] := by
    by_contra hne
    obtain ⟨c, hc⟩ : ∃ c, (dropped.filter (!isTabOrNewline ·)).getLast? = some c :=
      ⟨_, List.getLast?_eq_some_getLast hne⟩
    have hlast : (cs.filter (!isTabOrNewline ·)).getLast? = some c := by
      rw [← List.takeWhile_append_dropWhile (p := isControlOrSpace) (l := cs), hcs,
        List.filter_append, List.filter_append, ← List.append_assoc,
        List.getLast?_append_of_ne_nil _ hne, hc]
    have hcontrol := hdropped c (List.mem_filter.mp (List.mem_of_getLast? hc)).1
    rw [hend c hlast] at hcontrol
    cases hcontrol
  rw [cleaned, counted]
  conv_rhs => rw [hcs, List.filter_append, hnil, List.append_nil]

/-! ## The parts of a URL -/

theorem span_query {p : Char → Bool} (hstop : p '?' = false) (cs q : List Char) :
    (cs ++ '?' :: q).dropWhile p = cs.dropWhile p ++ '?' :: q ∧
      (cs ++ '?' :: q).takeWhile p = cs.takeWhile p :=
  dropWhile_append_stop cs (by rintro c ⟨⟩; exact hstop)

theorem splitScheme?_query (cs q : List Char) :
    splitScheme? (cs ++ '?' :: q) = (splitScheme? cs).map fun p => (p.1, p.2 ++ '?' :: q) := by
  cases h : splitScheme? cs with
  | some p => exact splitScheme?_append h _
  | none =>
    rw [Option.map_none, Option.eq_none_iff_forall_ne_some]
    rintro ⟨scheme, rest⟩ hsome
    obtain ⟨⟨c, hc, hletter⟩, hrest, -⟩ := splitScheme?_eq_some.mp hsome
    rw [(span_query (p := isSchemeChar) rfl cs q).1] at hrest
    cases hcs : cs.dropWhile isSchemeChar with
    | nil =>
      rw [hcs] at hrest
      cases hrest
    | cons d later =>
      rw [hcs, List.cons_append, List.cons.injEq] at hrest
      obtain ⟨rfl, -⟩ := hrest
      have hhead : cs.head? = some c := by
        cases cs with
        | nil => cases hcs
        | cons _ _ => exact hc
      have hfound := splitScheme?_eq_some.mpr ⟨⟨c, hhead, hletter⟩, hcs, rfl⟩
      rw [h] at hfound
      cases hfound

theorem parseTail_bare (h : IsBare cs) : parseTail kind cs = (none, none) := by
  have hdrop : cs.dropWhile (fun c => c != '?' && c != '#') = [] := List.dropWhile_eq_nil_iff.mpr h
  simp only [parseTail, hdrop, List.dropWhile_nil]

theorem beforeQuery_bare (h : IsBare cs) : beforeQuery cs = cs := List.takeWhile_eq_self_iff.mpr h

theorem parseTail_query (h : IsBare cs) (hq : IsForm q) :
    parseTail kind (cs ++ '?' :: q) = (some q, none) := by
  rw [parseTail_append h, parseTail_form hq]

theorem beforeQuery_query (h : IsBare cs) (q : List Char) : beforeQuery (cs ++ '?' :: q) = cs :=
  beforeQuery_append h (by rintro c ⟨⟩; rfl)

theorem splitUserinfo?_alone : splitUserinfo? cs = some ([], []) ↔ cs = ['@'] := by
  constructor
  · intro h
    unfold splitUserinfo? at h
    split at h
    · cases h
    next c front hfront =>
      obtain ⟨hback, hdrop⟩ := Prod.mk.inj (Option.some.inj h)
      obtain rfl := List.reverse_eq_nil_iff.mp hback
      rcases cs with _ | ⟨d, cs⟩
      · cases hfront
      obtain rfl : cs = [] := hdrop
      by_cases hd : d = '@'
      · rw [hd]
      · simp [hd] at hfront
  · rintro rfl
    rfl

/-- An authority of nothing but an at sign is refused where it does not end the text. -/
theorem parseAuthority_within (scheme cs : List Char) :
    parseAuthority scheme cs false =
      if cs = ['@'] then .error .emptyHost else parseAuthority scheme cs true := by
  split
  next hcs =>
    subst hcs
    rfl
  next hcs =>
    rw [← splitUserinfo?_alone] at hcs
    unfold parseAuthority
    cases hsplit : splitUserinfo? cs with
    | none => rfl
    | some p =>
      obtain ⟨front, back⟩ := p
      have hnot : (some front == some ([] : List Char) && back.isEmpty) = false := by
        rw [hsplit] at hcs
        simpa using hcs
      simp only [hnot, Bool.false_and, Bool.false_eq_true, if_false]

/-- An at sign alone names no host. -/
theorem parseAuthority_alone {a : Authority} (h : parseAuthority scheme ['@'] true = .ok a) :
    a.host = none := by
  have hhost : parseHost (kindOf scheme) [] = .error .emptyHost ∨
      parseHost (kindOf scheme) [] = .ok none := by
    simp only [parseHost, List.isEmpty_nil, if_true]
    split
    · exact .inl rfl
    · exact .inr rfl
  change (parseHost (kindOf scheme) [] >>= fun host => _) = _ at h
  obtain ⟨host, hok, h⟩ := bind_eq_ok.mp h
  rcases hhost with hhost | hhost <;> rw [hhost] at hok <;> cases hok
  cases h
  rfl

/-! ## Whole URLs -/

/-- What is read with a query behind it is what is read alone, with this query. Or it is refused, and
what is read alone names no host. -/
structure Queried (q : List Char) (alone queried : Except Fault Url) : Prop where
  bare : ∀ u, alone = .ok u → u.query = none ∧ u.fragment = none
  read : queried = alone.map (withQuery q) ∨
    queried = .error .emptyHost ∧ ∀ u, alone = .ok u → u.host? = none

/-- Two URLs that are made of one result, and differ in the query. -/
theorem Queried.map {α : Type} (r : Except Fault α) {g g' : α → Url}
    (hbare : ∀ a, (g a).query = none ∧ (g a).fragment = none)
    (hquery : ∀ a, g' a = withQuery q (g a)) : Queried q (r.map g) (r.map g') := by
  cases r with
  | error fault => exact ⟨nofun, .inl rfl⟩
  | ok a =>
    refine ⟨?_, .inl (congrArg Except.ok (hquery a))⟩
    rintro u ⟨⟩
    exact hbare a

theorem Queried.ok (hbare : u.query = none ∧ u.fragment = none) :
    Queried q (.ok u) (.ok (withQuery q u)) :=
  .map (.ok ()) (fun _ => hbare) fun _ => rfl

theorem parseAfterSlashes_eq (scheme cs : List Char) :
    parseAfterSlashes scheme cs =
      let kind := kindOf scheme
      let back := cs.dropWhile (!endsAuthority kind ·)
      (parseAuthority scheme (cs.takeWhile (!endsAuthority kind ·)) back.isEmpty).map fun a =>
        ⟨scheme, some a, .segments (parsePath kind (beforeQuery back)), (parseTail kind back).1,
          (parseTail kind back).2⟩ := by
  simp only [parseAfterSlashes]
  cases parseAuthority scheme _ _ <;> rfl

theorem parseAfterSlashes_query (h : IsBare cs) (hq : IsForm q) :
    Queried q (parseAfterSlashes scheme cs) (parseAfterSlashes scheme (cs ++ '?' :: q)) := by
  have hstop : (!endsAuthority (kindOf scheme) '?') = false := by simp [endsAuthority]
  obtain ⟨hdrop, htake⟩ := span_query (p := (!endsAuthority (kindOf scheme) ·)) hstop cs q
  have hback := h.dropWhile (!endsAuthority (kindOf scheme) ·)
  have hwithin : (cs.dropWhile (!endsAuthority (kindOf scheme) ·) ++ '?' :: q).isEmpty = false := by
    simp
  rw [parseAfterSlashes_eq, parseAfterSlashes_eq]
  simp only [hdrop, htake, parseTail_bare hback, beforeQuery_bare hback, parseTail_query hback hq,
    beforeQuery_query hback, hwithin]
  cases hempty : cs.dropWhile (!endsAuthority (kindOf scheme) ·) with
  | cons c back => exact .map _ (fun _ => ⟨rfl, rfl⟩) fun _ => rfl
  | nil =>
    have hfront := List.takeWhile_eq_self_iff.mpr (List.dropWhile_eq_nil_iff.mp hempty)
    rw [hfront, parseAuthority_within, List.isEmpty_nil]
    split
    next halone =>
      subst halone
      constructor
      · intro u hu
        obtain ⟨a, -, rfl⟩ := map_eq_ok.mp hu
        exact ⟨rfl, rfl⟩
      · refine .inr ⟨rfl, fun u hu => ?_⟩
        obtain ⟨a, ha, rfl⟩ := map_eq_ok.mp hu
        exact parseAuthority_alone ha
    next => exact .map _ (fun _ => ⟨rfl, rfl⟩) fun _ => rfl

theorem parseFile_query (h : IsBare cs) (hq : IsForm q) :
    Queried q (parseFile cs) (parseFile (cs ++ '?' :: q)) := by
  simp only [parseFile, parseTail_query h hq, parseTail_bare h, beforeQuery_query h,
    beforeQuery_bare h]
  split
  next a b rest =>
    split
    · split
      · exact .ok ⟨rfl, rfl⟩
      · exact .map (Host.parse (rest.takeWhile (!isSlash .file ·))) (fun _ => ⟨rfl, rfl⟩) fun _ => rfl
    · exact .ok ⟨rfl, rfl⟩
  next => exact .ok ⟨rfl, rfl⟩

theorem parseOther_path (h : cs.head? ≠ some '/') : parseOther scheme ('/' :: cs) =
    .ok ⟨scheme, none, .segments (parsePathOnto .other [] (beforeQuery cs)),
      (parseTail .other cs).1, (parseTail .other cs).2⟩ := by
  unfold parseOther
  split
  next rest heq =>
    cases heq
    exact absurd rfl h
  next rest heq =>
    cases heq
    rfl
  next hne => exact absurd rfl (hne cs)

theorem parseOther_rootless (h : cs.head? ≠ some '/') : parseOther scheme cs =
    .ok ⟨scheme, none, .rootless (encodeText (fun _ => false) (beforeQuery cs)),
      (parseTail .other cs).1, (parseTail .other cs).2⟩ := by
  unfold parseOther
  split
  next => exact absurd rfl h
  next => exact absurd rfl h
  next => rfl

/-- A query begins with no slash. -/
theorem head?_query (h : cs.head? ≠ some '/') (q : List Char) :
    (cs ++ '?' :: q).head? ≠ some '/' := by
  cases cs with
  | nil => exact nofun
  | cons c cs => exact h

theorem parseOther_query (h : IsBare cs) (hq : IsForm q) :
    Queried q (parseOther scheme cs) (parseOther scheme (cs ++ '?' :: q)) := by
  by_cases hslash : cs.head? = some '/'
  · obtain ⟨rest, rfl⟩ : ∃ rest, cs = '/' :: rest := List.head?_eq_some_iff.mp hslash
    have hrest := h.tail
    by_cases hsecond : rest.head? = some '/'
    · obtain ⟨back, rfl⟩ := List.head?_eq_some_iff.mp hsecond
      exact parseAfterSlashes_query hrest.tail hq
    · rw [List.cons_append, parseOther_path hsecond, parseOther_path (head?_query hsecond q)]
      simp only [parseTail_bare hrest, beforeQuery_bare hrest, parseTail_query hrest hq,
        beforeQuery_query hrest]
      exact .ok ⟨rfl, rfl⟩
  · rw [parseOther_rootless hslash, parseOther_rootless (head?_query hslash q)]
    simp only [parseTail_bare h, beforeQuery_bare h, parseTail_query h hq, beforeQuery_query h]
    exact .ok ⟨rfl, rfl⟩

theorem parseAfterScheme_query (h : IsBare cs) (hq : IsForm q) :
    Queried q (parseAfterScheme scheme cs) (parseAfterScheme scheme (cs ++ '?' :: q)) := by
  unfold parseAfterScheme
  split
  next =>
    rw [(span_query (p := isSlash .special) rfl cs q).1]
    exact parseAfterSlashes_query (h.dropWhile _) hq
  next => exact parseFile_query h hq
  next => exact parseOther_query h hq

/-- What is read of the text that counts. -/
def readCounted (cs : List Char) : Except Fault Url :=
  match splitScheme? cs with
  | some (scheme, rest) => parseAfterScheme scheme rest
  | none => .error .relativeWithoutBase

theorem readCounted_query (h : IsBare cs) (hq : IsForm q) :
    Queried q (readCounted cs) (readCounted (cs ++ '?' :: q)) := by
  rw [readCounted, readCounted, splitScheme?_query]
  cases hsplit : splitScheme? cs with
  | none => exact ⟨nofun, .inl rfl⟩
  | some p =>
    have hrest : IsBare p.2 := by
      obtain ⟨-, hdrop, -⟩ := splitScheme?_eq_some.mp hsplit
      have hbehind := h.dropWhile isSchemeChar
      rw [hdrop] at hbehind
      exact hbehind.tail
    exact parseAfterScheme_query hrest hq

theorem parseChars_eq (cs : List Char) : parseChars cs = readCounted (cleaned cs) := rfl

theorem IsBare.cleaned (h : IsBare cs) : IsBare (cleaned cs) := by
  obtain ⟨dropped, hcs, -⟩ := trimEndBy_append isControlOrSpace (cs.dropWhile isControlOrSpace)
  intro c hc
  have hmem : c ∈ cs.dropWhile isControlOrSpace :=
    hcs ▸ List.mem_append_left _ (List.mem_filter.mp hc).1
  exact h.dropWhile _ c hmem

/-- A text that has neither a question mark nor a number sign is that of a URL without a query and
without a fragment. -/
theorem parseChars_bare (h : IsBare cs) (hok : parseChars cs = .ok u) :
    u.query = none ∧ u.fragment = none :=
  (readCounted_query (q := []) h.cleaned (List.forall_mem_nil _)).bare u hok

/-- **A query behind a text is read as such.** The text has neither a question mark nor a number sign.
Whatever URL is read with a query of encoded characters behind it has just this query, and no
fragment. If the text ends in no control and no space, but for tabs and newlines, the URL is that of
the text alone otherwise; and there is one with the query if the text alone names a host. -/
theorem parseChars_query (h : IsBare cs) (hq : IsForm q) :
    (∀ u, parseChars (cs ++ '?' :: q) = .ok u → u.query = some q ∧ u.fragment = none) ∧
    (EndsVisibly cs →
      (∀ u, parseChars (cs ++ '?' :: q) = .ok u → ∃ v, parseChars cs = .ok v ∧ u = v.withQuery q) ∧
      ∀ v, parseChars cs = .ok v → v.host?.isSome = true →
        parseChars (cs ++ '?' :: q) = .ok (v.withQuery q)) := by
  have hread := readCounted_query (fun c hc => h c (mem_of_mem_counted hc)) hq
  rw [parseChars_eq (cs ++ '?' :: q), cleaned_query cs hq]
  have hback (u : Url) (hu : readCounted (counted cs ++ '?' :: q) = .ok u) :
      ∃ v, readCounted (counted cs) = .ok v ∧ u = v.withQuery q := by
    rcases hread.read with hqueried | ⟨hrefused, -⟩
    · rw [hqueried] at hu
      obtain ⟨v, hv, rfl⟩ := map_eq_ok.mp hu
      exact ⟨v, hv, rfl⟩
    · rw [hrefused] at hu
      cases hu
  refine ⟨fun u hu => ?_, fun hend => ?_⟩
  · obtain ⟨v, hv, rfl⟩ := hback u hu
    exact ⟨rfl, (hread.bare v hv).2⟩
  · rw [parseChars_eq cs, cleaned_eq_counted hend]
    refine ⟨hback, fun v hv hhost => ?_⟩
    rcases hread.read with hqueried | ⟨-, hnone⟩
    · rw [hqueried, hv]
      rfl
    · rw [hnone v hv] at hhost
      cases hhost

end ClusterOutput.Url
