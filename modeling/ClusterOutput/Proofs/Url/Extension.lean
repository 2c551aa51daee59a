/-
What is put behind the text of a URL with a host. If that text ends in no control
and no space, and has neither a query nor a fragment, then segments behind it, and
a query behind these, are read as such: scheme and authority are those of the URL,
and the segments stand behind its own (`parseChars_extended`).
-/
import ClusterOutput.Proofs.Url.Segments
import Mathlib.Data.List.DropRight
import Mathlib.Data.List.TakeWhile

namespace ClusterOutput.Url

/-! ## Parts of a text -/

section

variable {p : Char → Bool} {cs later : List Char}

/-- What is dropped from a text ends within it. -/
theorem dropWhile_append (h : cs.dropWhile p ≠ []) (later : List Char) :
    (cs ++ later).dropWhile p = cs.dropWhile p ++ later ∧
      (cs ++ later).takeWhile p = cs.takeWhile p := by
  have hlen : (cs.takeWhile p).length ≠ cs.length := by
    intro hlen
    have hwhole := congrArg List.length (List.takeWhile_append_dropWhile (p := p) (l := cs))
    rw [List.length_append, hlen, Nat.add_eq_left] at hwhole
    exact h (List.eq_nil_of_length_eq_zero hwhole)
  rw [List.dropWhile_append, if_neg (by simpa using h), List.takeWhile_append, if_neg hlen]
  exact ⟨rfl, rfl⟩

/-- What is dropped from a text ends no later than with it. -/
theorem dropWhile_append_stop (cs : List Char) (h : ∀ c, later.head? = some c → p c = false) :
    (cs ++ later).dropWhile p = cs.dropWhile p ++ later ∧
      (cs ++ later).takeWhile p = cs.takeWhile p := by
  by_cases hnil : cs.dropWhile p = []
  · have hall := List.dropWhile_eq_nil_iff.mp hnil
    have hlater : later.dropWhile p = later ∧ later.takeWhile p = [] := by
      cases later with
      | nil => exact ⟨rfl, rfl⟩
      | cons c later => simp [h c rfl]
    rw [List.dropWhile_append_of_pos hall, List.takeWhile_append_of_pos hall, hlater.1, hlater.2,
      hnil, List.takeWhile_eq_self_iff.mpr hall, List.append_nil]
    exact ⟨rfl, rfl⟩
  · exact dropWhile_append hnil later

/-- A text that is kept up to where another begins. -/
theorem span_append (hkept : ∀ c ∈ cs, p c = true) (h : ∀ c, later.head? = some c → p c = false) :
    (cs ++ later).takeWhile p = cs ∧ (cs ++ later).dropWhile p = later := by
  obtain ⟨hdrop, htake⟩ := dropWhile_append_stop cs h
  rw [hdrop, htake, List.dropWhile_eq_nil_iff.mpr hkept, List.takeWhile_eq_self_iff.mpr hkept]
  exact ⟨rfl, rfl⟩

theorem stops_of_dropWhile {c : Char} (h : (cs.dropWhile p).head? = some c) : p c = false := by
  have hhead := List.head?_dropWhile_not p cs
  rwa [h] at hhead

theorem trimEndBy_eq_self (h : ∀ c, cs.getLast? = some c → p c = false) :
    Text.trimEndBy p cs = cs := by
  refine List.rdropWhile_eq_self_iff.mpr fun hne => ?_
  simp [h _ (List.getLast?_eq_some_getLast hne)]

theorem trimEndBy_append (p : Char → Bool) (cs : List Char) :
    ∃ dropped, cs = Text.trimEndBy p cs ++ dropped ∧ ∀ c ∈ dropped, p c = true :=
  ⟨cs.rtakeWhile p, List.rdropWhile_append_rtakeWhile.symm, fun _ => List.mem_rtakeWhile_imp⟩

end

/-! ## Text that counts -/

/-- The text does not end in a control or a space. -/
def EndsPlain (cs : List Char) : Prop := ∀ c, cs.getLast? = some c → isControlOrSpace c = false

/-- The text has no controls and no spaces. -/
def IsPlain (cs : List Char) : Prop := ∀ c ∈ cs, isControlOrSpace c = false

theorem IsPlain.append {cs later : List Char} (h : IsPlain cs) (h' : IsPlain later) :
    IsPlain (cs ++ later) := List.forall_mem_append.mpr ⟨h, h'⟩

theorem isControlOrSpace_of_tab {c : Char} (h : isTabOrNewline c = true) :
    isControlOrSpace c = true := by
  simp only [isTabOrNewline, Bool.or_eq_true, beq_iff_eq] at h
  rcases h with (rfl | rfl) | rfl <;> rfl

theorem IsPlain.filter_eq {cs : List Char} (h : IsPlain cs) :
    cs.filter (!isTabOrNewline ·) = cs := by
  refine List.filter_eq_self.mpr fun c hc => ?_
  rw [Bool.not_eq_true', Bool.eq_false_iff]
  intro htab
  have hcontrol := isControlOrSpace_of_tab htab
  rw [h c hc] at hcontrol
  cases hcontrol

theorem cleaned_append {cs later : List Char} (hend : EndsPlain cs) (hplain : IsPlain later) :
    cleaned (cs ++ later) = cleaned cs ++ later := by
  have hdrop : (cs ++ later).dropWhile isControlOrSpace =
      cs.dropWhile isControlOrSpace ++ later :=
    (dropWhile_append_stop cs fun c hc => hplain c (List.mem_of_head? hc)).1
  have hfront : EndsPlain (cs.dropWhile isControlOrSpace) := by
    intro c hc
    refine hend c ?_
    rw [← List.takeWhile_append_dropWhile (p := isControlOrSpace) (l := cs), List.getLast?_append, hc]
    rfl
  have hwhole : EndsPlain (cs.dropWhile isControlOrSpace ++ later) := by
    intro c hc
    rw [List.getLast?_append, Option.or_eq_some_iff] at hc
    rcases hc with hc | ⟨-, hc⟩
    · exact hplain c (List.mem_of_getLast? hc)
    · exact hfront c hc
  rw [cleaned, hdrop, trimEndBy_eq_self hwhole, List.filter_append, hplain.filter_eq, cleaned,
    trimEndBy_eq_self hfront]

theorem getLast?_cleaned {cs : List Char} (hend : EndsPlain cs) :
    (cleaned cs).getLast? = cs.getLast? := by
  rcases List.eq_nil_or_concat cs with rfl | ⟨front, c, rfl⟩
  · rfl
  rw [List.concat_eq_append] at hend ⊢
  have hc : isControlOrSpace c = false := hend c List.getLast?_concat
  have hsingle : IsPlain [c] := List.forall_mem_singleton.mpr hc
  have hdrop : (front ++ [c]).dropWhile isControlOrSpace =
      front.dropWhile isControlOrSpace ++ [c] :=
    (dropWhile_append_stop front (by rintro d ⟨⟩; exact hc)).1
  have hplain : EndsPlain (front.dropWhile isControlOrSpace ++ [c]) := by
    intro d hd
    rw [List.getLast?_concat] at hd
    exact Option.some.inj hd ▸ hc
  rw [cleaned, hdrop, trimEndBy_eq_self hplain, List.filter_append, hsingle.filter_eq,
    List.getLast?_concat, List.getLast?_concat]

/-! ## The scheme -/

theorem isWeb_iff {u : Url} : u.isWeb = true ↔
    (u.scheme = httpScheme ∨ u.scheme = httpsScheme) ∧ u.host?.isNone = false := by
  simp [isWeb]

theorem kindOf_web {scheme : List Char} (h : scheme = httpScheme ∨ scheme = httpsScheme) :
    kindOf scheme = .special := by
  rcases h with rfl | rfl <;> rfl

theorem splitScheme?_eq_some {cs scheme rest : List Char} :
    splitScheme? cs = some (scheme, rest) ↔
      (∃ c, cs.head? = some c ∧ isAsciiLetter c = true) ∧
        cs.dropWhile isSchemeChar = ':' :: rest ∧
        (cs.takeWhile isSchemeChar).map lowerAscii = scheme := by
  cases cs with
  | nil => simp [splitScheme?]
  | cons c cs =>
    simp only [splitScheme?, List.head?_cons, Option.some.injEq, exists_eq_left']
    by_cases hc : isAsciiLetter c = true
    · simp only [hc, if_true, true_and]
      split
      next rest' hrest => simp [hrest, and_comm]
      next hne =>
        constructor
        · intro h
          cases h
        · rintro ⟨h, -⟩
          exact absurd h (hne _)
    · simp [hc]

theorem splitScheme?_append {cs scheme rest : List Char} (h : splitScheme? cs = some (scheme, rest))
    (later : List Char) : splitScheme? (cs ++ later) = some (scheme, rest ++ later) := by
  rw [splitScheme?_eq_some] at h ⊢
  obtain ⟨⟨c, hc, hletter⟩, hrest, hscheme⟩ := h
  have hne : cs.dropWhile isSchemeChar ≠ [] := by simp [hrest]
  obtain ⟨hdrop, htake⟩ := dropWhile_append hne later
  refine ⟨⟨c, ?_, hletter⟩, ?_, ?_⟩
  · rw [List.head?_append, hc]
    rfl
  · rw [hdrop, hrest]
    rfl
  · rw [htake, hscheme]

/-! ## The authority -/

/-- A special scheme allows no empty host, whether the text ends there or not. -/
theorem parseAuthority_isLast {scheme : List Char} (hkind : kindOf scheme = .special)
    (cs : List Char) (isLast isLast' : Bool) :
    parseAuthority scheme cs isLast = parseAuthority scheme cs isLast' := by
  unfold parseAuthority
  simp only [hkind]
  split
  next front back hsplit =>
    by_cases hempty : front = [] ∧ back = []
    · obtain ⟨rfl, rfl⟩ := hempty
      cases isLast <;> cases isLast' <;> rfl
    · have hnot : (some front == some ([] : List Char) && back.isEmpty) = false := by
        simpa using hempty
      simp only [hnot, Bool.false_and, Bool.false_eq_true, if_false]
  next => rfl

theorem parseAuthority_nil {scheme : List Char} (hkind : kindOf scheme = .special) (isLast : Bool) :
    parseAuthority scheme [] isLast = .error .emptyHost := by
  simp [parseAuthority, splitUserinfo?, splitPort, parseHost, hkind]
  rfl

/-- The text is that of a URL of a special scheme, with the text of an authority and what stands
behind it. -/
structure Opens (cs scheme front back : List Char) : Prop where
  special : kindOf scheme = .special
  split : ∃ rest, splitScheme? (cleaned cs) = some (scheme, rest) ∧
    rest.dropWhile (isSlash .special) = front ++ back
  front_within : ∀ c ∈ front, (!endsAuthority .special c) = true
  back_ends : ∀ c, back.head? = some c → (!endsAuthority .special c) = false

/-- The URL that stands in a text so taken apart, around its authority. -/
def urlOf (scheme back : List Char) (a : Authority) : Url :=
  ⟨scheme, some a, .segments (parsePath .special (beforeQuery back)), (parseTail .special back).1,
    (parseTail .special back).2⟩

section

variable {cs scheme front back later : List Char} {u : Url}

theorem Opens.parseChars (h : Opens cs scheme front back) :
    parseChars cs = (parseAuthority scheme front true).map (urlOf scheme back) := by
  obtain ⟨rest, hsplit, hrest⟩ := h.split
  obtain ⟨htake, hdrop⟩ := span_append h.front_within h.back_ends
  rw [Url.parseChars, hsplit]
  simp only [parseAfterScheme, h.special, hrest, parseAfterSlashes, htake, hdrop]
  rw [parseAuthority_isLast h.special front true back.isEmpty]
  cases parseAuthority scheme front back.isEmpty <;> rfl

theorem Opens.front_ne_nil (h : Opens cs scheme front back) (hok : Url.parseChars cs = .ok u) :
    front ≠ [] := by
  rintro rfl
  rw [h.parseChars, parseAuthority_nil h.special] at hok
  cases hok

theorem parseAfterSlashes_scheme (h : parseAfterSlashes scheme cs = .ok u) : u.scheme = scheme := by
  simp only [parseAfterSlashes, bind, Except.bind] at h
  split at h
  · cases h
  · cases h
    rfl

theorem parseFile_scheme (h : parseFile cs = .ok u) : u.scheme = fileScheme := by
  simp only [parseFile, bind, Except.bind] at h
  split at h
  · split at h
    · split at h
      · cases h
        rfl
      · split at h
        · cases h
        · cases h
          rfl
    · cases h
      rfl
  · cases h
    rfl

theorem parseOther_scheme (h : parseOther scheme cs = .ok u) : u.scheme = scheme := by
  unfold parseOther at h
  split at h
  · exact parseAfterSlashes_scheme h
  · cases h
    rfl
  · cases h
    rfl

/-- A URL of a special scheme is read from a text that can be taken apart so. -/
theorem opens_of_parse (hok : Url.parseChars cs = .ok u) (hkind : kindOf u.scheme = .special) :
    ∃ front back, Opens cs u.scheme front back := by
  unfold Url.parseChars at hok
  split at hok
  next scheme rest hsplit =>
    simp only [parseAfterScheme] at hok
    split at hok
    next hspecial =>
      obtain rfl := parseAfterSlashes_scheme hok
      refine ⟨_, _, hspecial, ⟨rest, hsplit, (List.takeWhile_append_dropWhile
        (p := (!endsAuthority .special ·))).symm⟩, ?_, ?_⟩
      · exact fun c hc => List.mem_takeWhile_imp (p := (!endsAuthority .special ·)) hc
      · exact fun c hc => stops_of_dropWhile (p := (!endsAuthority .special ·)) hc
    next hfile =>
      rw [parseFile_scheme hok] at hkind
      cases hkind
    next hother =>
      rw [parseOther_scheme hok, hother] at hkind
      cases hkind
  next => cases hok

theorem Opens.suffix (h : Opens cs scheme front back) : front ++ back <:+ cleaned cs := by
  obtain ⟨rest, hsplit, hrest⟩ := h.split
  have hback : front ++ back <:+ rest := hrest ▸ List.dropWhile_suffix _
  have hrest : ':' :: rest <:+ cleaned cs :=
    (splitScheme?_eq_some.mp hsplit).2.1 ▸ List.dropWhile_suffix _
  exact (hback.trans (List.suffix_cons ':' rest)).trans hrest

/-- A text that ends plain ends with its authority and what stands behind that. -/
theorem Opens.getLast?_eq (h : Opens cs scheme front back) (hfront : front ≠ [])
    (hend : EndsPlain cs) : cs.getLast? = back.getLast?.or front.getLast? := by
  obtain ⟨before, hbefore⟩ := h.suffix
  rw [← getLast?_cleaned hend, ← hbefore,
    List.getLast?_append_of_ne_nil _ (List.append_ne_nil_of_left_ne_nil hfront back),
    List.getLast?_append]

/-- A slash at the end of a text stands behind the authority. -/
theorem Opens.getLast?_of_slash (h : Opens cs scheme front back) (hfront : front ≠ [])
    (hend : EndsPlain cs) {c : Char} (hslash : isSlash .special c = true)
    (hc : cs.getLast? = some c) : back.getLast? = some c := by
  rw [h.getLast?_eq hfront hend, Option.or_eq_some_iff] at hc
  rcases hc with hc | ⟨-, hc⟩
  · exact hc
  · have hwithin := h.front_within c (List.mem_of_getLast? hc)
    simp [endsAuthority, hslash] at hwithin

theorem Opens.append (h : Opens cs scheme front back) (hfront : front ≠ []) (hend : EndsPlain cs)
    (hplain : IsPlain ('/' :: later)) :
    Opens (cs ++ '/' :: later) scheme front (back ++ '/' :: later) := by
  obtain ⟨rest, hsplit, hrest⟩ := h.split
  refine ⟨h.special, ⟨rest ++ '/' :: later, ?_, ?_⟩, h.front_within, ?_⟩
  · rw [cleaned_append hend hplain]
    exact splitScheme?_append hsplit _
  · rw [(dropWhile_append (by simp [hrest, hfront]) _).1, hrest, List.append_assoc]
  · intro c hc
    rw [List.head?_append, Option.or_eq_some_iff] at hc
    rcases hc with hc | ⟨-, hc⟩
    · exact h.back_ends c hc
    · obtain rfl : '/' = c := Option.some.inj hc
      rfl

end

/-! ## Path and query -/

/-- The character is neither a question mark nor a number sign. -/
def isPathChar (c : Char) : Bool := c != '?' && c != '#'

section

variable {kind : SchemeKind} {back later tail : List Char} {segs : List (List Char)}

theorem isPathChar_of_parseTail (h : (parseTail kind back).1 = none ∧ (parseTail kind back).2 = none) :
    ∀ c ∈ back, isPathChar c = true := by
  obtain ⟨hquery, hfragment⟩ := h
  rw [← List.dropWhile_eq_nil_iff]
  simp only [parseTail] at hquery hfragment
  cases hrest : back.dropWhile isPathChar with
  | nil => rfl
  | cons c rest =>
    exfalso
    have hhead : (back.dropWhile isPathChar).head? = some c := by rw [hrest]; rfl
    have hstop : isPathChar c = false := stops_of_dropWhile hhead
    simp only [isPathChar, Bool.and_eq_false_iff, bne_eq_false_iff_eq] at hstop
    change back.dropWhile (fun c => c != '?' && c != '#') = c :: rest at hrest
    rw [hrest] at hquery hfragment
    rcases hstop with rfl | rfl
    · cases hquery
    · cases hfragment

theorem parseTail_append (hback : ∀ c ∈ back, isPathChar c = true) (tail : List Char) :
    parseTail kind (back ++ tail) = parseTail kind tail := by
  have hdrop : (back ++ tail).dropWhile (fun c => c != '?' && c != '#') =
      tail.dropWhile (fun c => c != '?' && c != '#') :=
    List.dropWhile_append_of_pos hback
  simp only [parseTail, hdrop]

theorem beforeQuery_append (hback : ∀ c ∈ back, isPathChar c = true)
    (htail : ∀ c, tail.head? = some c → isPathChar c = false) :
    beforeQuery (back ++ tail) = back := (span_append hback htail).1

/-- The segments of a path's own: what it comes to where it goes on behind its text. -/
def ownSegments : List Char → List (List Char)
  | [] => []
  | _ :: rest => (splitSegments .special rest).foldl stride []

theorem parsePath_cons {c : Char} (hc : isSlash .special c = true) (rest : List Char) :
    parsePath .special (c :: rest) = walk [] (splitSegments .special rest) := by
  simp only [parsePath, parsePathOnto, hc, if_true]

theorem parsePath_own (back : List Char)
    (hback : ∀ c, back.head? = some c → isSlash .special c = true) :
    parsePath .special back = ownSegments back ∨
      parsePath .special back = ownSegments back ++ [[]] := by
  cases back with
  | nil => exact .inr rfl
  | cons c back =>
    rw [parsePath_cons (hback c rfl)]
    exact walk_ends [] _

/-- The segments that stand behind the path of a URL stand behind its own. -/
theorem parsePath_append (back : List Char)
    (hback : ∀ c, back.head? = some c → isSlash .special c = true) {segs : List (List Char)}
    (hne : segs ≠ [])
    (hsegs : ∀ seg ∈ segs, (∀ c ∈ seg, isSlash .special c = false) ∧ IsStep seg) :
    parsePath .special (back ++ segs.flatMap ('/' :: ·)) = ownSegments back ++ segs := by
  cases back with
  | nil =>
    obtain ⟨seg, rest, rfl⟩ := List.exists_cons_of_ne_nil hne
    rw [List.forall_mem_cons] at hsegs
    have hsplit := splitSegments_slashed seg fun s hs => (hsegs.2 s hs).1
    rw [splitSegments_segment hsegs.1.1] at hsplit
    have hwalk : walk [] (seg :: rest) = [] ++ seg :: rest :=
      walk_steps [] (List.forall_mem_cons.mpr ⟨hsegs.1.2, fun s hs => (hsegs.2 s hs).2⟩)
    show walk [] (splitSegments .special (seg ++ rest.flatMap ('/' :: ·))) = _
    rw [hsplit]
    exact hwalk
  | cons c back =>
    rw [List.cons_append, parsePath_cons (hback c rfl),
      splitSegments_slashed back fun s hs => (hsegs s hs).1, walk_append _ _ hne]
    exact walk_steps _ fun s hs => (hsegs s hs).2

theorem slash_not_mem_own (back : List Char) : ∀ seg ∈ ownSegments back, '/' ∉ seg := by
  cases back with
  | nil => exact List.forall_mem_nil _
  | cons c rest =>
    exact slash_not_mem_foldl (slash_not_mem_splitSegments .special rest) (List.forall_mem_nil _)

/-- The own segments of a path that ends in no slash end in an empty one only where the path has
another. -/
theorem parsePath_of_ends_empty {back : List Char}
    (hback : ∀ c, back.head? = some c → isSlash .special c = true)
    (hlast : ∀ c, back.getLast? = some c → isSlash .special c = false)
    (hend : (ownSegments back).getLast? = some []) :
    parsePath .special back = ownSegments back ++ [[]] := by
  rcases back with _ | ⟨c, rest⟩
  · cases hend
  rcases List.eq_nil_or_concat rest with rfl | ⟨front, d, rfl⟩
  · have hslash := hback c rfl
    rw [hlast c rfl] at hslash
    cases hslash
  rw [List.concat_eq_append] at hlast hend ⊢
  rw [← List.cons_append] at hlast
  obtain ⟨segs, seg, hsplit, hseg⟩ := splitSegments_concat (hlast d List.getLast?_concat) front
  simp only [ownSegments, hsplit] at hend ⊢
  rw [parsePath_cons (hback c rfl), hsplit]
  exact walk_of_ends_empty [] segs hseg hend

/-- All segments of a path that ends in a slash are its own. -/
theorem parsePath_of_ends_slash {back : List Char}
    (hback : ∀ c, back.head? = some c → isSlash .special c = true) {d : Char}
    (hslash : isSlash .special d = true) (hlast : back.getLast? = some d) :
    parsePath .special back = ownSegments back := by
  rcases back with _ | ⟨c, rest⟩
  · cases hlast
  rw [parsePath_cons (hback c rfl), ownSegments]
  rcases List.eq_nil_or_concat rest with rfl | ⟨front, e, rfl⟩
  · exact walk_of_ends_slash [] []
  · rw [List.concat_eq_append, ← List.cons_append, List.getLast?_concat] at hlast
    obtain rfl := Option.some.inj hlast
    rw [List.concat_eq_append, splitSegments_append hslash]
    exact walk_of_ends_slash [] _

end

/-! ## A whole URL -/

theorem isControlOrSpace_of_lt {c : Char} (h : 0x20 < c.toNat) : isControlOrSpace c = false :=
  decide_eq_false (Nat.not_le.mpr h)

theorem isSegmentChar_plain {c : Char} (h : isSegmentChar c = true) :
    isControlOrSpace c = false := by
  simp only [isSegmentChar, Bool.and_eq_true, decide_eq_true_eq] at h
  exact isControlOrSpace_of_lt h.1.1.1.1

theorem isFormChar_plain {c : Char} (h : isFormChar c = true) : isControlOrSpace c = false := by
  simp only [isFormChar, Bool.and_eq_true, decide_eq_true_eq] at h
  exact isControlOrSpace_of_lt h.1.1.1

theorem isSegmentChar_path {c : Char} (h : isSegmentChar c = true) : isPathChar c = true := by
  simp only [isPathChar, Bool.and_eq_true, bne_iff_ne]
  constructor
  · rintro rfl
    exact absurd h (by decide)
  · rintro rfl
    exact absurd h (by decide)

theorem forall_slashed {P : Char → Prop} (hslash : P '/') {segs : List (List Char)}
    (h : ∀ seg ∈ segs, ∀ c ∈ seg, P c) : ∀ c ∈ segs.flatMap ('/' :: ·), P c := by
  intro c hc
  obtain ⟨seg, hseg, hc⟩ := List.mem_flatMap.mp hc
  rcases List.mem_cons.mp hc with rfl | hc
  · exact hslash
  · exact h seg hseg c hc

/-- The own segments of a URL: those of its path, without one that is empty because the path ends
there. -/
structure IsOwn (cs : List Char) (u : Url) (own : List (List Char)) : Prop where
  path : u.path = .segments own ∨ u.path = .segments (own ++ [[]])
  slash_not_mem : ∀ seg ∈ own, '/' ∉ seg
  path_of_ends_empty : (∀ c, cs.getLast? = some c → isSlash .special c = false) →
    own.getLast? = some [] → u.path = .segments (own ++ [[]])
  path_of_ends_slash : ∀ c, cs.getLast? = some c → isSlash .special c = true →
    u.path = .segments own

/-- Whatever segments of plain characters, none of them dots, stand behind the text, and whatever
query behind these, it is the text of the same URL with these segments behind its own, and the
query. -/
def Continues (cs : List Char) (u : Url) (own : List (List Char)) : Prop :=
  ∀ segs tail, segs ≠ [] → (∀ seg ∈ segs, (∀ c ∈ seg, isSegmentChar c = true) ∧ IsStep seg) →
    IsPlain tail → (∀ c, tail.head? = some c → isPathChar c = false) →
      parseChars (cs ++ segs.flatMap ('/' :: ·) ++ tail) =
        .ok { u with
          path := .segments (own ++ segs)
          query := (parseTail .special tail).1
          fragment := (parseTail .special tail).2 }

/-- **What stands behind the URL of a host is read as such.** The URL is of a special scheme, ends in
no control and no space, and has neither a query nor a fragment. Then segments and a query can stand
behind it. -/
theorem parseChars_extended {cs : List Char} {u : Url} (hok : parseChars cs = .ok u)
    (hkind : kindOf u.scheme = .special) (hquery : u.query = none) (hfragment : u.fragment = none)
    (hend : EndsPlain cs) : ∃ own, IsOwn cs u own ∧ Continues cs u own := by
  obtain ⟨front, back, hopens⟩ := opens_of_parse hok hkind
  have hfront := hopens.front_ne_nil hok
  have hparse := hopens.parseChars
  rw [hok] at hparse
  obtain ⟨a, ha, hu⟩ : ∃ a, parseAuthority u.scheme front true = .ok a ∧ u = urlOf u.scheme back a := by
    cases ha : parseAuthority u.scheme front true with
    | error fault =>
      rw [ha] at hparse
      cases hparse
    | ok a =>
      rw [ha] at hparse
      exact ⟨a, rfl, Except.ok.inj hparse⟩
  have hback : ∀ c ∈ back, isPathChar c = true := by
    rw [hu] at hquery hfragment
    exact isPathChar_of_parseTail ⟨hquery, hfragment⟩
  have hslash : ∀ c, back.head? = some c → isSlash .special c = true := by
    intro c hc
    have hends := hopens.back_ends c hc
    have hpath := hback c (List.mem_of_head? hc)
    simp only [endsAuthority, isPathChar, Bool.not_eq_false', Bool.or_eq_true, Bool.and_eq_true,
      bne_iff_ne, beq_iff_eq] at hends hpath
    rcases hends with (hends | rfl) | rfl
    · exact hends
    · exact absurd rfl hpath.1
    · exact absurd rfl hpath.2
  have hpath : u.path = .segments (parsePath .special back) := by
    have hbefore : beforeQuery back = back := List.takeWhile_eq_self_iff.mpr hback
    rw [hu, urlOf, hbefore]
  refine ⟨ownSegments back, ⟨?_, slash_not_mem_own back, fun hlast hempty => ?_,
    fun c hc hends => ?_⟩, ?_⟩
  · rw [hpath, Path.segments.injEq, Path.segments.injEq]
    exact parsePath_own back hslash
  · have hplain : ∀ c, back.getLast? = some c → isSlash .special c = false := by
      intro c hc
      refine hlast c ?_
      rw [hopens.getLast?_eq hfront hend, hc]
      rfl
    rw [hpath, parsePath_of_ends_empty hslash hplain hempty]
  · rw [hpath, parsePath_of_ends_slash hslash hends (hopens.getLast?_of_slash hfront hend hends hc)]
  · intro segs tail hne hsegs htail hstop
    have hplain : IsPlain (segs.flatMap ('/' :: ·)) :=
      forall_slashed (P := (isControlOrSpace · = false)) rfl fun seg hseg c hc =>
        isSegmentChar_plain ((hsegs seg hseg).1 c hc)
    have hchars : ∀ c ∈ back ++ segs.flatMap ('/' :: ·), isPathChar c = true :=
      List.forall_mem_append.mpr ⟨hback,
        forall_slashed (P := (isPathChar · = true)) rfl fun seg hseg c hc =>
          isSegmentChar_path ((hsegs seg hseg).1 c hc)⟩
    have hsteps := parsePath_append back hslash hne fun seg hseg =>
      ⟨fun c hc => isSegmentChar_slash ((hsegs seg hseg).1 c hc), (hsegs seg hseg).2⟩
    obtain ⟨later, hlater⟩ : ∃ later, segs.flatMap ('/' :: ·) ++ tail = '/' :: later := by
      obtain ⟨seg, rest, rfl⟩ := List.exists_cons_of_ne_nil hne
      exact ⟨_, rfl⟩
    have hopens' := hopens.append hfront hend (hlater ▸ hplain.append htail)
    rw [List.append_assoc, hlater, hopens'.parseChars, ha, ← hlater, ← List.append_assoc, Except.map,
      urlOf, beforeQuery_append hchars hstop, parseTail_append hchars, hsteps, hu]
    rfl

end ClusterOutput.Url
