/-
URLs can be read again. The text of an http or https URL that was read is visible
ASCII, and without the slashes at its end it is read as such a URL with the same
host (`reread`).

Behind the authority nothing can make a text wrong, so that it is the authority
that has to be read again.
-/
import ClusterOutput.Proofs.Url.Authority
import ClusterOutput.Proofs.Url.Entrance
import ClusterOutput.Proofs.Url.Segments

namespace ClusterOutput.Url

/-! ## What a text consists of -/

/-- A visible ASCII character. -/
def isVisible (c : Char) : Bool := 0x20 < c.toNat && c.toNat < 0x7f

theorem isVisible_of_authority {c : Char} (h : isAuthorityChar c = true) :
    isVisible c = true ∧ endsAuthority .special c = false := by
  simp only [isAuthorityChar, Bool.and_eq_true, Bool.not_eq_true'] at h
  exact ⟨by simpa [isVisible] using h.1, h.2⟩

theorem isVisible_plain {c : Char} (h : isVisible c = true) :
    isControlOrSpace c = false ∧ Text.isBlank c = false := by
  simp only [isVisible, Bool.and_eq_true, decide_eq_true_eq] at h
  refine ⟨by simp [isControlOrSpace]; omega, ?_⟩
  simp only [Text.isBlank, Bool.or_eq_false_iff, Bool.and_eq_false_iff, decide_eq_false_iff_not,
    beq_eq_false_iff_ne]
  omega

/-- What is encoded is visible, if spaces are. -/
theorem encodeText_visible {escaped : UInt8 → Bool} (hspace : escaped 0x20 = true) (cs : List Char) :
    ∀ c ∈ encodeText escaped cs, isVisible c = true := by
  refine forall_encodeText (fun b _ hplain hkept => ?_) (by decide) (by decide)
  obtain ⟨hlow, hhigh, hchar⟩ := toNat_ofByte hplain
  have hne : b.toNat ≠ 0x20 := by
    intro heq
    obtain rfl : b = 0x20 := UInt8.toNat_inj.mp heq
    rw [hspace] at hkept
    cases hkept
  simp only [isVisible, hchar, Bool.and_eq_true, decide_eq_true_eq]
  omega

/-- The segments that a path comes to are encoded. -/
theorem forall_walk {P : List Char → Prop} (hempty : P []) (hencoded : ∀ cs, P (encodeText inPath cs))
    (segs : List (List Char)) {path : List (List Char)} (hpath : ∀ seg ∈ path, P seg) :
    ∀ seg ∈ walk path segs, P seg := by
  induction segs generalizing path with
  | nil => exact hpath
  | cons seg segs ih =>
    have hshorter : ∀ seg ∈ shorten path, P seg := fun seg hseg => hpath seg (mem_of_mem_shorten hseg)
    rw [walk]
    refine ih ?_
    split
    · split
      · exact List.forall_mem_append.mpr ⟨hshorter, List.forall_mem_singleton.mpr hempty⟩
      · exact hshorter
    split
    · split
      · exact List.forall_mem_append.mpr ⟨hpath, List.forall_mem_singleton.mpr hempty⟩
      · exact hpath
    · exact List.forall_mem_append.mpr ⟨hpath, List.forall_mem_singleton.mpr (hencoded seg)⟩

theorem walk_ne_nil {path segs : List (List Char)} (h : path ≠ [] ∨ segs ≠ []) : walk path segs ≠ [] := by
  induction segs generalizing path with
  | nil => exact h.resolve_right fun hnil => hnil rfl
  | cons seg segs ih =>
    rw [walk]
    by_cases hsegs : segs = []
    · subst hsegs
      simp only [walk, List.isEmpty_nil, if_true]
      split
      · simp
      split <;> simp
    · exact ih (.inr hsegs)

theorem parsePath_special (cs : List Char) :
    parsePath .special cs ≠ [] ∧ ∀ seg ∈ parsePath .special cs, ∀ c ∈ seg, isVisible c = true := by
  have hnil : ∀ c ∈ ([] : List Char), isVisible c = true := List.forall_mem_nil _
  unfold parsePath
  split
  · exact ⟨List.cons_ne_nil _ _, List.forall_mem_singleton.mpr hnil⟩
  · exact ⟨walk_ne_nil (.inr (splitSegments_ne_nil _ _)),
      forall_walk hnil (encodeText_visible (by decide)) _ (List.forall_mem_nil _)⟩

theorem parseTail_special (cs : List Char) :
    (∀ q, (parseTail .special cs).1 = some q → ∀ c ∈ q, isVisible c = true) ∧
      ∀ f, (parseTail .special cs).2 = some f → ∀ c ∈ f, isVisible c = true := by
  unfold parseTail
  constructor
  · intro q hq
    simp only at hq
    split at hq <;> cases hq
    exact encodeText_visible (by decide) _
  · intro f hf
    simp only at hf
    split at hf <;> cases hf
    exact encodeText_visible (by decide) _

/-- What stands behind the authority in the text of a URL. -/
def behind (u : Url) : List Char := u.path.chars ++ u.queryChars ++ u.fragmentChars

theorem behind_urlOf (scheme back : List Char) (a : Authority) :
    (urlOf scheme back a).behind.head? = some '/' ∧
      ∀ c ∈ (urlOf scheme back a).behind, isVisible c = true := by
  obtain ⟨hne, hvisible⟩ := parsePath_special (beforeQuery back)
  obtain ⟨hquery, hfragment⟩ := parseTail_special back
  constructor
  · obtain ⟨seg, segs, hsegs⟩ := List.exists_cons_of_ne_nil hne
    rw [behind, urlOf, hsegs]
    rfl
  · rw [behind, List.forall_mem_append, List.forall_mem_append]
    refine ⟨⟨?_, ?_⟩, ?_⟩
    · intro c hc
      obtain ⟨seg, hseg, hc⟩ := List.mem_flatMap.mp hc
      exact (List.mem_cons.mp hc).elim (fun heq => heq ▸ (by decide)) (hvisible seg hseg c)
    · rw [queryChars]
      split
      next q hq => exact List.forall_mem_cons.mpr ⟨by decide, hquery q hq⟩
      · exact List.forall_mem_nil _
    · rw [fragmentChars]
      split
      next f hf => exact List.forall_mem_cons.mpr ⟨by decide, hfragment f hf⟩
      · exact List.forall_mem_nil _

/-! ## Reading a text again -/

section

variable {a : Authority} {scheme rest : List Char}

/-- The text of a scheme and an authority. -/
def frontChars (scheme : List Char) (a : Authority) : List Char :=
  scheme ++ ':' :: '/' :: '/' :: a.chars

theorem frontChars_visible (hscheme : scheme = httpScheme ∨ scheme = httpsScheme) (ha : a.IsSound) :
    ∀ c ∈ frontChars scheme a, isVisible c = true := by
  have hmark : ∀ c ∈ scheme ++ [':', '/', '/'], isVisible c = true := by
    rcases hscheme with rfl | rfl <;> exact List.all_eq_true.mp (by decide)
  have hfront : frontChars scheme a = scheme ++ [':', '/', '/'] ++ a.chars := by simp [frontChars]
  rw [hfront, List.forall_mem_append]
  exact ⟨hmark, fun c hc => (isVisible_of_authority (ha.chars c hc)).1⟩

theorem splitScheme?_web (hscheme : scheme = httpScheme ∨ scheme = httpsScheme) (later : List Char) :
    splitScheme? (scheme ++ ':' :: later) = some (scheme, later) := by
  rcases hscheme with rfl | rfl <;> rfl

/-- The text of a scheme, a sound authority and anything visible behind a slash opens a URL. -/
theorem opens_front (hscheme : scheme = httpScheme ∨ scheme = httpsScheme) (ha : a.IsSound)
    (hrest : ∀ c ∈ rest, isVisible c = true) (hhead : ∀ c, rest.head? = some c → c = '/') :
    Opens (frontChars scheme a ++ rest) scheme a.chars rest := by
  have hplain : IsPlain (frontChars scheme a ++ rest) := fun c hc =>
    (isVisible_plain ((List.mem_append.mp hc).elim (frontChars_visible hscheme ha c) (hrest c))).1
  have hnil : EndsPlain [] := fun c hc => nomatch hc
  have hcleaned : cleaned (frontChars scheme a ++ rest) = frontChars scheme a ++ rest :=
    cleaned_append hnil hplain
  obtain ⟨c, cs, hchars⟩ : ∃ c cs, a.chars = c :: cs :=
    List.exists_cons_of_ne_nil (List.append_ne_nil_of_right_ne_nil _ ha.hostChars_ne_nil)
  have hends (d : Char) (hd : d ∈ a.chars) : endsAuthority .special d = false :=
    (isVisible_of_authority (ha.chars d hd)).2
  refine ⟨kindOf_web hscheme, ⟨'/' :: '/' :: (a.chars ++ rest), ?_, ?_⟩, ?_, ?_⟩
  · rw [hcleaned, frontChars, List.append_assoc]
    exact splitScheme?_web hscheme _
  · have hc : isSlash .special c = false := by
      have hc := hends c (hchars ▸ List.mem_cons_self)
      simp only [endsAuthority, Bool.or_eq_false_iff] at hc
      exact hc.1.1
    show (a.chars ++ rest).dropWhile (isSlash .special) = a.chars ++ rest
    rw [hchars, List.cons_append, List.dropWhile_cons_of_neg (by rw [hc]; exact Bool.false_ne_true)]
  · intro d hd
    rw [hends d hd]
    rfl
  · intro d hd
    rw [hhead d hd]
    rfl

end

/-- An http or https URL is made of an authority and what stands behind it. -/
theorem web_parts {cs : List Char} {u : Url} (h : parseChars cs = .ok u) (hweb : u.isWeb = true) :
    ∃ a, (u.scheme = httpScheme ∨ u.scheme = httpsScheme) ∧ a.IsSound ∧ u.authority = some a ∧
      u.chars = frontChars u.scheme a ++ u.behind ∧ u.behind.head? = some '/' ∧
      ∀ c ∈ u.behind, isVisible c = true := by
  obtain ⟨hscheme, -⟩ := isWeb_iff.mp hweb
  obtain ⟨front, back, hopens⟩ := opens_of_parse h (kindOf_web hscheme)
  rw [hopens.parseChars] at h
  cases ha : parseAuthority u.scheme front true with
  | error fault => rw [ha] at h; cases h
  | ok a =>
    rw [ha] at h
    have hu : urlOf u.scheme back a = u := Except.ok.inj h
    obtain ⟨hhead, hvisible⟩ := behind_urlOf u.scheme back a
    rw [hu] at hhead hvisible
    have hauthority : u.authority = some a := by rw [← hu]; rfl
    refine ⟨a, hscheme, Authority.isSound_of_parse hopens.special ha, hauthority, ?_, hhead, hvisible⟩
    simp [Url.chars, originChars, hauthority, frontChars, behind]

/-- The slashes at the end of a text belong to what stands behind the authority. -/
theorem trimEndBy_front {scheme rest : List Char} {a : Authority} (ha : a.IsSound) :
    Text.trimEndBy (· == '/') (frontChars scheme a ++ rest) =
      frontChars scheme a ++ Text.trimEndBy (· == '/') rest := by
  have hne : a.chars ≠ [] := List.append_ne_nil_of_right_ne_nil _ ha.hostChars_ne_nil
  rcases List.eq_nil_or_concat a.chars with hnil | ⟨cs, c, hchars⟩
  · exact absurd hnil hne
  rw [List.concat_eq_append] at hchars
  have hc : (c == '/') = false := by
    have hends := (isVisible_of_authority (ha.chars c (by simp [hchars]))).2
    simp only [endsAuthority, isSlash, Bool.or_eq_false_iff] at hends
    exact hends.1.1.1
  have hfront (more : List Char) : frontChars scheme a ++ more =
      (scheme ++ ':' :: '/' :: '/' :: cs) ++ c :: more := by
    simp [frontChars, hchars]
  rw [hfront, hfront]
  exact trimEndBy_append_stop (p := (· == '/')) hc _ _

/-- **The text of a web URL is read again**, without the slashes at its end. -/
theorem reread {cs : List Char} {u : Url} (h : parseChars cs = .ok u) (hweb : u.isWeb = true) :
    (∀ c ∈ Text.trimEndBy (· == '/') u.chars, isVisible c = true) ∧
      ∃ v, parseChars (Text.trimEndBy (· == '/') u.chars) = .ok v ∧ v.isWeb = true ∧
        v.host? = u.host? := by
  obtain ⟨a, hscheme, ha, hauthority, hchars, hhead, hvisible⟩ := web_parts h hweb
  obtain ⟨dropped, hdropped, -⟩ := trimEndBy_append (· == '/') u.behind
  rw [hchars, trimEndBy_front ha]
  have hrest : ∀ c ∈ Text.trimEndBy (· == '/') u.behind, isVisible c = true := fun c hc =>
    hvisible c (by rw [hdropped]; exact List.mem_append_left _ hc)
  have hslash : ∀ c, (Text.trimEndBy (· == '/') u.behind).head? = some c → c = '/' := by
    intro c hc
    rw [hdropped, List.head?_append, hc] at hhead
    exact Option.some.inj hhead
  obtain ⟨a', ha', hhost⟩ := ha.reads (kindOf_web hscheme) true
  refine ⟨List.forall_mem_append.mpr ⟨frontChars_visible hscheme ha, hrest⟩,
    urlOf u.scheme (Text.trimEndBy (· == '/') u.behind) a', ?_, ?_⟩
  · rw [(opens_front hscheme ha hrest hslash).parseChars, ha']
    rfl
  · obtain ⟨v, hv, -⟩ := ha.host
    refine ⟨?_, ?_⟩
    · exact isWeb_iff.mpr ⟨hscheme, by simp [urlOf, host?, hhost, hv]⟩
    · simp [host?, urlOf, hauthority, hhost]

end ClusterOutput.Url
