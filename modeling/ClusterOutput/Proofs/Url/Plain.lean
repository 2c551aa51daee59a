/-
A URL of a special scheme has no control and no space in its host or behind it in
its authority. Such a character stays what it is while the host is decoded, folded
and brought into ASCII, and is refused at the end (`Host.parse_plain`).

So the slashes at the end of a URL can be dropped with the controls and spaces that
come to stand at the end then: none of them belongs to the authority
(`parseChars_trimmed`).
-/
import ClusterOutput.Proofs.Url.Authority
import ClusterOutput.Proofs.Url.Entrance

namespace ClusterOutput

/-! ## Small characters through decoding -/

namespace Utf8

/-- What a byte inside a character may be lies above ASCII. -/
def Partial.IsHigh (p : Partial) : Prop := 0x80 ≤ p.low

theorem start_isHigh {b : UInt8} {q : Partial} (h : start b = .more q) : q.IsHigh := by
  unfold start at h
  unfold Partial.IsHigh
  repeat' split at h
  all_goals cases h <;> first | decide | exact UInt8.le_refl _

theorem step_isHigh {p : Partial} {b : UInt8} {q : Partial} (h : p.step b = .more q) : q.IsHigh := by
  unfold Partial.step at h
  unfold Partial.IsHigh
  repeat' split at h
  all_goals cases h <;> first | decide | exact UInt8.le_refl _

/-- Inside a character no byte of ASCII is allowed. -/
theorem step_ascii {p : Partial} (hp : p.IsHigh) {b : UInt8} (hb : b < 0x80) : p.step b = .bad := by
  have hlow : ¬p.low ≤ b := fun hle => absurd (UInt8.le_trans hp hle) (UInt8.not_le.mpr hb)
  rw [Partial.step, if_neg fun h => hlow h.1]

/-- A byte of ASCII is decoded to its character. -/
theorem mem_decodeFrom {p : Option Partial} (hp : ∀ q ∈ p, q.IsHigh) {bytes : Bytes}
    {cs : List Char} (h : decodeFrom p bytes = some cs) {b : UInt8} (hb : b < 0x80)
    (hmem : b ∈ bytes) : Char.ofNat b.toNat ∈ cs := by
  induction bytes generalizing p cs with
  | nil => cases hmem
  | cons d bytes ih =>
    cases hstep : step p d with
    | done c =>
      rw [decodeFrom_done hstep, Option.map_eq_some_iff] at h
      obtain ⟨rest, hrest, rfl⟩ := h
      rcases List.mem_cons.mp hmem with rfl | hmem
      · have hstart : step p b = .done (Char.ofNat b.toNat) := by
          cases p with
          | none => exact if_pos hb
          | some q => rw [step, step_ascii (hp q rfl) hb] at hstep; cases hstep
        rw [hstep] at hstart
        cases hstart
        exact List.mem_cons_self
      · exact List.mem_cons_of_mem _ (ih (by simp) hrest hmem)
    | more q =>
      rw [decodeFrom_more hstep] at h
      have hq : q.IsHigh := by
        cases p with
        | none => exact start_isHigh hstep
        | some p => exact step_isHigh hstep
      refine ih (p := some q) (by rintro _ ⟨⟩; exact hq) h ?_
      rcases List.mem_cons.mp hmem with rfl | hmem
      · cases p with
        | none => rw [step, start, if_pos hb] at hstep; cases hstep
        | some p => rw [step, step_ascii (hp p rfl) hb] at hstep; cases hstep
      · exact hmem
    | bad =>
      cases p <;> simp [decodeFrom, hstep] at h

theorem mem_encodeChars_ascii {c : Char} {cs : List Char} (hc : c.toNat < 0x80) (h : c ∈ cs) :
    c.toNat.toUInt8 ∈ encodeChars cs :=
  List.mem_flatMap.mpr ⟨c, h, by rw [encodeChar_ascii hc]; exact List.mem_singleton_self _⟩

end Utf8

namespace Url

/-- A byte that is no part of an escape is kept. -/
theorem mem_decodeBytes {b : UInt8} (hhex : hexDigit? b = none) (hpercent : b ≠ 0x25)
    {bytes : Bytes} (h : b ∈ bytes) : b ∈ decodeBytes bytes := by
  have hkept {d : UInt8} {tail later : Bytes} (h : b ∈ d :: tail) (ih : b ∈ tail → b ∈ later) :
      b ∈ d :: later :=
    (List.mem_cons.mp h).elim (fun heq => heq ▸ List.mem_cons_self)
      fun h => List.mem_cons_of_mem _ (ih h)
  fun_induction decodeBytes bytes with
  | case1 => exact h
  | case2 first second rest high low hlow hhigh ih =>
    have hfirst : b ≠ first := by rintro rfl; simp [hhex] at hhigh
    have hsecond : b ≠ second := by rintro rfl; simp [hhex] at hlow
    simp only [List.mem_cons, hpercent, hfirst, hsecond, false_or] at h
    exact List.mem_cons_of_mem _ (ih h)
  | case3 first second rest _ ih => exact hkept h ih
  | case4 c first second rest _ ih => exact hkept h ih
  | case5 c rest _ ih => exact hkept h ih

/-! ## Small characters in names -/

namespace Domain

theorem foldPoint_control : ∀ n < 0x21, foldPoint n = some [n] := by decide +kernel

theorem mem_fold {cs folded : List Char} (h : fold cs = some folded) {c : Char}
    (hc : c.toNat ≤ 0x20) (hmem : c ∈ cs) : c ∈ folded := by
  induction cs generalizing folded with
  | nil => cases hmem
  | cons d cs ih =>
    rw [fold] at h
    split at h
    next points rest hpoints hrest =>
      obtain rfl := Option.some.inj h
      rcases List.mem_cons.mp hmem with rfl | hmem
      · rw [foldPoint_control c.toNat (by omega)] at hpoints
        obtain rfl := Option.some.inj hpoints
        simp [Char.ofNat_toNat]
      · exact List.mem_append_right _ (ih hrest hmem)
    · cases h

theorem mem_labelToAscii {label ascii : List Char} (h : labelToAscii label = some ascii) {c : Char}
    (hc : c.toNat < 0x80) (hmem : c ∈ label) : c ∈ ascii := by
  unfold labelToAscii at h
  split at h
  · split at h
    · cases h
    · split at h
      · cases h
      · exact Option.some.inj h ▸ hmem
  · split at h
    · exact Option.some.inj h ▸ hmem
    · split at h
      next =>
        -- what is ASCII stands in front of the code
        obtain rfl := Option.some.inj h
        have hbasic : c ∈ label.filter (·.toNat < 0x80) := List.mem_filter.mpr ⟨hmem, by simpa using hc⟩
        simp only [Punycode.encode, List.mem_append]
        exact .inr (.inl (.inl hbasic))
      · cases h

theorem mem_joinLabels {ls : List (List Char)} {label : List Char} {c : Char} (hlabel : label ∈ ls)
    (hc : c ∈ label) : c ∈ joinLabels ls := by
  induction ls with
  | nil => cases hlabel
  | cons first ls ih =>
    cases ls with
    | nil =>
      obtain rfl := List.mem_singleton.mp hlabel
      exact hc
    | cons next ls =>
      rw [joinLabels]
      · rcases List.mem_cons.mp hlabel with rfl | hlabel
        · exact List.mem_append_left _ hc
        · exact List.mem_append_right _ (List.mem_cons_of_mem _ (ih hlabel))
      · exact List.cons_ne_nil _ _

theorem mem_labelsToAscii {labels ls : List (List Char)} (h : labelsToAscii labels = some ls)
    {label : List Char} {c : Char} (hlabel : label ∈ labels) (hc : c.toNat < 0x80)
    (hmem : c ∈ label) : c ∈ joinLabels ls := by
  suffices h : ∃ ascii ∈ ls, c ∈ ascii by
    obtain ⟨ascii, hascii, hc⟩ := h
    exact mem_joinLabels hascii hc
  induction labels generalizing ls with
  | nil => cases hlabel
  | cons first labels ih =>
    rw [labelsToAscii] at h
    split at h
    next ascii rest hascii hrest =>
      obtain rfl := Option.some.inj h
      rcases List.mem_cons.mp hlabel with rfl | hlabel
      · exact ⟨ascii, List.mem_cons_self, mem_labelToAscii hascii hc hmem⟩
      · obtain ⟨later, hlater, hc⟩ := ih hrest hlabel
        exact ⟨later, List.mem_cons_of_mem _ hlater, hc⟩
    · cases h

theorem mem_pieces {cs : List Char} {c : Char} (hdot : c ≠ '.') (h : c ∈ cs) :
    ∃ piece ∈ Text.pieces '.' cs, c ∈ piece := by
  induction cs with
  | nil => cases h
  | cons d cs ih =>
    by_cases hd : d = '.'
    · have hmem : c ∈ cs := (List.mem_cons.mp h).resolve_left fun heq => hdot (heq.trans hd)
      obtain ⟨piece, hpiece, hc⟩ := ih hmem
      rw [Text.pieces, if_pos hd]
      exact ⟨piece, List.mem_cons_of_mem _ hpiece, hc⟩
    · obtain ⟨piece, rest, hcs, hpieces⟩ := Text.pieces_cons_of_ne hd cs
      rw [hpieces]
      rcases List.mem_cons.mp h with rfl | h
      · exact ⟨_, List.mem_cons_self, List.mem_cons_self⟩
      · obtain ⟨found, hfound, hc⟩ := ih h
        rw [hcs] at hfound
        rcases List.mem_cons.mp hfound with rfl | hfound
        · exact ⟨_, List.mem_cons_self, List.mem_cons_of_mem _ hc⟩
        · exact ⟨found, List.mem_cons_of_mem _ hfound, hc⟩

/-- A domain name has no control and no space. -/
theorem toAscii_plain {name ascii : List Char} (h : toAscii name = some ascii) : IsPlain name := by
  intro c hc
  rw [isControlOrSpace, decide_eq_false_iff_not]
  intro hsmall
  have hallowed := h
  unfold toAscii at h
  split at h
  · cases h
  next folded hfold =>
    split at h
    · cases h
    next ls hls =>
      simp only at h
      split at h
      · cases h
      next =>
        obtain rfl := Option.some.inj h
        have hdot : c ≠ '.' := by rintro rfl; exact absurd hsmall (by decide)
        obtain ⟨piece, hpiece, hmem⟩ := mem_pieces hdot (mem_fold hfold hsmall hc)
        have hin := mem_labelsToAscii hls hpiece (by omega) hmem
        have hforbidden := (toAscii_chars hallowed c hin).2
        simp [isForbidden, hsmall] at hforbidden

end Domain

/-! ## Small characters in hosts -/

/-- What comes to a host has no control and no space, or ends in a bracket. -/
theorem Host.parse_plain {cs : List Char} {host : Host} (h : Host.parse cs = .ok host) :
    IsPlain cs ∨ cs.getLast? = some ']' := by
  unfold Host.parse at h
  split at h
  next rest =>
    split at h
    next inner hinner =>
      have hrest : rest = inner.reverse ++ [']'] := by
        rw [← List.reverse_reverse rest, hinner, List.reverse_cons]
      right
      rw [hrest, ← List.cons_append, List.getLast?_concat]
    · cases h
  next =>
    left
    intro c hc
    split at h
    · cases h
    next name hname =>
      obtain ⟨decoded, hdecoded, hascii⟩ := Option.bind_eq_some_iff.mp hname
      by_contra hcontrol
      have hsmall : c.toNat ≤ 0x20 := by simpa [isControlOrSpace] using hcontrol
      have hbyte : c.toNat.toUInt8.toNat = c.toNat := Utf8.toNat_toUInt8 (by omega)
      have hplain : hexDigit? c.toNat.toUInt8 = none ∧ c.toNat.toUInt8 ≠ 0x25 := by
        have hall : ∀ n < 0x21, hexDigit? n.toUInt8 = none ∧ n.toUInt8 ≠ 0x25 := by decide
        exact hall _ (by omega)
      have hkept := mem_decodeBytes hplain.1 hplain.2 (Utf8.mem_encodeChars_ascii (by omega) hc)
      have hmem := Utf8.mem_decodeFrom (by simp) hdecoded (by
        rw [UInt8.lt_iff_toNat_lt, hbyte]
        exact Nat.lt_of_le_of_lt hsmall (by decide)) hkept
      rw [hbyte, Char.ofNat_toNat] at hmem
      exact hcontrol (Domain.toAscii_plain hascii c hmem)

/-! ## Small characters in authorities -/

theorem splitPort_chars (inBrackets : Bool) (cs : List Char) :
    cs = (splitPort inBrackets cs).1 ++ ((splitPort inBrackets cs).2.elim [] (':' :: ·)) := by
  induction cs generalizing inBrackets with
  | nil => rfl
  | cons c cs ih =>
    rw [splitPort]
    split
    next h => rw [h.1]; rfl
    next => exact congrArg (c :: ·) (ih _)

theorem parsePort_value_digit {acc : Nat} {cs : List Char} {port : Nat}
    (h : parsePort.value acc cs = .ok port) : ∀ c ∈ cs, (Text.digit? c).isSome = true := by
  induction cs generalizing acc with
  | nil => exact List.forall_mem_nil _
  | cons c cs ih =>
    rw [parsePort.value] at h
    cases hc : Text.digit? c with
    | none => simp [hc] at h
    | some d =>
      simp only [hc] at h
      split at h
      · exact List.forall_mem_cons.mpr ⟨by rw [hc]; rfl, ih h⟩
      · cases h

theorem parsePort_digit {scheme cs : List Char} {port : Option Nat}
    (h : parsePort scheme cs = .ok port) : ∀ c ∈ cs, (Text.digit? c).isSome = true := by
  unfold parsePort at h
  split at h
  · exact List.forall_mem_nil _
  · split at h
    · cases h
    next hvalue => exact parsePort_value_digit hvalue

theorem isControlOrSpace_digit {c : Char} (h : (Text.digit? c).isSome = true) :
    isControlOrSpace c = false := by
  unfold Text.digit? at h
  split at h
  next hc =>
    have hlow : '0'.toNat ≤ c.toNat := hc.1
    rw [isControlOrSpace, decide_eq_false_iff_not]
    have : '0'.toNat = 0x30 := rfl
    omega
  · cases h

/-- What is read as a host of a special scheme does not end in a control or a space. -/
theorem parseHost_endsPlain {cs : List Char} {host : Option Host}
    (h : parseHost .special cs = .ok host) : cs ≠ [] ∧ EndsPlain cs := by
  unfold parseHost at h
  split at h
  · cases h
  next hne =>
    refine ⟨by simpa using hne, fun c hc => ?_⟩
    simp only [reduceCtorEq, if_false] at h
    split at h
    next hparse =>
      rcases Host.parse_plain hparse with hplain | hbracket
      · exact hplain c (List.mem_of_getLast? hc)
      · rw [hbracket] at hc
        cases hc
        rfl
    · cases h

/-- The text of an authority of a special scheme does not end in a control or a space. -/
theorem parseAuthority_endsPlain {scheme cs : List Char} {isLast : Bool} {a : Authority}
    (hkind : kindOf scheme = .special) (h : parseAuthority scheme cs isLast = .ok a) :
    EndsPlain cs := by
  obtain ⟨userinfo, hostport, hsplit, hnone, before, hbefore⟩ : ∃ userinfo hostport,
      splitUserinfo? cs = Option.map (·, hostport) userinfo ∧ (userinfo = none → hostport = cs) ∧
        hostport <:+ cs := by
    cases hparts : splitUserinfo? cs with
    | none => exact ⟨none, cs, rfl, fun _ => rfl, List.suffix_refl _⟩
    | some parts =>
      refine ⟨some parts.1, parts.2, rfl, (fun hnone => nomatch hnone), ?_⟩
      unfold splitUserinfo? at hparts
      split at hparts
      · cases hparts
      · obtain rfl := Option.some.inj hparts
        exact List.drop_suffix _ _
  rw [parseAuthority_special hkind isLast hsplit hnone] at h
  have hchars := splitPort_chars false hostport
  generalize splitPort false hostport = parts at h hchars
  obtain ⟨host, port⟩ := parts
  cases hhost : parseHost .special host with
  | error fault => rw [hhost] at h; cases h
  | ok v =>
    obtain ⟨hne, hends⟩ := parseHost_endsPlain hhost
    intro c hc
    rw [← hbefore, hchars, ← List.append_assoc] at hc
    cases port with
    | none =>
      rw [Option.elim_none, List.append_nil, List.getLast?_append_of_ne_nil _ hne] at hc
      exact hends c hc
    | some port =>
      rw [Option.elim_some, List.getLast?_append_of_ne_nil _ (List.cons_ne_nil _ _)] at hc
      rcases List.mem_cons.mp (List.mem_of_getLast? hc) with rfl | hc
      · rfl
      · cases hport : parsePort scheme port with
        | error fault => rw [hhost, Except.bind, portOf, hport] at h; cases h
        | ok n => exact isControlOrSpace_digit (parsePort_digit hport c hc)

/-! ## Slashes at the end -/

/-- A scheme is read in front of its colon, whatever stands behind it. -/
theorem splitScheme?_colon {cs scheme rest : List Char} (h : splitScheme? cs = some (scheme, rest)) :
    ∃ front, cs = front ++ ':' :: rest ∧
      ∀ later, splitScheme? (front ++ ':' :: later) = some (scheme, later) := by
  obtain ⟨⟨c, hc, hletter⟩, hrest, hscheme⟩ := splitScheme?_eq_some.mp h
  have hkept : ∀ c ∈ cs.takeWhile isSchemeChar, isSchemeChar c = true :=
    fun c hc => List.mem_takeWhile_imp hc
  have hcs : cs = cs.takeWhile isSchemeChar ++ ':' :: rest := by
    rw [← hrest, List.takeWhile_append_dropWhile]
  refine ⟨cs.takeWhile isSchemeChar, hcs, fun later => splitScheme?_eq_some.mpr ⟨⟨c, ?_, hletter⟩, ?_⟩⟩
  · rw [hcs] at hc
    cases hfront : cs.takeWhile isSchemeChar with
    | nil =>
      rw [hfront] at hc
      cases hc
      cases hletter
    | cons d front => rwa [hfront] at hc
  · have hstops : ∀ c, (':' :: later).head? = some c → isSchemeChar c = false := by
      rintro c ⟨⟩
      rfl
    obtain ⟨htake, hdrop⟩ := span_append hkept hstops
    exact ⟨hdrop, by rw [htake, hscheme]⟩

/-- Controls and spaces at the end of a text lie behind a part of it that ends in none of them. -/
theorem append_of_endsPlain {front back kept dropped : List Char}
    (hplain : EndsPlain front) (hdropped : ∀ c ∈ dropped, isControlOrSpace c = true)
    (h : front ++ back = kept ++ dropped) :
    ∃ middle, kept = front ++ middle ∧ back = middle ++ dropped := by
  rcases List.append_eq_append_iff.mp h with ⟨middle, hkept, hback⟩ | ⟨extra, hfront, hextra⟩
  · exact ⟨middle, hkept, hback⟩
  · have hnil : extra = [] := by
      by_contra hextra'
      have hlast := List.getLast?_eq_some_getLast hextra'
      have hend := hplain (extra.getLast hextra') (by
        rw [hfront, List.getLast?_append_of_ne_nil _ hextra', hlast])
      have hcontrol := hdropped (extra.getLast hextra') (by
        rw [hextra]
        exact List.mem_append_left _ (List.getLast_mem hextra'))
      rw [hend] at hcontrol
      cases hcontrol
    subst hnil
    exact ⟨[], by simp [hfront], by simpa using hextra.symm⟩

/-- The controls and spaces at the end of a text do not belong to its authority, so that they can
be dropped. -/
theorem Enters.opens {cs scheme rest : List Char} (h : Enters cs scheme rest) {a : Authority}
    (ha : parseAuthority scheme
      ((rest.dropWhile (isSlash .special)).takeWhile (!endsAuthority .special ·)) true = .ok a) :
    ∃ back, Opens cs scheme
      ((rest.dropWhile (isSlash .special)).takeWhile (!endsAuthority .special ·)) back := by
  have hplain := parseAuthority_endsPlain h.special ha
  have hrest : rest = rest.takeWhile (isSlash .special) ++
      ((rest.dropWhile (isSlash .special)).takeWhile (!endsAuthority .special ·) ++
        (rest.dropWhile (isSlash .special)).dropWhile (!endsAuthority .special ·)) := by
    rw [List.takeWhile_append_dropWhile, List.takeWhile_append_dropWhile]
  have hfront : ∀ c ∈ (rest.dropWhile (isSlash .special)).takeWhile (!endsAuthority .special ·),
      (!endsAuthority .special c) = true :=
    fun c hc => List.mem_takeWhile_imp (p := (!endsAuthority .special ·)) hc
  have hback : ∀ c, ((rest.dropWhile (isSlash .special)).dropWhile
      (!endsAuthority .special ·)).head? = some c → (!endsAuthority .special c) = false :=
    fun c hc => stops_of_dropWhile (p := (!endsAuthority .special ·)) hc
  have hslashes : ∀ c ∈ rest.takeWhile (isSlash .special), isSlash .special c = true :=
    fun c hc => List.mem_takeWhile_imp hc
  generalize rest.takeWhile (isSlash .special) = slashes at hrest hslashes
  generalize (rest.dropWhile (isSlash .special)).takeWhile (!endsAuthority .special ·) = front
    at hrest hfront hplain ha ⊢
  generalize (rest.dropWhile (isSlash .special)).dropWhile (!endsAuthority .special ·) = back
    at hrest hback
  have hne : front ≠ [] := by
    rintro rfl
    rw [parseAuthority_nil h.special] at ha
    cases ha
  obtain ⟨start, hstart, hsplit⟩ := splitScheme?_colon h.split
  obtain ⟨dropped, hopening, hdropped⟩ := opening_eq cs
  have hends : EndsPlain (start ++ ':' :: (slashes ++ front)) := by
    intro c hc
    rw [← List.cons_append, ← List.append_assoc, List.getLast?_append_of_ne_nil _ hne] at hc
    exact hplain c hc
  have hwhole : start ++ ':' :: (slashes ++ front) ++ back = cleaned cs ++ dropped := by
    rw [← hopening, hstart, hrest]
    simp
  obtain ⟨middle, hcleaned, rfl⟩ := append_of_endsPlain hends hdropped hwhole
  refine ⟨middle, h.special, ⟨slashes ++ (front ++ middle), ?_, ?_⟩, hfront, fun c hc => hback c ?_⟩
  · rw [hcleaned, ← hsplit (slashes ++ (front ++ middle))]
    simp
  · refine (span_append hslashes fun c hc => ?_).2
    rw [List.head?_append_of_ne_nil _ hne] at hc
    have hc := hfront c (List.mem_of_head? hc)
    simp only [endsAuthority, Bool.not_eq_true', Bool.or_eq_false_iff] at hc
    exact hc.1.1
  · rw [List.head?_append, hc]
    rfl

/-- **Slashes at the end can be dropped.** The URL of a special scheme is one still without them,
with the same scheme and authority. -/
theorem parseChars_trimmed {cs slashes : List Char} {v : Url}
    (hok : parseChars (cs ++ slashes) = .ok v) (hkind : kindOf v.scheme = .special)
    (hslashes : ∀ c ∈ slashes, c = '/') :
    ∃ u, parseChars cs = .ok u ∧ u.scheme = v.scheme ∧ u.authority = v.authority := by
  cases slashes with
  | nil => exact ⟨v, by rwa [List.append_nil] at hok, rfl, rfl⟩
  | cons c later =>
    obtain ⟨rest, henters⟩ := Enters.of_slashed hok hkind hslashes
    obtain rfl := hslashes c List.mem_cons_self
    obtain ⟨back, hparse⟩ := henters.parseChars_slash later
    rw [hok] at hparse
    cases ha : parseAuthority v.scheme
        ((rest.dropWhile (isSlash .special)).takeWhile (!endsAuthority .special ·)) true with
    | error fault =>
      rw [ha] at hparse
      cases hparse
    | ok a =>
      rw [ha] at hparse
      have hv : v = urlOf v.scheme back a := Except.ok.inj hparse
      obtain ⟨back', hopens⟩ := henters.opens ha
      refine ⟨urlOf v.scheme back' a, ?_, rfl, ?_⟩
      · rw [hopens.parseChars, ha]
        rfl
      · rw [hv]
        rfl

end Url

end ClusterOutput
