/-
What is passed over is the text of one value (`value_of_skipValue`), and every text of a
value is passed over, whatever stands behind it (`skipValue_value`). So no text has two
values at its beginning (`value_unique`).

The brackets that are open where a value ends say what has to follow it (`Closes`).
-/
import ClusterOutput.Json.Skip
import ClusterOutput.Proofs.Json.Grammar
import ClusterOutput.Proofs.Result

namespace ClusterOutput.Json

variable {bytes rest text spacing digits : Bytes} {b : UInt8}

/-! ## Strings -/

theorem skipString_quoted (h : IsQuoted text) (rest : Bytes) :
    skipString (text ++ rest) = .ok rest := by
  induction h with
  | close =>
    rw [List.singleton_append, skipString.eq_def]
    exact if_pos rfl
  | @plain b bytes hb _ ih =>
    simp only [isPlainByte, Bool.and_eq_true, bne_iff_ne, decide_eq_true_eq] at hb
    rw [List.cons_append, skipString.eq_def]
    simp only [hb.1.1, hb.1.2, UInt8.not_lt.mpr hb.2, if_false, ih]
  | @short b bytes hb _ ih =>
    have hu : b ≠ 0x75 := by
      rintro rfl
      exact absurd hb (by decide)
    rw [List.cons_append, List.cons_append, skipString.eq_def]
    simp only [show backslashByte ≠ quoteByte by decide, hu, hb, if_false, if_true, ih]
  | @hex h₁ h₂ h₃ h₄ bytes h _ ih =>
    obtain ⟨n, hn⟩ := Option.isSome_iff_exists.mp h
    simp only [List.cons_append]
    rw [skipString.eq_def]
    simp only [show backslashByte ≠ quoteByte by decide, hn, if_false, if_true, ih]

theorem quoted_of_skipString (h : skipString bytes = .ok rest) :
    ∃ text, bytes = text ++ rest ∧ IsQuoted text := by
  fun_induction skipString bytes with
  | case2 =>
    cases h
    exact ⟨[quoteByte], rfl, .close⟩
  | case5 _ _ _ _ _ n hn _ ih =>
    obtain ⟨text, rfl, htext⟩ := ih h
    exact ⟨_, rfl, .hex (Option.isSome_of_eq_some hn) htext⟩
  | case7 _ _ _ hshort _ ih =>
    obtain ⟨text, rfl, htext⟩ := ih h
    exact ⟨_, rfl, .short hshort htext⟩
  | case10 b _ hquote hbackslash hcontrol ih =>
    obtain ⟨text, rfl, htext⟩ := ih h
    refine ⟨b :: text, rfl, .plain ?_ htext⟩
    simp only [isPlainByte, Bool.and_eq_true, bne_iff_ne, decide_eq_true_eq]
    exact ⟨⟨hquote, hbackslash⟩, UInt8.not_lt.mp hcontrol⟩
  | case1 | case3 | case4 | case6 | case8 | case9 => cases h

/-! ## Numbers -/

theorem skipExponent_power {sign : Bytes} (hsign : sign = [] ∨ sign = [0x2b] ∨ sign = [0x2d])
    (hb : isDigit b = true) (hdigits : AreDigits digits) (hrest : EndsNumber rest) :
    skipExponent (sign ++ b :: (digits ++ rest)) = .ok rest := by
  have hne : ¬(b = 0x2b ∨ b = 0x2d) := by
    rintro (rfl | rfl) <;> exact absurd hb (by decide)
  unfold skipExponent
  rcases hsign with rfl | rfl | rfl <;>
    simp [hne, hb, dropWhile_digits hdigits hrest.noDigit]

theorem skipFraction_digits {exponent : Bytes} (hb : isDigit b = true) (hdigits : AreDigits digits)
    (hexponent : IsExponent exponent) (hrest : EndsNumber rest) :
    skipFraction (b :: (digits ++ (exponent ++ rest))) = .ok rest := by
  rw [skipFraction, if_pos hb, dropWhile_digits hdigits (hexponent.noDigit hrest.noDigit)]
  cases hexponent with
  | none =>
    cases rest with
    | nil => rfl
    | cons c rest => simp [(hrest c rfl).2.2]
  | digits hmark hsign hb hbytes =>
    simp only [List.cons_append, List.append_assoc, hmark, if_true]
    exact skipExponent_power hsign hb hbytes hrest

theorem skipAfterWhole_parts {fraction exponent : Bytes} (hfraction : IsFraction fraction)
    (hexponent : IsExponent exponent) (hrest : EndsNumber rest) :
    skipAfterWhole (fraction ++ (exponent ++ rest)) = .ok rest := by
  cases hfraction with
  | digits hb hbytes => exact skipFraction_digits hb hbytes hexponent hrest
  | none =>
    rw [List.nil_append]
    cases hexponent with
    | none =>
      cases rest with
      | nil => rfl
      | cons c rest => simp [skipAfterWhole, hrest c rfl]
    | digits hmark hsign hb hbytes =>
      simp only [List.cons_append, List.append_assoc, skipAfterWhole, hmark, ne_point hmark, if_true,
        if_false]
      exact skipExponent_power hsign hb hbytes hrest

theorem skipNumeral_unsigned (h : IsUnsigned text) (hrest : EndsNumber rest) :
    skipNumeral (text ++ rest) = .ok rest := by
  obtain ⟨hwhole, hfraction, hexponent⟩ := h
  have hparts := skipAfterWhole_parts hfraction hexponent hrest
  have hnoDigit := hfraction.noDigit (hexponent.noDigit hrest.noDigit)
  simp only [List.append_assoc]
  cases hwhole with
  | zero =>
    rw [List.singleton_append, skipNumeral.eq_def]
    simp only [if_true]
    split
    next c bytes hbytes =>
      rw [if_neg (Bool.eq_false_iff.mp (hnoDigit c (by simp [hbytes])))]
      exact hparts
    next hnil =>
      rw [← hparts, hnil]
      rfl
  | digits hb hzero hbytes =>
    rw [List.cons_append, skipNumeral.eq_def]
    simp only [hzero, hb, if_false, if_true, dropWhile_digits hbytes hnoDigit]
    exact hparts

/-- An exponent behind its sign: digits, one at least. -/
def skipPower : Bytes → Except Fault Bytes
  | [] => stop .invalidNumber []
  | b :: rest => if isDigit b then .ok (rest.dropWhile isDigit) else stop .invalidNumber rest

theorem power_of_skipExponent (h : skipExponent bytes = .ok rest) :
    ∃ text, bytes = text ++ rest ∧ ∀ mark, isExponentMark mark = true → IsExponent (mark :: text) := by
  obtain ⟨sign, bytes', hbytes, hsign, heq⟩ : ∃ sign bytes', bytes = sign ++ bytes' ∧
      (sign = [] ∨ sign = [0x2b] ∨ sign = [0x2d]) ∧ skipExponent bytes = skipPower bytes' := by
    unfold skipExponent
    split
    next b bytes =>
      split
      next hb => exact ⟨[b], bytes, rfl, by simpa using hb, rfl⟩
      · exact ⟨[], _, rfl, .inl rfl, rfl⟩
    · exact ⟨[], [], rfl, .inl rfl, rfl⟩
  rw [heq] at h
  cases bytes' with
  | nil => cases h
  | cons b bytes'' =>
    rw [skipPower] at h
    split at h
    next hb =>
      obtain ⟨digits, hdigits, hsplit, -⟩ := digits_split bytes''
      obtain rfl := Except.ok.inj h
      refine ⟨sign ++ b :: digits, ?_, fun mark hmark => .digits hmark hsign hb hdigits⟩
      rw [hbytes, List.append_assoc, List.cons_append, ← hsplit]
    · cases h

theorem fraction_of_skipFraction (h : skipFraction bytes = .ok rest) :
    ∃ fraction exponent, IsFraction (0x2e :: fraction) ∧ IsExponent exponent ∧
      bytes = fraction ++ (exponent ++ rest) := by
  unfold skipFraction at h
  split at h
  · cases h
  next b bytes =>
  split at h
  next hb =>
    obtain ⟨digits, hdigits, hsplit, -⟩ := digits_split bytes
    have hfraction := IsFraction.digits hb hdigits
    split at h
    next hnil =>
      cases h
      refine ⟨_, [], hfraction, .none, ?_⟩
      rw [List.cons_append, List.nil_append, ← hnil, ← hsplit]
    next c bytes' hcons =>
      rw [hcons] at hsplit
      split at h
      next hmark =>
        obtain ⟨power, rfl, hpower⟩ := power_of_skipExponent h
        exact ⟨_, c :: power, hfraction, hpower c hmark, by rw [hsplit]; rfl⟩
      · cases h
        exact ⟨_, [], hfraction, .none, by rw [hsplit]; rfl⟩
  · cases h

theorem parts_of_skipAfterWhole (h : skipAfterWhole bytes = .ok rest) :
    ∃ fraction exponent, IsFraction fraction ∧ IsExponent exponent ∧
      bytes = fraction ++ (exponent ++ rest) := by
  unfold skipAfterWhole at h
  split at h
  · cases h
    exact ⟨[], [], .none, .none, rfl⟩
  next b bytes =>
  split at h
  next hb =>
    obtain ⟨fraction, exponent, hfraction, hexponent, rfl⟩ := fraction_of_skipFraction h
    exact ⟨_, exponent, hfraction, hexponent, by rw [hb]; rfl⟩
  split at h
  next hmark =>
    obtain ⟨power, rfl, hpower⟩ := power_of_skipExponent h
    exact ⟨[], b :: power, .none, hpower b hmark, rfl⟩
  · cases h
    exact ⟨[], [], .none, .none, rfl⟩

theorem unsigned_of_skipNumeral (h : skipNumeral bytes = .ok rest) :
    ∃ text, bytes = text ++ rest ∧ IsUnsigned text := by
  unfold skipNumeral at h
  split at h
  · cases h
  next b bytes =>
  split at h
  next hb =>
    -- a lone zero, whether or not anything follows it
    have hafter : skipAfterWhole bytes = .ok rest := by
      split at h
      · split at h
        · cases h
        · exact h
      · exact h
    obtain ⟨fraction, exponent, hfraction, hexponent, rfl⟩ := parts_of_skipAfterWhole hafter
    exact ⟨_, by simp [hb], .parts .zero hfraction hexponent⟩
  next hzero =>
  split at h
  next hb =>
    obtain ⟨digits, hdigits, hsplit, -⟩ := digits_split bytes
    obtain ⟨fraction, exponent, hfraction, hexponent, hrest⟩ := parts_of_skipAfterWhole h
    rw [hrest] at hsplit
    exact ⟨_, by simp [hsplit], .parts (.digits hb hzero hdigits) hfraction hexponent⟩
  · cases h

/-! ## Steps within open brackets -/

variable {turns : Bytes} {stack : List Bracket} {inner : Bracket} {fresh : Bool}

/-- The byte that closes a bracket. -/
def Bracket.closer : Bracket → UInt8
  | .square => closeSquare
  | .curly => closeCurly

/-- Goes on behind a value that has ended. -/
def leave (stack : List Bracket) (bytes : Bytes) : Except Fault Onward :=
  match stack with
  | [] => .ok (.ended bytes)
  | inner :: outer => skipClosings false inner outer bytes

/-- Spends the turns that are left on what comes next. -/
def resume (turns : Bytes) (onward : Except Fault Onward) : Except Fault Bytes := do
  match ← onward with
  | .ended rest => .ok rest
  | .value .square outer rest => skipWithin turns (.square :: outer) rest
  | .value .curly outer rest => do skipWithin turns (.curly :: outer) (← skipName rest)

theorem resume_curly (outer : List Bracket) (bytes : Bytes) :
    resume turns (.ok (.value .curly outer bytes)) =
      (skipName bytes >>= skipWithin turns (.curly :: outer)) := rfl

theorem skipWithin_cons (turn : UInt8) (turns : Bytes) (stack : List Bracket) (bytes : Bytes) :
    skipWithin (turn :: turns) stack bytes = resume turns (do
      match ← skipToken (skipSpace bytes) with
      | .opened b rest => skipClosings true b stack rest
      | .ended rest => leave stack rest) := by
  rw [skipWithin]
  cases skipToken (skipSpace bytes) with
  | error => rfl
  | ok passed =>
    cases passed with
    | opened => rfl
    | ended => cases stack <;> rfl

theorem isCloser_iff : (inner = .square ∧ b = 0x5d) ∨ (inner = .curly ∧ b = 0x7d) ↔
    b = inner.closer := by
  cases inner <;> simp [Bracket.closer, closeSquare, closeCurly]

theorem skipClosings_cons (h : skipSpace bytes = b :: rest) :
    skipClosings fresh inner stack bytes =
      if fresh = false ∧ b = commaByte then .ok (.value inner stack rest)
      else if b = inner.closer then leave stack rest
      else if fresh then .ok (.value inner stack (b :: rest))
      else stopAtNext (match inner with
        | .square => .expectedListCommaOrEnd
        | .curly => .expectedObjectCommaOrEnd) (b :: rest) := by
  rw [skipClosings.eq_def]
  simp only [h, isCloser_iff]
  cases stack <;> rfl

theorem skipClosings_close (hspacing : IsSpacing spacing) (rest : Bytes) :
    skipClosings fresh inner stack (spacing ++ inner.closer :: rest) = leave stack rest := by
  have hspace : isSpaceByte inner.closer = false := by cases inner <;> rfl
  have hcomma : inner.closer ≠ commaByte := by cases inner <;> decide
  rw [skipClosings_cons (skipSpace_append_cons hspacing hspace rest),
    if_neg fun h => hcomma h.2, if_pos rfl]

theorem skipClosings_comma (hspacing : IsSpacing spacing) (rest : Bytes) :
    skipClosings false inner stack (spacing ++ commaByte :: rest) = .ok (.value inner stack rest) := by
  rw [skipClosings_cons (skipSpace_append_cons hspacing (by decide) rest), if_pos ⟨rfl, rfl⟩]

theorem skipClosings_fresh (hspacing : IsSpacing spacing) (hspace : isSpaceByte b = false)
    (hb : b ≠ inner.closer) (rest : Bytes) :
    skipClosings true inner stack (spacing ++ b :: rest) = .ok (.value inner stack (b :: rest)) := by
  rw [skipClosings_cons (skipSpace_append_cons hspacing hspace rest)]
  simp only [hb, Bool.true_eq_false, false_and, if_false, if_true]

/-! ## Every value is passed over -/

/-- The text is passed over in some turns, wherever it stands. -/
def IsSkipped (text : Bytes) : Prop :=
  ∃ n ≤ text.length, ∀ ⦃spacing rest turns : Bytes⦄ ⦃stack : List Bracket⦄, IsSpacing spacing →
    EndsNumber rest → n ≤ turns.length →
    skipWithin turns stack (spacing ++ (text ++ rest)) = resume (turns.drop n) (leave stack rest)

/-- The same of what stands behind a value: the text is passed over up to the end of the bracket
around it. -/
def IsSkippedBehind (inner : Bracket) (textThen : Bytes → Bytes) : Prop :=
  ∃ n ≤ (textThen []).length, ∀ ⦃spacing rest turns : Bytes⦄ ⦃stack : List Bracket⦄,
    IsSpacing spacing → n ≤ turns.length →
    resume turns (skipClosings false inner stack (spacing ++ textThen rest)) =
      resume (turns.drop n) (leave stack rest)

/-- A value without brackets takes one turn. -/
theorem IsSkipped.scalar (hhead : ∃ b bytes, text = b :: bytes ∧ isSpaceByte b = false)
    (h : ∀ rest, EndsNumber rest → skipToken (text ++ rest) = .ok (.ended rest)) :
    IsSkipped text := by
  obtain ⟨b, bytes, rfl, hb⟩ := hhead
  refine ⟨1, Nat.succ_pos _, fun spacing rest turns stack hspacing hrest hturns => ?_⟩
  obtain ⟨turn, turns, rfl⟩ := List.exists_cons_of_length_pos hturns
  rw [skipWithin_cons, List.cons_append, skipSpace_append_cons hspacing hb, ← List.cons_append,
    h rest hrest]
  rfl

theorem moreItemsThen_skipped {items : List ItemText} (hspaced : ∀ i ∈ items, i.IsSpaced)
    (hitems : ∀ i ∈ items, IsSkipped i.text) :
    IsSkippedBehind .square (moreItemsThen items) := by
  induction items with
  | nil =>
    refine ⟨0, Nat.zero_le _, fun spacing rest turns stack hspacing _ => ?_⟩
    exact congrArg (resume turns) (skipClosings_close hspacing rest)
  | cons i items ih =>
    rw [List.forall_mem_cons] at hspaced hitems
    obtain ⟨n, hn, hmore⟩ := ih hspaced.2 hitems.2
    obtain ⟨k, hk, hitem⟩ := hitems.1
    refine ⟨k + n, ?_, fun spacing rest turns stack hspacing hturns => ?_⟩
    · simp only [moreItemsThen, ItemText.andThen, List.length_cons, List.length_append]
      omega
    · have hends : EndsNumber (i.after ++ moreItemsThen items rest) :=
        (moreItemsThen_ends items rest).behind_spacing hspaced.1.after
      rw [moreItemsThen, skipClosings_comma hspacing]
      show skipWithin turns (.square :: stack) (i.andThen (moreItemsThen items rest)) = _
      rw [ItemText.andThen, hitem hspaced.1.before hends (by omega), leave,
        hmore hspaced.1.after (by rw [List.length_drop]; omega), List.drop_drop]

theorem skipName_quoted {m : MemberText} (hspaced : m.IsSpaced) (hname : IsQuoted m.quoted)
    (rest : Bytes) : skipName (m.andThen rest) = .ok (m.behind ++ (m.text ++ (m.after ++ rest))) := by
  rw [skipName, MemberText.andThen, skipSpace_append_cons hspaced.before (by decide)]
  simp only [if_true, skipString_quoted hname, bind, Except.bind, MemberText.valueThen,
    skipSpace_append_cons hspaced.gap (show isSpaceByte colonByte = false from rfl)]
  rfl

theorem moreMembersThen_skipped {members : List MemberText} (hspaced : ∀ m ∈ members, m.IsSpaced)
    (hnames : ∀ m ∈ members, IsQuoted m.quoted) (hmembers : ∀ m ∈ members, IsSkipped m.text) :
    IsSkippedBehind .curly (moreMembersThen members) := by
  induction members with
  | nil =>
    refine ⟨0, Nat.zero_le _, fun spacing rest turns stack hspacing _ => ?_⟩
    exact congrArg (resume turns) (skipClosings_close hspacing rest)
  | cons m members ih =>
    rw [List.forall_mem_cons] at hspaced hnames hmembers
    obtain ⟨n, hn, hmore⟩ := ih hspaced.2 hnames.2 hmembers.2
    obtain ⟨k, hk, hmember⟩ := hmembers.1
    refine ⟨k + n, ?_, fun spacing rest turns stack hspacing hturns => ?_⟩
    · simp only [moreMembersThen, MemberText.andThen, MemberText.valueThen, List.length_cons,
        List.length_append]
      omega
    · have hends : EndsNumber (m.after ++ moreMembersThen members rest) :=
        (moreMembersThen_ends members rest).behind_spacing hspaced.1.after
      rw [moreMembersThen, skipClosings_comma hspacing]
      show (do skipWithin turns (.curly :: stack) (← skipName (m.andThen _))) = _
      rw [skipName_quoted hspaced.1 hnames.1]
      show skipWithin turns (.curly :: stack) _ = _
      rw [hmember hspaced.1.behind hends (by omega), leave,
        hmore hspaced.1.after (by rw [List.length_drop]; omega), List.drop_drop]

/-- A bracket takes one turn more than what is within. -/
theorem isSkipped_opened {opener : UInt8} {textThen : Bytes → Bytes}
    (happend : ∀ rest, textThen [] ++ rest = textThen rest)
    (hspace : isSpaceByte opener = false)
    (hopener : ∀ rest, skipToken (opener :: rest) = .ok (.opened inner rest))
    (h : ∃ n ≤ (textThen []).length, ∀ ⦃rest turns : Bytes⦄ ⦃stack : List Bracket⦄,
      n ≤ turns.length → resume turns (skipClosings true inner stack (textThen rest)) =
        resume (turns.drop n) (leave stack rest)) :
    IsSkipped (opener :: textThen []) := by
  obtain ⟨n, hn, hskip⟩ := h
  refine ⟨n + 1, Nat.succ_le_succ hn, fun spacing rest turns stack hspacing _ hturns => ?_⟩
  obtain ⟨turn, turns, rfl⟩ := List.exists_cons_of_length_pos (Nat.zero_lt_of_lt hturns)
  rw [skipWithin_cons, List.cons_append, skipSpace_append_cons hspacing hspace, happend, hopener]
  exact hskip (Nat.le_of_succ_le_succ hturns)

theorem itemsThen_skipped {gap : Bytes} {items : List ItemText} (hgap : IsSpacing gap)
    (hspaced : ∀ i ∈ items, i.IsSpaced) (hvalues : ∀ i ∈ items, IsValue i.text)
    (hitems : ∀ i ∈ items, IsSkipped i.text) : IsSkipped (openSquare :: itemsThen gap items []) := by
  refine isSkipped_opened (itemsThen_append gap items) (by decide) (fun _ => rfl) ?_
  cases items with
  | nil =>
    refine ⟨0, Nat.zero_le _, fun rest turns stack _ => ?_⟩
    exact congrArg (resume turns) (skipClosings_close hgap rest)
  | cons i items =>
    rw [List.forall_mem_cons] at hspaced hvalues hitems
    obtain ⟨n, hn, hmore⟩ := moreItemsThen_skipped hspaced.2 hitems.2
    obtain ⟨k, hk, hitem⟩ := hitems.1
    obtain ⟨b, bytes, hhead, hspace, (hb : b ≠ Bracket.square.closer)⟩ := hvalues.1.head
    refine ⟨k + n, ?_, fun rest turns stack hturns => ?_⟩
    · simp only [itemsThen, ItemText.andThen, List.length_append]
      omega
    · have hends : EndsNumber (i.after ++ moreItemsThen items rest) :=
        (moreItemsThen_ends items rest).behind_spacing hspaced.1.after
      have hopened : skipClosings true .square stack (itemsThen gap (i :: items) rest) =
          .ok (.value .square stack (i.text ++ (i.after ++ moreItemsThen items rest))) := by
        rw [itemsThen, ItemText.andThen, hhead]
        exact skipClosings_fresh hspaced.1.before hspace hb _
      rw [hopened]
      refine (@hitem [] _ _ _ .nil hends (by omega)).trans ?_
      rw [leave, hmore hspaced.1.after (by rw [List.length_drop]; omega),
        List.drop_drop]

theorem membersThen_skipped {gap : Bytes} {members : List MemberText} (hgap : IsSpacing gap)
    (hspaced : ∀ m ∈ members, m.IsSpaced) (hnames : ∀ m ∈ members, IsQuoted m.quoted)
    (hmembers : ∀ m ∈ members, IsSkipped m.text) :
    IsSkipped (openCurly :: membersThen gap members []) := by
  refine isSkipped_opened (membersThen_append gap members) (by decide) (fun _ => rfl) ?_
  cases members with
  | nil =>
    refine ⟨0, Nat.zero_le _, fun rest turns stack _ => ?_⟩
    exact congrArg (resume turns) (skipClosings_close hgap rest)
  | cons m members =>
    rw [List.forall_mem_cons] at hspaced hnames hmembers
    obtain ⟨n, hn, hmore⟩ := moreMembersThen_skipped hspaced.2 hnames.2 hmembers.2
    obtain ⟨k, hk, hmember⟩ := hmembers.1
    refine ⟨k + n, ?_, fun rest turns stack hturns => ?_⟩
    · simp only [membersThen, MemberText.andThen, MemberText.valueThen, List.length_append,
        List.length_cons]
      omega
    · have hends : EndsNumber (m.after ++ moreMembersThen members rest) :=
        (moreMembersThen_ends members rest).behind_spacing hspaced.1.after
      have hunspaced : { m with before := [] }.IsSpaced :=
        ⟨.nil, hspaced.1.gap, hspaced.1.behind, hspaced.1.after⟩
      have hname : skipName (quoteByte :: (m.quoted ++ m.valueThen (moreMembersThen members rest))) =
          .ok (m.behind ++ (m.text ++ (m.after ++ moreMembersThen members rest))) :=
        skipName_quoted hunspaced hnames.1 _
      rw [membersThen, MemberText.andThen,
        skipClosings_fresh hspaced.1.before (by decide) (show quoteByte ≠ closeCurly by decide)]
      show (do skipWithin turns (.curly :: stack) (← skipName _)) = _
      rw [hname]
      show skipWithin turns (.curly :: stack) _ = _
      rw [hmember hspaced.1.behind hends (by omega), leave,
        hmore hspaced.1.after (by rw [List.length_drop]; omega), List.drop_drop]

theorem skipToken_ident {name : Bytes} {first : UInt8} (rest : Bytes)
    (h : skipToken (first :: (name ++ rest)) = do return .ended (← readIdent name (name ++ rest))) :
    skipToken (first :: (name ++ rest)) = .ok (.ended rest) := by
  rw [h, readIdent_append]
  rfl

theorem IsValue.isSkipped (h : IsValue text) : IsSkipped text := by
  induction h with
  | nullName => exact .scalar ⟨_, _, rfl, by decide⟩ fun rest _ => skipToken_ident rest rfl
  | trueName => exact .scalar ⟨_, _, rfl, by decide⟩ fun rest _ => skipToken_ident rest rfl
  | falseName => exact .scalar ⟨_, _, rfl, by decide⟩ fun rest _ => skipToken_ident rest rfl
  | unsigned h =>
    obtain ⟨b, bytes, rfl, hb⟩ := h.head
    refine .scalar ⟨_, _, rfl, isSpaceByte_digit hb⟩ fun rest hrest => ?_
    have hskip := skipNumeral_unsigned h hrest
    rw [List.cons_append] at hskip ⊢
    have hne : ∀ c, isDigit c = false → b ≠ c := by
      rintro c hc rfl
      rw [hb] at hc
      cases hc
    simp only [skipToken, hne _ (show isDigit 0x6e = false from rfl),
      hne _ (show isDigit 0x74 = false from rfl), hne _ (show isDigit 0x66 = false from rfl),
      hne _ (show isDigit 0x2d = false from rfl), hb, if_false, if_true, hskip]
    rfl
  | negative h =>
    refine .scalar ⟨_, _, rfl, by decide⟩ fun rest hrest => ?_
    show (do return Passed.ended (← skipNumeral _)) = _
    exact bind_eq_ok.mpr ⟨_, skipNumeral_unsigned h hrest, rfl⟩
  | string h =>
    refine .scalar ⟨_, _, rfl, by decide⟩ fun rest _ => ?_
    show (do return Passed.ended (← skipString _)) = _
    exact bind_eq_ok.mpr ⟨_, skipString_quoted h rest, rfl⟩
  | sequence hgap hspaced hitems ih => exact itemsThen_skipped hgap hspaced hitems ih
  | map hgap hspaced hnames _ ih => exact membersThen_skipped hgap hspaced hnames ih

/-- **Every value is passed over**, with the white space in front of it. -/
theorem skipValue_value (h : IsValue text) (hspacing : IsSpacing spacing) (hrest : EndsNumber rest) :
    skipValue (spacing ++ (text ++ rest)) = .ok rest := by
  obtain ⟨n, hn, hskip⟩ := h.isSkipped
  rw [skipValue, hskip hspacing hrest (by simp only [List.length_append]; omega)]
  rfl

/-- Bytes begin with one value only. -/
theorem value_unique {spacing' text' rest' : Bytes} (hspacing : IsSpacing spacing)
    (hspacing' : IsSpacing spacing') (h : IsValue text) (h' : IsValue text')
    (hrest : EndsNumber rest) (hrest' : EndsNumber rest')
    (heq : spacing ++ (text ++ rest) = spacing' ++ (text' ++ rest')) : text = text' ∧ rest = rest' := by
  have hskip := skipValue_value h hspacing hrest
  rw [heq, skipValue_value h' hspacing' hrest'] at hskip
  obtain rfl := Except.ok.inj hskip
  have htext := h.skipSpace_eq hspacing rest'
  rw [heq, h'.skipSpace_eq hspacing'] at htext
  exact ⟨(List.append_cancel_right htext).symm, rfl⟩

/-! ## Nothing else is passed over -/

/-- What stands behind a value is the rest of the open brackets, and then `rest`. -/
inductive Closes (rest : Bytes) : List Bracket → Bytes → Prop
  | none : Closes rest [] rest
  | square {outer : List Bracket} {spacing bytes : Bytes} {items : List ItemText}
    (hspacing : IsSpacing spacing) (hspaced : ∀ i ∈ items, i.IsSpaced)
    (hitems : ∀ i ∈ items, IsValue i.text) (h : Closes rest outer bytes) :
    Closes rest (.square :: outer) (spacing ++ moreItemsThen items bytes)
  | curly {outer : List Bracket} {spacing bytes : Bytes} {members : List MemberText}
    (hspacing : IsSpacing spacing) (hspaced : ∀ m ∈ members, m.IsSpaced)
    (hnames : ∀ m ∈ members, IsQuoted m.quoted) (hmembers : ∀ m ∈ members, IsValue m.text)
    (h : Closes rest outer bytes) :
    Closes rest (.curly :: outer) (spacing ++ moreMembersThen members bytes)

/-- First there is a value, then the rest of the open brackets, and then `rest`. -/
def LeadsTo (rest : Bytes) (stack : List Bracket) (bytes : Bytes) : Prop :=
  ∃ spacing text mid, IsSpacing spacing ∧ IsValue text ∧ bytes = spacing ++ (text ++ mid) ∧
    Closes rest stack mid

theorem Closes.closer (hspacing : IsSpacing spacing) (h : Closes rest stack bytes) :
    Closes rest (inner :: stack) (spacing ++ inner.closer :: bytes) := by
  cases inner with
  | square =>
    show Closes rest (.square :: stack) (spacing ++ moreItemsThen [] bytes)
    exact .square hspacing (List.forall_mem_nil _) (List.forall_mem_nil _) h
  | curly =>
    show Closes rest (.curly :: stack) (spacing ++ moreMembersThen [] bytes)
    exact .curly hspacing (List.forall_mem_nil _) (List.forall_mem_nil _) (List.forall_mem_nil _) h

theorem Closes.item (hspacing : IsSpacing spacing) (h : LeadsTo rest (.square :: stack) bytes) :
    Closes rest (.square :: stack) (spacing ++ commaByte :: bytes) := by
  obtain ⟨before, text, mid, hbefore, htext, rfl, hmid⟩ := h
  cases hmid with
  | @square _ after _ items hafter hspaced hitems hmid =>
    let i : ItemText := ⟨before, text, after⟩
    show Closes rest (.square :: stack) (spacing ++ moreItemsThen (i :: items) _)
    exact .square hspacing (List.forall_mem_cons.mpr ⟨⟨hbefore, hafter⟩, hspaced⟩)
      (List.forall_mem_cons.mpr ⟨htext, hitems⟩) hmid

theorem name_of_skipName (h : skipName bytes = .ok rest) : ∃ before quoted gap, IsSpacing before ∧
    IsQuoted quoted ∧ IsSpacing gap ∧
    bytes = before ++ quoteByte :: (quoted ++ (gap ++ colonByte :: rest)) := by
  unfold skipName at h
  split at h
  · cases h
  next b bytes₁ hskip =>
  obtain ⟨before, hbefore, rfl, -⟩ := skipSpace_eq_cons hskip
  split at h
  next hb =>
    obtain ⟨bytes₂, hstring, hcolon⟩ := bind_eq_ok.mp h
    obtain ⟨quoted, rfl, hquoted⟩ := quoted_of_skipString hstring
    split at hcolon
    · cases hcolon
    next c bytes₃ hskip₃ =>
    obtain ⟨gap, hgap, rfl, -⟩ := skipSpace_eq_cons hskip₃
    split at hcolon
    next hc =>
      cases hcolon
      exact ⟨before, quoted, gap, hbefore, hquoted, hgap, by rw [hb, hc]; rfl⟩
    · cases hcolon
  · cases h

/-- A value behind a name is one member, and the others follow. -/
theorem member_of_skipName {bytes' : Bytes} (hname : skipName bytes = .ok bytes')
    (h : LeadsTo rest (.curly :: stack) bytes') : ∃ (m : MemberText) (members : List MemberText)
      (mid : Bytes), (∀ m' ∈ m :: members, m'.IsSpaced) ∧ (∀ m' ∈ m :: members, IsQuoted m'.quoted) ∧
      (∀ m' ∈ m :: members, IsValue m'.text) ∧ bytes = m.andThen (moreMembersThen members mid) ∧
      Closes rest stack mid := by
  obtain ⟨before, quoted, gap, hbefore, hquoted, hgap, rfl⟩ := name_of_skipName hname
  obtain ⟨behind, text, mid, hbehind, htext, rfl, hmid⟩ := h
  cases hmid with
  | @curly _ after mid members hafter hspaced hnames hmembers hmid =>
    exact ⟨⟨before, quoted, gap, behind, text, after⟩, members, mid,
      List.forall_mem_cons.mpr ⟨⟨hbefore, hgap, hbehind, hafter⟩, hspaced⟩,
      List.forall_mem_cons.mpr ⟨hquoted, hnames⟩, List.forall_mem_cons.mpr ⟨htext, hmembers⟩, rfl, hmid⟩

theorem closes_of_leave (ih : ∀ {stack bytes}, skipWithin turns stack bytes = .ok rest →
    LeadsTo rest stack bytes) (h : resume turns (leave stack bytes) = .ok rest) :
    Closes rest stack bytes := by
  induction stack generalizing bytes with
  | nil =>
    cases h
    exact .none
  | cons inner outer ihstack =>
    rw [leave] at h
    cases hskip : skipSpace bytes with
    | nil =>
      rw [skipClosings.eq_def] at h
      simp only [hskip] at h
      cases h
    | cons b bytes' =>
      obtain ⟨spacing, hspacing, rfl, -⟩ := skipSpace_eq_cons hskip
      rw [skipClosings_cons hskip] at h
      split at h
      next hcomma =>
        obtain ⟨-, rfl⟩ := hcomma
        cases inner with
        | square => exact .item hspacing (ih h)
        | curly =>
          rw [resume_curly] at h
          obtain ⟨bytes₂, hname, hvalue⟩ := bind_eq_ok.mp h
          obtain ⟨m, members, mid, hspaced, hnames, hmembers, rfl, hmid⟩ :=
            member_of_skipName hname (ih hvalue)
          show Closes rest (.curly :: outer) (spacing ++ moreMembersThen (m :: members) mid)
          exact .curly hspacing hspaced hnames hmembers hmid
      split at h
      next hb =>
        rw [hb]
        exact (ihstack h).closer hspacing
      · cases h

/-- A token is a whole value or an opening bracket. -/
theorem token_of_skipToken {passed : Passed} (h : skipToken bytes = .ok passed) :
    (∃ text rest, passed = .ended rest ∧ bytes = text ++ rest ∧ IsValue text) ∨
      (∃ rest, passed = .opened .square rest ∧ bytes = openSquare :: rest) ∨
      ∃ rest, passed = .opened .curly rest ∧ bytes = openCurly :: rest := by
  unfold skipToken at h
  split at h
  · cases h
  next b bytes =>
  split at h
  next hb =>
    obtain ⟨rest, hident, h⟩ := bind_eq_ok.mp h
    cases h
    exact .inl ⟨_, rest, rfl, by rw [hb, ident_of_readIdent hident]; rfl, .nullName⟩
  split at h
  next hb =>
    obtain ⟨rest, hident, h⟩ := bind_eq_ok.mp h
    cases h
    exact .inl ⟨_, rest, rfl, by rw [hb, ident_of_readIdent hident]; rfl, .trueName⟩
  split at h
  next hb =>
    obtain ⟨rest, hident, h⟩ := bind_eq_ok.mp h
    cases h
    exact .inl ⟨_, rest, rfl, by rw [hb, ident_of_readIdent hident]; rfl, .falseName⟩
  split at h
  next hb =>
    obtain ⟨rest, hnumeral, h⟩ := bind_eq_ok.mp h
    cases h
    obtain ⟨text, rfl, htext⟩ := unsigned_of_skipNumeral hnumeral
    exact .inl ⟨_, rest, rfl, by rw [hb]; rfl, .negative htext⟩
  split at h
  · obtain ⟨rest, hnumeral, h⟩ := bind_eq_ok.mp h
    cases h
    obtain ⟨text, heq, htext⟩ := unsigned_of_skipNumeral hnumeral
    exact .inl ⟨text, rest, rfl, heq, .unsigned htext⟩
  split at h
  next hb =>
    obtain ⟨rest, hquoted, h⟩ := bind_eq_ok.mp h
    cases h
    obtain ⟨text, rfl, htext⟩ := quoted_of_skipString hquoted
    exact .inl ⟨_, rest, rfl, by rw [hb]; rfl, .string htext⟩
  split at h
  next hb =>
    cases h
    exact .inr (.inl ⟨bytes, rfl, by rw [hb]; rfl⟩)
  split at h
  next hb =>
    cases h
    exact .inr (.inr ⟨bytes, rfl, by rw [hb]; rfl⟩)
  · cases h

/-- What is within a bracket just opened ends at once, or begins with a value. -/
theorem opened_cases (ih : ∀ {stack bytes}, skipWithin turns stack bytes = .ok rest →
    LeadsTo rest stack bytes)
    (h : resume turns (skipClosings true inner stack bytes) = .ok rest) :
    (∃ gap mid, IsSpacing gap ∧ bytes = gap ++ inner.closer :: mid ∧ Closes rest stack mid) ∨
      ∃ gap bytes', IsSpacing gap ∧ bytes = gap ++ bytes' ∧
        resume turns (.ok (.value inner stack bytes')) = .ok rest := by
  cases hskip : skipSpace bytes with
  | nil =>
    rw [skipClosings.eq_def] at h
    simp only [hskip] at h
    cases h
  | cons b bytes' =>
    obtain ⟨gap, hgap, rfl, -⟩ := skipSpace_eq_cons hskip
    rw [skipClosings_cons hskip, if_neg fun h => absurd h.1 (by decide)] at h
    split at h
    next hb => exact .inl ⟨gap, bytes', hgap, by rw [hb], closes_of_leave ih h⟩
    · exact .inr ⟨gap, b :: bytes', hgap, rfl, h⟩

theorem leadsTo_of_skipWithin (h : skipWithin turns stack bytes = .ok rest) :
    LeadsTo rest stack bytes := by
  induction turns generalizing stack bytes with
  | nil => cases h
  | cons turn turns ih =>
    obtain ⟨spacing, hspacing, hbytes⟩ := skipSpace_split bytes
    rw [skipWithin_cons] at h
    cases htoken : skipToken (skipSpace bytes) with
    | error e =>
      rw [htoken] at h
      cases h
    | ok passed =>
      rw [htoken] at h
      rcases token_of_skipToken htoken with ⟨text, mid, rfl, heq, htext⟩ | ⟨mid, rfl, heq⟩ |
        ⟨mid, rfl, heq⟩
      · exact ⟨spacing, text, mid, hspacing, htext, by rw [← heq, ← hbytes], closes_of_leave ih h⟩
      · rcases opened_cases ih h with ⟨gap, mid, hgap, rfl, hmid⟩ | ⟨gap, bytes', hgap, rfl, hvalue⟩
        · refine ⟨spacing, openSquare :: itemsThen gap [] [], mid, hspacing,
            .sequence hgap (List.forall_mem_nil _) (List.forall_mem_nil _), ?_, hmid⟩
          rw [hbytes, heq, List.cons_append, itemsThen_append]
          rfl
        · obtain ⟨before, text, mid, hbefore, htext, rfl, hmid⟩ := ih hvalue
          cases hmid with
          | @square _ after mid items hafter hspaced hitems hmid =>
            refine ⟨spacing, openSquare :: itemsThen [] (⟨gap ++ before, text, after⟩ :: items) [], mid,
              hspacing, .sequence .nil (List.forall_mem_cons.mpr ⟨⟨?_, hafter⟩, hspaced⟩)
              (List.forall_mem_cons.mpr ⟨htext, hitems⟩), ?_, hmid⟩
            · exact List.forall_mem_append.mpr ⟨hgap, hbefore⟩
            · rw [hbytes, heq, List.cons_append, itemsThen_append]
              simp only [itemsThen, ItemText.andThen, List.append_assoc]
      · rcases opened_cases ih h with ⟨gap, mid, hgap, rfl, hmid⟩ | ⟨gap, bytes', hgap, rfl, hvalue⟩
        · refine ⟨spacing, openCurly :: membersThen gap [] [], mid, hspacing, .map hgap
            (List.forall_mem_nil _) (List.forall_mem_nil _) (List.forall_mem_nil _), ?_, hmid⟩
          rw [hbytes, heq, List.cons_append, membersThen_append]
          rfl
        · rw [resume_curly] at hvalue
          obtain ⟨bytes₂, hname, hvalue⟩ := bind_eq_ok.mp hvalue
          obtain ⟨m, members, mid, hspaced, hnames, hmembers, rfl, hmid⟩ :=
            member_of_skipName hname (ih hvalue)
          rw [List.forall_mem_cons] at hspaced hnames hmembers
          refine ⟨spacing, openCurly :: membersThen [] ({ m with before := gap ++ m.before } :: members)
            [], mid, hspacing, .map .nil (List.forall_mem_cons.mpr ⟨⟨?_, hspaced.1.gap,
              hspaced.1.behind, hspaced.1.after⟩, hspaced.2⟩) (List.forall_mem_cons.mpr hnames)
              (List.forall_mem_cons.mpr hmembers), ?_, hmid⟩
          · exact List.forall_mem_append.mpr ⟨hgap, hspaced.1.before⟩
          · rw [hbytes, heq, List.cons_append, membersThen_append]
            simp only [membersThen, MemberText.andThen, MemberText.valueThen, List.append_assoc]

/-- **What is passed over is one value**, with the white space in front of it. -/
theorem value_of_skipValue (h : skipValue bytes = .ok rest) :
    ∃ spacing text, IsSpacing spacing ∧ IsValue text ∧ bytes = spacing ++ (text ++ rest) := by
  obtain ⟨spacing, text, mid, hspacing, htext, hbytes, hmid⟩ := leadsTo_of_skipWithin h
  cases hmid
  exact ⟨spacing, text, hspacing, htext, hbytes⟩

/-- A text is that of a value if all of it is passed over. -/
theorem isValue_iff : IsValue text ↔
    (text.head?.all fun b => !isSpaceByte b) = true ∧ (skipValue text).toOption = some [] := by
  constructor
  · intro h
    obtain ⟨b, bytes, rfl, hb, -⟩ := h.head
    have hskip := skipValue_value h .nil .nil
    rw [List.append_nil, List.nil_append] at hskip
    exact ⟨by simp [hb], by rw [hskip]; rfl⟩
  · rintro ⟨hhead, hskip⟩
    obtain ⟨spacing, text', hspacing, htext', heq⟩ := value_of_skipValue (ok_of_toOption hskip)
    rw [List.append_nil] at heq
    cases spacing with
    | nil => exact heq ▸ htext'
    | cons b spacing =>
      rw [heq] at hhead
      have hb := hspacing b List.mem_cons_self
      simp [hb] at hhead

instance (text : Bytes) : Decidable (IsValue text) := decidable_of_iff' _ isValue_iff

end ClusterOutput.Json
