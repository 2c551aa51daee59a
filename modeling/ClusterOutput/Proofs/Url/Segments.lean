/-
The segments of a path. What is put behind a path, from a slash on, is read as
segments of its own, each of them behind those that the path came to
(`walk_append`).

A segment made from a name holds nothing that a path is read by, and stands for
the name. Only the names of one dot and of two become segments that move through
the path: no dot is encoded (`encodeSegment_step`).
-/
import ClusterOutput.Proofs.Url.Percent
import ClusterOutput.Url.DocumentPath

namespace ClusterOutput.Url

/-! ## Splitting -/

section

variable {kind : SchemeKind}

theorem splitSegments_ne_nil (kind : SchemeKind) (cs : List Char) : splitSegments kind cs ≠ [] := by
  cases cs with
  | nil => simp [splitSegments]
  | cons c cs =>
    simp only [splitSegments]
    split
    · simp
    · split <;> simp

theorem splitSegments_cons {c : Char} (hc : isSlash kind c = false) {cs seg : List Char}
    {segs : List (List Char)} (h : splitSegments kind cs = seg :: segs) :
    splitSegments kind (c :: cs) = (c :: seg) :: segs := by
  simp only [splitSegments, hc, h, Bool.false_eq_true, if_false]

theorem splitSegments_append {d : Char} (hd : isSlash kind d = true) (cs later : List Char) :
    splitSegments kind (cs ++ d :: later) =
      splitSegments kind cs ++ splitSegments kind later := by
  induction cs with
  | nil => simp only [List.nil_append, splitSegments, hd, if_true, List.singleton_append]
  | cons c cs ih =>
    by_cases hc : isSlash kind c = true
    · simp only [List.cons_append, splitSegments, hc, if_true, ih]
    · obtain ⟨seg, segs, hsegs⟩ := List.exists_cons_of_ne_nil (splitSegments_ne_nil kind cs)
      simp only [Bool.not_eq_true] at hc
      rw [hsegs, List.cons_append] at ih
      rw [List.cons_append, splitSegments_cons hc ih, splitSegments_cons hc hsegs, List.cons_append]

theorem splitSegments_segment {seg : List Char} (h : ∀ c ∈ seg, isSlash kind c = false) :
    splitSegments kind seg = [seg] := by
  induction seg with
  | nil => rfl
  | cons c seg ih =>
    rw [List.forall_mem_cons] at h
    exact splitSegments_cons h.1 (ih h.2)

/-- Segments behind a text, each behind a slash. -/
theorem splitSegments_slashed (cs : List Char) {segs : List (List Char)}
    (h : ∀ seg ∈ segs, ∀ c ∈ seg, isSlash kind c = false) :
    splitSegments kind (cs ++ segs.flatMap ('/' :: ·)) = splitSegments kind cs ++ segs := by
  induction segs generalizing cs with
  | nil => simp
  | cons seg segs ih =>
    rw [List.forall_mem_cons] at h
    rw [List.flatMap_cons, ← List.append_assoc, ih (cs ++ '/' :: seg) h.2,
      splitSegments_append (by simp [isSlash]), splitSegments_segment h.1, List.append_assoc,
      List.singleton_append]

/-- No segment holds a slash. -/
theorem slash_not_mem_splitSegments (kind : SchemeKind) (cs : List Char) :
    ∀ seg ∈ splitSegments kind cs, '/' ∉ seg := by
  induction cs with
  | nil => simp [splitSegments]
  | cons c cs ih =>
    by_cases hc : isSlash kind c = true
    · simp only [splitSegments, hc, if_true, List.forall_mem_cons]
      exact ⟨List.not_mem_nil, ih⟩
    · rw [Bool.not_eq_true] at hc
      obtain ⟨seg, segs, hsegs⟩ := List.exists_cons_of_ne_nil (splitSegments_ne_nil kind cs)
      rw [hsegs, List.forall_mem_cons] at ih
      rw [splitSegments_cons hc hsegs, List.forall_mem_cons]
      refine ⟨fun hslash => ?_, ih.2⟩
      rcases List.mem_cons.mp hslash with rfl | hslash
      · simp [isSlash] at hc
      · exact ih.1 hslash

/-- A text that ends in no slash ends in a segment that is not empty. -/
theorem splitSegments_concat {d : Char} (hd : isSlash kind d = false) (cs : List Char) :
    ∃ segs seg, splitSegments kind (cs ++ [d]) = segs ++ [seg] ∧ seg ≠ [] := by
  induction cs with
  | nil => exact ⟨[], [d], splitSegments_segment (by simpa using hd), List.cons_ne_nil _ _⟩
  | cons c cs ih =>
    obtain ⟨segs, seg, hsplit, hseg⟩ := ih
    by_cases hc : isSlash kind c = true
    · refine ⟨[] :: segs, seg, ?_, hseg⟩
      rw [List.cons_append, splitSegments, if_pos hc, hsplit, List.cons_append]
    · rw [Bool.not_eq_true] at hc
      cases segs with
      | nil => exact ⟨[], c :: seg, splitSegments_cons hc hsplit, List.cons_ne_nil _ _⟩
      | cons first segs => exact ⟨(c :: first) :: segs, seg, splitSegments_cons hc hsplit, hseg⟩

end

/-! ## Walking -/

/-- What a segment makes of a path that goes on behind it. -/
def stride (path : List (List Char)) (seg : List Char) : List (List Char) :=
  if isDoubleDot seg then shorten path
  else if isSingleDot seg then path
  else path ++ [encodeText inPath seg]

theorem walk_cons (path : List (List Char)) (seg : List Char) {segs : List (List Char)}
    (h : segs ≠ []) : walk path (seg :: segs) = walk (stride path seg) segs := by
  have hempty : segs.isEmpty = false := by simpa using h
  simp only [walk, stride, hempty, Bool.false_eq_true, if_false]

/-- A path is walked in two parts. -/
theorem walk_append (path segs : List (List Char)) {later : List (List Char)} (h : later ≠ []) :
    walk path (segs ++ later) = walk (segs.foldl stride path) later := by
  induction segs generalizing path with
  | nil => rfl
  | cons seg segs ih =>
    rw [List.cons_append, walk_cons path seg (by simp [h]), ih, List.foldl_cons]

/-- A path that ends is the one that would go on, or has an empty segment behind it. -/
theorem walk_ends (path segs : List (List Char)) :
    walk path segs = segs.foldl stride path ∨ walk path segs = segs.foldl stride path ++ [[]] := by
  induction segs generalizing path with
  | nil => exact .inl rfl
  | cons seg segs ih =>
    rw [List.foldl_cons]
    by_cases h : segs = []
    · subst h
      simp only [walk, stride, List.isEmpty_nil, if_true, List.foldl_nil]
      split
      · exact .inr rfl
      split
      · exact .inr rfl
      · exact .inl rfl
    · rw [walk_cons path seg h]
      exact ih _

/-- A path that goes on behind a segment that is not empty ends in an empty one only where it would
have another, did it end there. -/
theorem walk_of_ends_empty (path segs : List (List Char)) {seg : List Char} (hseg : seg ≠ [])
    (hend : ((segs ++ [seg]).foldl stride path).getLast? = some []) :
    walk path (segs ++ [seg]) = (segs ++ [seg]).foldl stride path ++ [[]] := by
  rw [List.foldl_append, List.foldl_cons, List.foldl_nil] at hend ⊢
  rw [walk_append path segs (List.cons_ne_nil _ _)]
  simp only [walk, stride, List.isEmpty_nil, if_true] at hend ⊢
  split
  next => rfl
  split
  next => rfl
  next hdouble hsingle =>
    rw [if_neg hdouble, if_neg hsingle, List.getLast?_concat] at hend
    exact absurd (Option.some.inj hend) (encodeText_ne_nil hseg)

/-- A path that ends in an empty segment would go on behind it. -/
theorem walk_of_ends_slash (path segs : List (List Char)) :
    walk path (segs ++ [[]]) = (segs ++ [[]]).foldl stride path := by
  have hsingle : isSingleDot [] = false := rfl
  have hdouble : isDoubleDot [] = false := rfl
  rw [walk_append path segs (List.cons_ne_nil _ _), List.foldl_append, List.foldl_cons,
    List.foldl_nil]
  simp only [walk, stride, hsingle, hdouble, Bool.false_eq_true, if_false]

theorem mem_of_mem_shorten {path : List (List Char)} {seg : List Char} (h : seg ∈ shorten path) :
    seg ∈ path := by
  unfold shorten at h
  split at h
  next => cases h
  next last front hpath =>
    split at h
    · exact h
    · rw [← List.mem_reverse, hpath]
      exact List.mem_cons_of_mem _ (List.mem_reverse.mp h)

/-- No segment of a path gets a slash. -/
theorem slash_not_mem_foldl {segs : List (List Char)} (hsegs : ∀ seg ∈ segs, '/' ∉ seg)
    {path : List (List Char)} (hpath : ∀ seg ∈ path, '/' ∉ seg) :
    ∀ seg ∈ segs.foldl stride path, '/' ∉ seg := by
  induction segs generalizing path with
  | nil => exact hpath
  | cons seg segs ih =>
    rw [List.forall_mem_cons] at hsegs
    refine ih hsegs.2 ?_
    unfold stride
    split
    · exact fun s hs => hpath s (mem_of_mem_shorten hs)
    split
    · exact hpath
    · rw [List.forall_mem_append, List.forall_mem_singleton]
      exact ⟨hpath, slash_not_mem_encodeText hsegs.1⟩

/-- A segment that is neither dots nor has anything to encode is taken as it is. -/
structure IsStep (seg : List Char) : Prop where
  singleDot : isSingleDot seg = false
  doubleDot : isDoubleDot seg = false
  encoded : encodeText inPath seg = seg

theorem walk_steps (path : List (List Char)) {segs : List (List Char)} (h : ∀ seg ∈ segs, IsStep seg) :
    walk path segs = path ++ segs := by
  induction segs generalizing path with
  | nil => simp [walk]
  | cons seg segs ih =>
    rw [List.forall_mem_cons] at h
    obtain ⟨hsingle, hdouble, hencoded⟩ := h.1
    simp only [walk, hsingle, hdouble, hencoded, Bool.false_eq_true, if_false]
    rw [ih _ h.2, List.append_assoc, List.singleton_append]

/-! ## Segments made from names -/

theorem components_ne_nil (index docType id : String) : components index docType id ≠ [] := by
  unfold components
  split
  · split <;> simp
  split
  · split <;> simp
  · simp

/-- The character has no meaning within a path, and none that reading it would change. -/
def isSegmentChar (c : Char) : Bool :=
  0x20 < c.toNat && c.toNat < 0x7f && !inPath c.toNat.toUInt8 && c != '/' && c != '\\'

theorem isSegmentChar_kept {c : Char} (h : isSegmentChar c = true) :
    c.toNat < 0x80 ∧ (isControlByte c.toNat.toUInt8 || inPath c.toNat.toUInt8) = false := by
  simp only [isSegmentChar, Bool.and_eq_true, decide_eq_true_eq, Bool.not_eq_true'] at h
  exact kept_of_visible h.1.1.1.1 h.1.1.1.2 h.1.1.2

theorem isSegmentChar_slash {c : Char} (h : isSegmentChar c = true) :
    isSlash .special c = false := by
  simp only [isSegmentChar, Bool.and_eq_true, bne_iff_ne] at h
  simp [isSlash, h.1.2, h.2]

theorem encodeSegment_chars (name : String) : ∀ c ∈ encodeSegment name, isSegmentChar c = true := by
  have hkept : ∀ b : UInt8, isControlByte b = false → inChars segmentEscapes b = false →
      isSegmentChar (Char.ofNat b.toNat) = true :=
    forall_byte (by decide +kernel)
  exact forall_encodeText (fun b _ => hkept b) (by decide) (by decide)

/-- A segment stands for the name that it was made from. -/
theorem decodeText_encodeSegment (name : String) :
    decodeText (encodeSegment name) = Utf8.encode name :=
  decodeText_encodeText (by decide) name.toList

theorem decodeText_singleDot {seg : List Char} (h : isSingleDot seg = true) :
    decodeText seg = Utf8.encode "." := by
  simp only [isSingleDot, Bool.or_eq_true, beq_iff_eq] at h
  rcases h with (rfl | rfl) | rfl <;> decide

theorem decodeText_doubleDot {seg : List Char} (h : isDoubleDot seg = true) :
    decodeText seg = Utf8.encode ".." := by
  unfold isDoubleDot at h
  split at h
  · simp only [isSingleDot, Bool.or_eq_true, beq_iff_eq] at h
    rcases h with (rfl | rfl) | rfl <;> decide
  · simp only [isSingleDot, Bool.and_eq_true, Bool.or_eq_true, beq_iff_eq] at h
    obtain ⟨rfl | rfl, (rfl | rfl) | rfl⟩ := h <;> decide
  · cases h

/-- A name that is neither one dot nor two becomes a segment that the path gets as it is. -/
theorem encodeSegment_step {name : String} (hsingle : name ≠ ".") (hdouble : name ≠ "..") :
    IsStep (encodeSegment name) where
  singleDot := by
    rw [Bool.eq_false_iff]
    intro h
    have hbytes := decodeText_singleDot h
    rw [decodeText_encodeSegment] at hbytes
    exact hsingle (Utf8.encode_injective hbytes)
  doubleDot := by
    rw [Bool.eq_false_iff]
    intro h
    have hbytes := decodeText_doubleDot h
    rw [decodeText_encodeSegment] at hbytes
    exact hdouble (Utf8.encode_injective hbytes)
  encoded := encodeText_kept fun c hc => isSegmentChar_kept (encodeSegment_chars name c hc)

end ClusterOutput.Url
