/-
Trimming the pieces of a text. White space around a text stands around its first and
its last piece, so trimmed pieces do not tell whether it was there
(`trimmedPieces_trimChars`), and trimming takes away just the white space around what
has none at its ends (`trimChars_around`).
-/
import ClusterOutput.Proofs.Text.Pieces
import Mathlib.Data.List.DropRight

namespace ClusterOutput.Text

variable {p : Char → Bool} {cs before after : List Char} {c : Char}

/-! ## Trimming at the end -/

/-- A character is dropped at the end only if all behind it is. -/
theorem trimEndBy_cons (p : Char → Bool) (c : Char) (cs : List Char) :
    trimEndBy p (c :: cs) =
      if trimEndBy p cs = [] then (if p c then [] else [c]) else c :: trimEndBy p cs := by
  simp only [trimEndBy, List.reverse_cons, List.dropWhile_append, List.reverse_eq_nil_iff]
  by_cases h : cs.reverse.dropWhile p = []
  · by_cases hc : p c = true <;> simp [h, hc]
  · simp [h]

theorem trimEndBy_concat (hc : p c = true) (cs : List Char) :
    trimEndBy p (cs ++ [c]) = trimEndBy p cs := List.rdropWhile_concat_pos p cs c hc

theorem trimEndBy_append_dropped (h : ∀ c ∈ after, p c = true) (cs : List Char) :
    trimEndBy p (cs ++ after) = trimEndBy p cs := by
  induction after using List.reverseRecOn with
  | nil => rw [List.append_nil]
  | append_singleton after c ih =>
    rw [← List.append_assoc, trimEndBy_concat (h c (by simp)), ih fun d hd => h d (by simp [hd])]

/-- It makes no difference at which end a text is trimmed first. -/
theorem trimEndBy_dropWhile (p : Char → Bool) (cs : List Char) :
    trimEndBy p (cs.dropWhile p) = (trimEndBy p cs).dropWhile p := by
  induction cs with
  | nil => rfl
  | cons c cs ih =>
    by_cases hc : p c = true
    · rw [List.dropWhile_cons_of_pos hc, ih, trimEndBy_cons]
      split
      next hnil => simp [hnil]
      · rw [List.dropWhile_cons_of_pos hc]
    · rw [List.dropWhile_cons_of_neg hc, trimEndBy_cons]
      split <;> simp [hc]

/-! ## Trimming at both ends -/

/-- White space around a text is trimmed with that of the text. -/
theorem trimChars_around (hbefore : ∀ c ∈ before, isBlank c = true)
    (hafter : ∀ c ∈ after, isBlank c = true) (cs : List Char) :
    trimChars (before ++ cs ++ after) = trimChars cs := by
  rw [trimChars, trimEndBy_dropWhile, trimEndBy_append_dropped hafter, ← trimEndBy_dropWhile,
    List.dropWhile_append_of_pos hbefore, trimChars]

theorem trimChars_blank (h : ∀ c ∈ cs, isBlank c = true) : trimChars cs = [] := by
  simpa [trimChars, trimEndBy] using trimChars_around h (List.forall_mem_nil _) []

theorem trimChars_trimChars (cs : List Char) : trimChars (trimChars cs) = trimChars cs := by
  have hend (ds : List Char) : trimEndBy isBlank (trimEndBy isBlank ds) = trimEndBy isBlank ds :=
    List.rdropWhile_idempotent isBlank ds
  rw [trimChars, trimChars, ← trimEndBy_dropWhile, List.dropWhile_idempotent, hend]

/-- What is trimmed has characters of the text only. -/
theorem mem_of_mem_trimChars (h : c ∈ trimChars cs) : c ∈ cs :=
  List.dropWhile_subset _ ((List.rdropWhile_prefix isBlank _).subset h)

/-- A text is white space, what is left when it is trimmed, and white space. -/
theorem trimChars_within (cs : List Char) :
    ∃ before after, cs = before ++ trimChars cs ++ after ∧ (∀ c ∈ before, isBlank c = true) ∧
      ∀ c ∈ after, isBlank c = true := by
  refine ⟨cs.takeWhile isBlank, (cs.dropWhile isBlank).rtakeWhile isBlank, ?_,
    fun c hc => List.mem_takeWhile_imp hc, fun c hc => List.mem_rtakeWhile_imp hc⟩
  have hend : trimChars cs ++ (cs.dropWhile isBlank).rtakeWhile isBlank = cs.dropWhile isBlank :=
    List.rdropWhile_append_rtakeWhile
  rw [List.append_assoc, hend, List.takeWhile_append_dropWhile]

/-! ## Trimmed pieces -/

variable {sep : Char}

/-- White space in front of a text stands in front of its first piece. -/
theorem trimmedPieces_before (hsep : isBlank sep = false) (hbefore : ∀ c ∈ before, isBlank c = true)
    (cs : List Char) :
    (pieces sep (before ++ cs)).map trimChars = (pieces sep cs).map trimChars := by
  induction before with
  | nil => rfl
  | cons c before ih =>
    rw [List.forall_mem_cons] at hbefore
    have hc : c ≠ sep := by
      rintro rfl
      rw [hbefore.1] at hsep
      cases hsep
    obtain ⟨piece, rest, hcs, hall⟩ := pieces_cons_of_ne hc (before ++ cs)
    have hpiece : trimChars (c :: piece) = trimChars piece := by
      have hblank : ∀ d ∈ [c], isBlank d = true := List.forall_mem_singleton.mpr hbefore.1
      simpa using trimChars_around hblank (List.forall_mem_nil _) piece
    rw [List.cons_append, hall, List.map_cons, hpiece, ← List.map_cons, ← hcs, ih hbefore.2]

/-- White space behind a text stands behind its last piece. -/
theorem endTrimmedPieces_concat (hsep : isBlank sep = false) (hc : isBlank c = true)
    (cs : List Char) :
    (pieces sep (cs ++ [c])).map (trimEndBy isBlank) = (pieces sep cs).map (trimEndBy isBlank) := by
  have hne : c ≠ sep := by
    rintro rfl
    rw [hc] at hsep
    cases hsep
  induction cs with
  | nil => simp [pieces, hne, trimEndBy, hc]
  | cons d cs ih =>
    rw [List.cons_append]
    by_cases hd : d = sep
    · rw [pieces, if_pos hd, pieces, if_pos hd, List.map_cons, List.map_cons, ih]
    · obtain ⟨piece, rest, hcs, hall⟩ := pieces_cons_of_ne hd cs
      obtain ⟨piece', rest', hcs', hall'⟩ := pieces_cons_of_ne hd (cs ++ [c])
      rw [hcs, hcs', List.map_cons, List.map_cons, List.cons.injEq] at ih
      rw [hall, hall', List.map_cons, List.map_cons, trimEndBy_cons, trimEndBy_cons, ih.1, ih.2]

theorem trimmedPieces_after (hsep : isBlank sep = false) (hafter : ∀ c ∈ after, isBlank c = true)
    (cs : List Char) :
    (pieces sep (cs ++ after)).map trimChars = (pieces sep cs).map trimChars := by
  have hends : trimChars = (List.dropWhile isBlank ·) ∘ trimEndBy isBlank := by
    funext ds
    exact trimEndBy_dropWhile isBlank ds
  induction after using List.reverseRecOn with
  | nil => rw [List.append_nil]
  | append_singleton after c ih =>
    rw [← List.append_assoc, hends, ← List.map_map, endTrimmedPieces_concat hsep (hafter c (by simp)),
      List.map_map, ← hends, ih fun d hd => hafter d (by simp [hd])]

/-- **White space around a text makes no difference to its trimmed pieces**, where the separator is
none. -/
theorem trimmedPieces_trimChars (hsep : isBlank sep = false) (cs : List Char) :
    (pieces sep (trimChars cs)).map trimChars = (pieces sep cs).map trimChars := by
  obtain ⟨before, after, hcs, hbefore, hafter⟩ := trimChars_within cs
  conv_rhs => rw [hcs]
  rw [trimmedPieces_after hsep hafter, trimmedPieces_before hsep hbefore]

end ClusterOutput.Text
