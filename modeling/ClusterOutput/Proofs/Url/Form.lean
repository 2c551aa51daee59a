/-
Forms read again. A form is taken apart at its ampersands and equal signs, a plus
sign is a space, and the rest is percent encoding: so it gives back just the pairs
that it was made of (`formEntries_encodeChars`), and different pairs make
different forms.

A map of parameters is sorted by name and holds the last value of each
(`mem_ofList`).
-/
import ClusterOutput.Proofs.Text.Pieces
import ClusterOutput.Proofs.Url.Percent
import Mathlib.Data.List.Induction

namespace ClusterOutput.Url

/-! ## Reading a form -/

/-- A plus sign stands for a space. -/
def plusToSpace (c : Char) : Char := if c = '+' then ' ' else c

/-- What a name or a value of a form stands for. -/
def formValue (cs : List Char) : String := Utf8.decodeLossy (decodeText (cs.map plusToSpace))

/-- A name, up to the first equals sign, and its value behind that. -/
def formEntry (cs : List Char) : String × String :=
  (formValue (cs.takeWhile (· != '=')), formValue ((cs.dropWhile (· != '=')).drop 1))

/-- The pairs of a form, which ampersands separate. -/
def formEntries (cs : List Char) : Params :=
  ((Text.pieces '&' cs).filter (!·.isEmpty)).map formEntry

/-! ## A name or a value -/

/-- The byte is percent-encoded in a form. -/
def inForm (b : UInt8) : Bool := b != 0x20 && !isAlphanumericByte b && !inChars "*-._" b

theorem map_plusToSpace_formByte : ∀ b, (formByte b).map plusToSpace = byteChars inForm b :=
  forall_byte (by decide +kernel)

/-- No character of a name or a value separates it from the next. -/
theorem formByte_separates : ∀ b, '&' ∉ formByte b ∧ '=' ∉ formByte b :=
  forall_byte (by decide +kernel)

theorem map_plusToSpace_formText (s : String) :
    (formText s).map plusToSpace = encodeText inForm s.toList := by
  rw [formText, List.map_flatMap]
  simp only [map_plusToSpace_formByte]
  rfl

theorem formValue_formText (s : String) : formValue (formText s) = s := by
  rw [formValue, map_plusToSpace_formText, decodeText_encodeText rfl]
  exact Utf8.decodeLossy_encode s

theorem formText_separates (s : String) : '&' ∉ formText s ∧ '=' ∉ formText s := by
  simp only [formText, List.mem_flatMap, not_exists, not_and]
  exact ⟨fun b _ => (formByte_separates b).1, fun b _ => (formByte_separates b).2⟩

/-! ## Pairs -/

theorem ampersand_not_mem_formPair (p : String × String) : '&' ∉ formPair p := by
  rw [formPair, List.mem_append, List.mem_cons]
  simp [(formText_separates p.1).1, (formText_separates p.2).1]

theorem formEntry_formPair (p : String × String) : formEntry (formPair p) = p := by
  have hname : ∀ c ∈ formText p.1, (c != '=') = true := by
    intro c hc
    rw [bne_iff_ne]
    rintro rfl
    exact (formText_separates p.1).2 hc
  obtain ⟨htake, hdrop⟩ : (formPair p).takeWhile (· != '=') = formText p.1 ∧
      (formPair p).dropWhile (· != '=') = '=' :: formText p.2 := by
    rw [formPair, List.takeWhile_append_of_pos hname, List.dropWhile_append_of_pos hname]
    simp
  rw [formEntry, htake, hdrop, List.drop_one, List.tail_cons, formValue_formText, formValue_formText]

theorem encodeChars_cons (p : String × String) (params : Params) :
    Params.encodeChars (p :: params) = formPair p ++ (params.map formPair).flatMap ('&' :: ·) := by
  induction params generalizing p with
  | nil => simp [Params.encodeChars]
  | cons q params ih =>
    rw [Params.encodeChars, ih q, List.map_cons, List.flatMap_cons, List.cons_append]
    simp

/-- A form gives back the pairs that it was made of. -/
theorem formEntries_encodeChars (params : Params) : formEntries params.encodeChars = params := by
  cases params with
  | nil => rfl
  | cons p params =>
    have hpieces : Text.pieces '&' (Params.encodeChars (p :: params)) =
        (p :: params).map formPair := by
      rw [encodeChars_cons, List.map_cons]
      refine Text.pieces_joined ?_
      rw [← List.map_cons, List.forall_mem_map]
      exact fun q _ => ampersand_not_mem_formPair q
    have hkept : ∀ piece ∈ (p :: params).map formPair, (!piece.isEmpty) = true := by
      rw [List.forall_mem_map]
      intro q _
      simp [formPair]
    rw [formEntries, hpieces, List.filter_eq_self.mpr hkept, List.map_map]
    exact (List.map_congr_left fun q _ => formEntry_formPair q).trans (List.map_id _)

theorem encode_injective : Function.Injective Params.encode := by
  intro params params' h
  have hchars : params.encodeChars = params'.encodeChars := String.ofList_injective h
  rw [← formEntries_encodeChars params, hchars, formEntries_encodeChars]

/-! ## Maps -/

namespace Params

/-- The names ascend, so each stands once. -/
def Ascends (params : Params) : Prop := params.Pairwise (·.1 < ·.1)

theorem mem_insert {params : Params} (h : params.Ascends) {name value : String}
    {p : String × String} :
    p ∈ params.insert name value ↔ p = (name, value) ∨ p ∈ params ∧ p.1 ≠ name := by
  induction params with
  | nil => simp [insert]
  | cons q params ih =>
    obtain ⟨k, v⟩ := q
    obtain ⟨hfirst, hparams⟩ := List.pairwise_cons.mp h
    rw [insert]
    split
    next heq =>
      subst heq
      have hlater : ∀ q ∈ params, q.1 ≠ name := fun q hq => (Std.ne_of_lt (hfirst q hq)).symm
      grind
    split
    next hne hlt =>
      have hlater : ∀ q ∈ params, q.1 ≠ name := fun q hq =>
        (Std.ne_of_lt (String.lt_trans hlt (hfirst q hq))).symm
      grind
    next hne hlt =>
      rw [List.mem_cons, ih hparams, List.mem_cons]
      grind

theorem Ascends.insert {params : Params} (h : params.Ascends) (name value : String) :
    (params.insert name value).Ascends := by
  induction params with
  | nil => exact List.pairwise_singleton _ _
  | cons q params ih =>
    obtain ⟨k, v⟩ := q
    obtain ⟨hfirst, hparams⟩ := List.pairwise_cons.mp h
    rw [Params.insert]
    split
    next heq =>
      subst heq
      exact List.pairwise_cons.mpr ⟨hfirst, hparams⟩
    split
    next hne hlt =>
      refine List.pairwise_cons.mpr ⟨List.forall_mem_cons.mpr ⟨hlt, fun q hq => ?_⟩, h⟩
      exact String.lt_trans hlt (hfirst q hq)
    next hne hlt =>
      refine List.pairwise_cons.mpr ⟨fun q hq => ?_, ih hparams⟩
      rcases (mem_insert hparams).mp hq with rfl | ⟨hq, -⟩
      · exact Std.lt_of_le_of_ne (String.not_lt.mp hlt) (Ne.symm hne)
      · exact hfirst q hq

theorem ofList_concat (pairs : List (String × String)) (name value : String) :
    ofList (pairs ++ [(name, value)]) = (ofList pairs).insert name value := by
  rw [ofList, List.foldl_append]
  rfl

theorem ofList_ascends (pairs : List (String × String)) : (ofList pairs).Ascends := by
  induction pairs using List.reverseRecOn with
  | nil => exact .nil
  | append_singleton pairs p ih =>
    obtain ⟨name, value⟩ := p
    rw [ofList_concat]
    exact ih.insert name value

/-- A map holds the last pair of each name. -/
theorem mem_ofList {pairs : List (String × String)} {p : String × String} :
    p ∈ ofList pairs ↔ pairs.reverse.find? (·.1 = p.1) = some p := by
  induction pairs using List.reverseRecOn with
  | nil => simp [ofList]
  | append_singleton pairs q ih =>
    obtain ⟨name, value⟩ := q
    rw [ofList_concat, mem_insert (ofList_ascends pairs), ih, List.reverse_concat, List.find?_cons]
    by_cases heq : name = p.1
    · simp [heq, eq_comm]
    · have hne : p ≠ (name, value) := fun h => heq (h ▸ rfl)
      simp [heq, hne, Ne.symm heq]

end Params

end ClusterOutput.Url
