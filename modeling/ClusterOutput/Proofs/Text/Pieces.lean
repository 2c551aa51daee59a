/-
The pieces of a text between separators. No piece has a separator, and to put
separators between pieces and take the text apart again gives the pieces.
-/
import ClusterOutput.Text.Blank

namespace ClusterOutput.Text

variable {α : Type} [DecidableEq α] {sep : α} {cs piece : List α}

theorem pieces_ne_nil (sep : α) (cs : List α) : pieces sep cs ≠ [] := by
  cases cs with
  | nil => simp [pieces]
  | cons c cs =>
    rw [pieces]
    split
    · simp
    · split <;> simp

theorem pieces_cons_of_ne {c : α} (hc : c ≠ sep) (cs : List α) :
    ∃ piece rest, pieces sep cs = piece :: rest ∧ pieces sep (c :: cs) = (c :: piece) :: rest := by
  obtain ⟨piece, rest, h⟩ := List.exists_cons_of_ne_nil (pieces_ne_nil sep cs)
  exact ⟨piece, rest, h, by rw [pieces, if_neg hc, h]⟩

/-- A piece has no separator, and characters of the text only. -/
theorem mem_of_mem_pieces (h : piece ∈ pieces sep cs) : sep ∉ piece ∧ ∀ c ∈ piece, c ∈ cs := by
  induction cs generalizing piece with
  | nil =>
    obtain rfl := List.mem_singleton.mp h
    exact ⟨List.not_mem_nil, fun c hc => hc⟩
  | cons c cs ih =>
    by_cases hc : c = sep
    · rw [pieces, if_pos hc] at h
      rcases List.mem_cons.mp h with rfl | h
      · exact ⟨List.not_mem_nil, fun _ hd => nomatch hd⟩
      · exact ⟨(ih h).1, fun d hd => List.mem_cons_of_mem _ ((ih h).2 d hd)⟩
    · obtain ⟨first, rest, hcs, hall⟩ := pieces_cons_of_ne hc cs
      rw [hall] at h
      rcases List.mem_cons.mp h with rfl | h
      · obtain ⟨hsep, hmem⟩ := ih (hcs ▸ List.mem_cons_self)
        refine ⟨?_, fun d hd => ?_⟩
        · rw [List.mem_cons, not_or]
          exact ⟨Ne.symm hc, hsep⟩
        · exact (List.mem_cons.mp hd).elim (fun heq => heq ▸ List.mem_cons_self)
            fun hd => List.mem_cons_of_mem _ (hmem d hd)
      · obtain ⟨hsep, hmem⟩ := ih (hcs ▸ List.mem_cons_of_mem _ h)
        exact ⟨hsep, fun d hd => List.mem_cons_of_mem _ (hmem d hd)⟩

theorem pieces_single (h : sep ∉ piece) : pieces sep piece = [piece] := by
  induction piece with
  | nil => rfl
  | cons c piece ih =>
    rw [List.mem_cons, not_or] at h
    rw [pieces, if_neg (Ne.symm h.1), ih h.2]

theorem pieces_append (h : sep ∉ piece) (cs : List α) :
    pieces sep (piece ++ sep :: cs) = piece :: pieces sep cs := by
  induction piece with
  | nil => rw [List.nil_append, pieces, if_pos rfl]
  | cons c piece ih =>
    rw [List.mem_cons, not_or] at h
    rw [List.cons_append, pieces, if_neg (Ne.symm h.1), ih h.2]

/-- A separator between two texts stands between their pieces. -/
theorem pieces_between (sep : α) (cs ds : List α) :
    pieces sep (cs ++ sep :: ds) = pieces sep cs ++ pieces sep ds := by
  induction cs with
  | nil => simp [pieces]
  | cons c cs ih =>
    rw [List.cons_append]
    by_cases hc : c = sep
    · rw [pieces, if_pos hc, pieces, if_pos hc, ih, List.cons_append]
    · obtain ⟨piece, rest, hcs, hall⟩ := pieces_cons_of_ne hc cs
      rw [pieces, if_neg hc, ih, hcs, hall]
      rfl

/-- What is joined by separators is taken apart into what it was. -/
theorem pieces_joined {rest : List (List α)} (h : ∀ p ∈ piece :: rest, sep ∉ p) :
    pieces sep (piece ++ rest.flatMap (sep :: ·)) = piece :: rest := by
  induction rest generalizing piece with
  | nil =>
    rw [List.flatMap_nil, List.append_nil]
    exact pieces_single (h piece List.mem_cons_self)
  | cons next rest ih =>
    rw [List.forall_mem_cons] at h
    rw [List.flatMap_cons, List.cons_append, pieces_append h.1, ih h.2]

end ClusterOutput.Text
