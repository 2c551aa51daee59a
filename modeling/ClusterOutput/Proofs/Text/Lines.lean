/-
The lines of a text are those of its characters. No character but the newline has
a byte that ends a line, so the lines of the bytes of a text are the bytes of its
lines (`rawLines_encodeChars`).
-/
import ClusterOutput.Proofs.Text.Utf8
import ClusterOutput.Text.Lines

namespace ClusterOutput.Text

/-- The lines of a text, each with its end. The last may have none. -/
def linesOf : List Char → List (List Char)
  | [] => []
  | c :: cs =>
    if c = '\n' then [c] :: linesOf cs
    else
      match linesOf cs with
      | [] => [[c]]
      | line :: lines => (c :: line) :: lines

/-- Bytes behind which a line goes on. -/
theorem rawLines_append {bs : Bytes} (hbs : ∀ b ∈ bs, b ≠ 0x0a) (hne : bs ≠ []) (bytes : Bytes) :
    rawLines (bs ++ bytes) =
      match rawLines bytes with
      | [] => [bs]
      | line :: lines => (bs ++ line) :: lines := by
  induction bs with
  | nil => exact absurd rfl hne
  | cons b bs ih =>
    rw [List.forall_mem_cons] at hbs
    rw [List.cons_append, rawLines, if_neg hbs.1]
    by_cases hnil : bs = []
    · subst hnil
      rfl
    · rw [ih hbs.2 hnil]
      cases rawLines bytes <;> rfl

theorem newline_not_mem_encodeChar {c : Char} (hc : c ≠ '\n') :
    ∀ b ∈ Utf8.encodeChar c, b ≠ 0x0a := by
  rintro b hb rfl
  have hmem : Char.ofNat (0x0a : UInt8).toNat ∈ [c] :=
    Utf8.mem_of_mem_encodeChars (by decide)
      (List.mem_flatMap.mpr ⟨c, List.mem_singleton_self c, hb⟩)
  exact hc (List.mem_singleton.mp hmem).symm

theorem rawLines_encodeChars (cs : List Char) :
    rawLines (Utf8.encodeChars cs) = (linesOf cs).map Utf8.encodeChars := by
  induction cs with
  | nil => rfl
  | cons c cs ih =>
    have hcons : Utf8.encodeChars (c :: cs) = Utf8.encodeChar c ++ Utf8.encodeChars cs := rfl
    rw [hcons, linesOf]
    by_cases hc : c = '\n'
    · subst hc
      rw [if_pos rfl, List.map_cons, ← ih]
      rfl
    · rw [if_neg hc,
        rawLines_append (newline_not_mem_encodeChar hc) (Utf8.encodeChar_ne_nil c), ih]
      cases linesOf cs with
      | nil => simp [Utf8.encodeChars]
      | cons line lines => simp [Utf8.encodeChars]

/-! ## One line after another -/

theorem linesOf_line {cs : List Char} (h : '\n' ∉ cs) (rest : List Char) :
    linesOf (cs ++ '\n' :: rest) = (cs ++ ['\n']) :: linesOf rest := by
  induction cs with
  | nil => simp [linesOf]
  | cons c cs ih =>
    rw [List.mem_cons, not_or] at h
    rw [List.cons_append, linesOf, if_neg (Ne.symm h.1), ih h.2]
    rfl

theorem withoutNewline_line {cs : List Char} (h : '\r' ∉ cs) :
    withoutNewline (cs ++ ['\n']) = cs := by
  have hreverse : (cs ++ ['\n']).reverse = '\n' :: cs.reverse := List.reverse_append
  rw [withoutNewline, hreverse]
  split
  next rest heq =>
    have hmem : '\r' ∈ cs.reverse := by
      rw [(List.cons.inj heq).2]
      exact List.mem_cons_self
    exact absurd (List.mem_reverse.mp hmem) h
  next rest _ heq => rw [← (List.cons.inj heq).2, List.reverse_reverse]
  next hother => exact absurd rfl (hother cs.reverse)

end ClusterOutput.Text
