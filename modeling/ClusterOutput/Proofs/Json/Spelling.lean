/-
Both ways of writing a value differ only in the blanks they put around its parts
(`Style`): the compact text is spelled without any (`write_eq_spell`), the indented one
with a line for each item and member (`writeIndented_eq_spell`).

That a value is read back from its text is proved of all styles at once; compact text has
no control characters besides (`write_printable`).
-/
import ClusterOutput.Json.Read
import ClusterOutput.Proofs.Json.Values
import ClusterOutput.Proofs.Json.Words

namespace ClusterOutput.Json

open Utf8 (encodeChar encodeChars)

/-! ## Styles -/

/-- The blanks around the parts of a value: before an item, a member or a closing bracket that
stand at a level, and behind a colon. -/
structure Style where
  line : Nat → List Char
  behindColon : List Char
  line_spacing : ∀ level, ∀ c ∈ line level, isSpacing c = true
  behindColon_spacing : ∀ c ∈ behindColon, isSpacing c = true

namespace Style

/-- No blanks. -/
def plain : Style where
  line _ := []
  behindColon := []
  line_spacing _ := List.forall_mem_nil _
  behindColon_spacing := List.forall_mem_nil _

/-- Lines of their own, indented by their level. -/
def indented : Style where
  line := newline
  behindColon := [' ']
  line_spacing level c hc := by
    rcases List.mem_cons.mp hc with rfl | hc
    · rfl
    · rw [List.eq_of_mem_replicate hc]
      rfl
  behindColon_spacing := by simp [isSpacing]

@[simp] theorem plain_line (level : Nat) : plain.line level = [] := rfl
@[simp] theorem plain_behindColon : plain.behindColon = [] := rfl
@[simp] theorem indented_line (level : Nat) : indented.line level = newline level := rfl
@[simp] theorem indented_behindColon : indented.behindColon = [' '] := rfl

mutual

/-- The text of a value that stands at a level. -/
def spell (style : Style) (level : Nat) : Json → List Char
  | .null => nullChars
  | .bool b => boolChars b
  | .int i => intChars i
  | .float x => x.text
  | .str s => writeString s
  | .arr items => '[' :: style.spellItems level true items
  | .obj members => '\x7b' :: style.spellMembers level true members

/-- The items from the first on, or from a later one, and the bracket. -/
def spellItems (style : Style) (level : Nat) (first : Bool) : List Json → List Char
  | [] => (if first then [] else style.line level) ++ [']']
  | v :: items =>
    (if first then [] else [',']) ++ style.line (level + 1) ++ style.spell (level + 1) v ++
      style.spellItems level false items

/-- The members from the first on, or from a later one, and the brace. -/
def spellMembers (style : Style) (level : Nat) (first : Bool) : List (String × Json) → List Char
  | [] => (if first then [] else style.line level) ++ ['\x7d']
  | (k, v) :: members =>
    (if first then [] else [',']) ++ style.line (level + 1) ++ writeString k ++
      ':' :: style.behindColon ++ style.spell (level + 1) v ++ style.spellMembers level false members

end

end Style

mutual

/-- Compact text has no blanks. -/
theorem write_eq_spell (level : Nat) : ∀ v : Json, v.write = Style.plain.spell level v
  | .null | .bool _ | .int _ | .float _ | .str _ => by simp [write, Style.spell]
  | .arr [] | .obj [] => by simp [write, Style.spell, Style.spellItems, Style.spellMembers]
  | .arr (v :: items) => by
    simp [write, Style.spell, Style.spellItems, write_eq_spell (level + 1) v,
      writeItems_eq_spell level items]
  | .obj ((k, v) :: members) => by
    simp [write, Style.spell, Style.spellMembers, write_eq_spell (level + 1) v,
      writeMembers_eq_spell level members]

theorem writeItems_eq_spell (level : Nat) :
    ∀ items, writeItems items = Style.plain.spellItems level false items
  | [] => by simp [writeItems, Style.spellItems]
  | v :: items => by
    simp [writeItems, Style.spellItems, write_eq_spell (level + 1) v,
      writeItems_eq_spell level items]

theorem writeMembers_eq_spell (level : Nat) :
    ∀ members, writeMembers members = Style.plain.spellMembers level false members
  | [] => by simp [writeMembers, Style.spellMembers]
  | (k, v) :: members => by
    simp [writeMembers, Style.spellMembers, write_eq_spell (level + 1) v,
      writeMembers_eq_spell level members]

end

mutual

/-- Indented text has a line for each item and member. -/
theorem writeIndented_eq_spell (level : Nat) :
    ∀ v : Json, v.writeIndented level = Style.indented.spell level v
  | .null | .bool _ | .int _ | .float _ | .str _ => by simp [writeIndented, Style.spell]
  | .arr [] | .obj [] => by simp [writeIndented, Style.spell, Style.spellItems, Style.spellMembers]
  | .arr (v :: items) => by
    simp [writeIndented, Style.spell, Style.spellItems,
      writeIndented_eq_spell (level + 1) v, writeIndentedItems_eq_spell level items]
  | .obj ((k, v) :: members) => by
    simp [writeIndented, Style.spell, Style.spellMembers,
      writeIndented_eq_spell (level + 1) v, writeIndentedMembers_eq_spell level members]

theorem writeIndentedItems_eq_spell (level : Nat) :
    ∀ items, writeIndentedItems level items = Style.indented.spellItems level false items
  | [] => by simp [writeIndentedItems, Style.spellItems]
  | v :: items => by
    simp [writeIndentedItems, Style.spellItems,
      writeIndented_eq_spell (level + 1) v, writeIndentedItems_eq_spell level items]

theorem writeIndentedMembers_eq_spell (level : Nat) :
    ∀ members, writeIndentedMembers level members = Style.indented.spellMembers level false members
  | [] => by simp [writeIndentedMembers, Style.spellMembers]
  | (k, v) :: members => by
    simp [writeIndentedMembers, Style.spellMembers,
      writeIndented_eq_spell (level + 1) v, writeIndentedMembers_eq_spell level members]

end

/-! ## The characters of a text -/

/-- No control character. -/
def isPrintable (c : Char) : Bool := 0x20 ≤ c.toNat

theorem escapeChar_printable (c : Char) : ∀ d ∈ escapeChar c, isPrintable d = true := by
  have hhex : ∀ n < 16, isPrintable n.digitChar = true := by decide
  unfold escapeChar
  split
  next h => rcases h with rfl | rfl <;> simp [isPrintable]
  iterate 5
    split
    · simp [isPrintable]
  split
  next hcontrol =>
    simp only [List.forall_mem_cons]
    exact ⟨rfl, rfl, rfl, rfl, hhex _ (by omega), hhex _ (by omega), List.forall_mem_nil _⟩
  next hcontrol => simpa [isPrintable] using hcontrol

theorem writeString_printable (s : String) : ∀ c ∈ writeString s, isPrintable c = true := by
  intro c hc
  simp only [writeString, List.mem_append, List.mem_cons, List.mem_flatMap, List.not_mem_nil,
    or_false] at hc
  rcases hc with (rfl | ⟨d, -, hc⟩) | rfl
  · rfl
  · exact escapeChar_printable d c hc
  · rfl

theorem digits_printable (n : Nat) : ∀ c ∈ Text.digits n, isPrintable c = true := by
  intro c hc
  have hdigit := Nat.isDigit_of_mem_toDigits (by decide) (by decide) hc
  simp only [Char.isDigit, Bool.and_eq_true, decide_eq_true_eq, ge_iff_le,
    UInt32.le_iff_toNat_le] at hdigit
  exact decide_eq_true (Nat.le_trans (by decide) hdigit.1)

theorem intChars_printable (i : Int) : ∀ c ∈ intChars i, isPrintable c = true := by
  cases i with
  | ofNat n => exact digits_printable n
  | negSucc n => exact List.forall_mem_cons.mpr ⟨rfl, digits_printable (n + 1)⟩

mutual

theorem spell_printable (level : Nat) : ∀ v : Json, v.isFloatless = true →
    ∀ c ∈ Style.plain.spell level v, isPrintable c = true
  | .null, _ => by simp [Style.spell, nullChars, isPrintable]
  | .bool b, _ => by cases b <;> simp [Style.spell, boolChars, isPrintable]
  | .int i, _ => intChars_printable i
  | .str s, _ => writeString_printable s
  | .arr items, h => List.forall_mem_cons.mpr ⟨rfl, spellItems_printable level true items h⟩
  | .obj members, h => List.forall_mem_cons.mpr ⟨rfl, spellMembers_printable level true members h⟩

theorem spellItems_printable (level : Nat) (first : Bool) : ∀ items, itemsFloatless items = true →
    ∀ c ∈ Style.plain.spellItems level first items, isPrintable c = true
  | [], _ => by cases first <;> simp [Style.spellItems, isPrintable]
  | v :: items, h => by
    obtain ⟨hv, hitems⟩ := Bool.and_eq_true_iff.mp h
    simp only [Style.spellItems, List.forall_mem_append]
    refine ⟨⟨⟨?_, List.forall_mem_nil _⟩, spell_printable (level + 1) v hv⟩,
      spellItems_printable level false items hitems⟩
    cases first <;> simp [isPrintable]

theorem spellMembers_printable (level : Nat) (first : Bool) : ∀ members,
    membersFloatless members = true →
    ∀ c ∈ Style.plain.spellMembers level first members, isPrintable c = true
  | [], _ => by cases first <;> simp [Style.spellMembers, isPrintable]
  | (k, v) :: members, h => by
    obtain ⟨hv, hmembers⟩ := Bool.and_eq_true_iff.mp h
    simp only [Style.spellMembers, List.forall_mem_append, List.forall_mem_cons]
    refine ⟨⟨⟨⟨⟨?_, List.forall_mem_nil _⟩, writeString_printable k⟩, rfl, List.forall_mem_nil _⟩,
      spell_printable (level + 1) v hv⟩, spellMembers_printable level false members hmembers⟩
    cases first <;> simp [isPrintable]

end

/-- Compact text has no control characters, whatever the strings within it. -/
theorem write_printable {v : Json} (hv : v.isFloatless = true) :
    ∀ c ∈ v.write, isPrintable c = true := by
  rw [write_eq_spell 0]
  exact spell_printable 0 v hv

end ClusterOutput.Json
