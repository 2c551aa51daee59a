/-
Readers of a wanted kind and readers of records take the values that are written for
them (`Takes`). A record written as an object is taken member by member, each of which
fills in its field (`Layout.takes`), and a whole text is what its only value is taken for
(`decode_takes`).
-/
import ClusterOutput.Proofs.Json.Rereading

namespace ClusterOutput.Json

open Utf8 (encodeChars)

variable {α β σ : Type} {nesting : Nat} {v : Json} {a : α}

/-! ## Values of a wanted kind -/

theorem readBool_takes (nesting : Nat) (b : Bool) : Takes (readBool nesting) (.bool b) b := by
  intro style level bytes rest hskip _
  rw [Style.spell] at hskip
  unfold readBool
  rw [hskip]
  cases b with
  | true => exact bind_eq_ok.mpr ⟨_, readIdent_append trueTail rest, rfl⟩
  | false => exact bind_eq_ok.mpr ⟨_, readIdent_append falseTail rest, rfl⟩

theorem readText_takes (nesting : Nat) (s : String) : Takes (readText nesting) (.str s) s := by
  intro style level bytes rest hskip _
  rw [Style.spell, encodeChars_writeString] at hskip
  unfold readText
  rw [hskip]
  exact readString_writeString s rest

/-- A whole number is taken for what the reader makes of it. -/
theorem readNumber_takes {expected : String} {take : Numeral → Except Cause α} {i : Int}
    (hlow : -0x8000000000000000 ≤ i) (hhigh : i < Text.wordLimit) (htake : take (.int i) = .ok a) :
    Takes (readNumber expected take nesting) (.int i) a := by
  intro style level bytes rest hskip hrest
  rw [Style.spell] at hskip
  unfold readNumber
  rw [hskip]
  rcases intChars_read hlow hhigh hrest with ⟨bytes', heq, hread⟩ | ⟨b, bytes', hb, heq, hread⟩
  · rw [heq]
    refine bind_eq_ok.mpr ⟨_, hread, ?_⟩
    simp only [htake]
  · simp only [heq, ne_of_isDigit hb (show isDigit 0x2d = false from rfl), hb, if_false, if_true]
    refine bind_eq_ok.mpr ⟨_, hread, ?_⟩
    simp only [htake]

theorem readUnsigned_takes (expected : String) (nesting : Nat) {n : Nat} (h : n < Text.wordLimit) :
    Takes (readUnsigned expected nesting) (.int n) n :=
  readNumber_takes (by omega) (Int.ofNat_lt.mpr h) rfl

theorem readSigned_takes (nesting : Nat) {i : Int} (hlow : -0x8000000000000000 ≤ i)
    (hhigh : i < 0x8000000000000000) : Takes (readSigned nesting) (.int i) i := by
  have hlimit : (0x8000000000000000 : Int) < Text.wordLimit := by decide
  exact readNumber_takes hlow (Int.lt_trans hhigh hlimit) (if_pos hhigh)

theorem readOptional_takes_none (value : Reader α) (nesting : Nat) :
    Takes (readOptional value nesting) .null none := by
  intro style level bytes rest hskip _
  rw [Style.spell] at hskip
  unfold readOptional
  rw [hskip]
  exact bind_eq_ok.mpr ⟨_, readIdent_append nullTail rest, rfl⟩

theorem readOptional_takes_some {value : Reader α} (h : Takes (value nesting) v a)
    (hv : v.isFloatless = true) (hne : v ≠ .null) :
    Takes (readOptional value nesting) v (some a) := by
  intro style level bytes rest hskip hrest
  have hread := h style level (skipSpace_spell hv rest) hrest
  obtain ⟨b, bytes', heq, -, -, hb⟩ := spell_head style level hv
  rw [heq, List.cons_append] at hskip hread
  unfold readOptional
  rw [hskip]
  simp only [hb hne, if_false]
  exact bind_eq_ok.mpr ⟨_, hread, rfl⟩

theorem readList_takes {item : Reader α} {toJson : α → Json} {as : List α}
    (hitem : ∀ a ∈ as, Takes (item nesting) (toJson a) a)
    (hfloatless : ∀ a ∈ as, (toJson a).isFloatless = true) :
    Takes (readList item (nesting + 1)) (.arr (as.map toJson)) as := by
  intro style level bytes rest hskip _
  obtain ⟨bytes', hskip, hread⟩ := bracketed_takes hitem hfloatless hskip
  unfold readList
  rw [hskip]
  exact hread

/-- Members are taken in any order. -/
theorem readMap_takes {members sorted : List (String × Json)}
    (hfits : ∀ m ∈ sorted, Fits nesting m.2) (hsorted : Sorted sorted)
    (hfloatless : ∀ m ∈ sorted, m.2.isFloatless = true) (hperm : members.Perm sorted) :
    Takes (readMap (nesting + 1)) (.obj members) sorted := by
  intro style level bytes rest hskip _
  have hmembers : ∀ m ∈ members, Takes (readValue nesting) m.2 m.2 := fun m hm =>
    readValue_takes (hfits m (hperm.mem_iff.mp hm)) (hfloatless m (hperm.mem_iff.mp hm))
  have hinserted : insertMembers [] members = sorted := sortMembers_eq hsorted hperm
  obtain ⟨bytes', hskip, hread⟩ := braced_takes (memberInto_takes hmembers [])
    (fun m hm => hfloatless m (hperm.mem_iff.mp hm)) hskip
  unfold readMap
  rw [hskip, ← hinserted]
  exact hread

/-! ## Records -/

variable {layout : Layout σ} {draft : σ}

/-- A member fills in its field, if that was not done before. -/
theorem Layout.takes {name : String} {required : Bool} {read : Reader α} {get : σ → Option α}
    {put : α → σ → σ} (hfield : layout.fields.find? (·.name == name) =
      some (.of name required read get put))
    (hset : get draft = none) (h : Takes (read nesting) v a) :
    TakesMember (layout.member nesting) draft (name, v) (put a draft) := by
  intro style level bytes bytes' rest hcolon hskip hrest
  have hfree : (Field.of name required read get put).isSet draft = false := by
    simp [Field.of, hset]
  have hfill : (Field.of name required read get put).read nesting bytes' = .ok (put a, rest) :=
    bind_eq_ok.mpr ⟨_, h style level hskip hrest, rfl⟩
  unfold Layout.member
  simp only [hfield, hfree, Bool.false_eq_true, if_false]
  exact bind_eq_ok.mpr ⟨_, hcolon, bind_eq_ok.mpr ⟨_, hfill, rfl⟩⟩

/-- A record is taken for the draft that its members fill in, if that lacks nothing. -/
theorem readRecord_takes {members : List (String × Json)}
    (hmembers : TakesMembers (layout.member nesting) layout.blank members draft)
    (hmissing : layout.missing? draft = none)
    (hfloatless : ∀ m ∈ members, m.2.isFloatless = true) :
    Takes (readRecord layout (nesting + 1)) (.obj members) draft := by
  intro style level bytes rest hskip _
  obtain ⟨bytes', hskip, hread⟩ := braced_takes hmembers hfloatless hskip
  unfold readRecord
  rw [hskip]
  change settled .curly (_ >>= _) = settled .curly (.ok (draft, rest))
  refine congrArg _ (bind_eq_ok.mpr ⟨_, hread, ?_⟩)
  simp only [hmissing]

theorem readAs_takes {complete : σ → α} (h : Takes (readRecord layout nesting) v draft) :
    Takes (readAs layout complete nesting) v (complete draft) := by
  intro style level bytes rest hskip hrest
  exact bind_eq_ok.mpr ⟨_, h style level hskip hrest, rfl⟩

/-! ## Whole texts -/

/-- **The text of a value decodes to what the value is taken for.** -/
theorem decode_takes {reader : Reader α} (h : Takes (reader nestingLimit) v a)
    (hv : v.isFloatless = true) (style : Style) :
    decode reader (encodeChars (style.spell 0 v)) = .ok a := by
  have hskip : skipSpace (encodeChars (style.spell 0 v) ++ []) =
      encodeChars (style.spell 0 v) ++ [] := skipSpace_spell hv []
  have hread := h style 0 hskip .nil
  rw [List.append_nil] at hread
  unfold decode
  rw [hread]
  rfl

theorem encode_compact (v : Json) : Utf8.encode v.compact = encodeChars v.write := by
  rw [compact, Utf8.encode, String.toList_ofList]

theorem decode_compact {reader : Reader α} (h : Takes (reader nestingLimit) v a)
    (hv : v.isFloatless = true) : decode reader (Utf8.encode v.compact) = .ok a := by
  rw [encode_compact, write_eq_spell 0]
  exact decode_takes h hv .plain

theorem decode_pretty {reader : Reader α} (h : Takes (reader nestingLimit) v a)
    (hv : v.isFloatless = true) : decode reader (Utf8.encode v.pretty) = .ok a := by
  rw [pretty, Utf8.encode, String.toList_ofList, writeIndented_eq_spell 0]
  exact decode_takes h hv .indented

/-- A value without floats is parsed from its compact text. -/
theorem parse_write (hfits : Fits nestingLimit v) (hv : v.isFloatless = true) :
    parse (encodeChars v.write) = .ok v := by
  rw [← encode_compact]
  exact decode_compact (readValue_takes hfits hv) hv

end ClusterOutput.Json
