/-
What was written is read again: a reader takes a value for what it stands for, in
whatever style the text of the value was written (`Takes`). Any value without floats that
fits is taken for itself (`readValue_takes`).

A sequence is taken item by item, a map and a record member by member
(`TakesMembers`), each of them behind the blanks that its style puts there. Floats
are left out: their shortest text may be read as another float.
-/
import ClusterOutput.Json.Record
import ClusterOutput.Proofs.Json.Spelling
import ClusterOutput.Proofs.Result
import ClusterOutput.Text.Blank

namespace ClusterOutput.Json

open Utf8 (encodeChar encodeChars encodeChars_append)

variable {α σ : Type} {style : Style} {level nesting : Nat} {first : Bool} {v : Json}
  {bytes rest : Bytes}

/-! ## How texts begin -/

/-- The text of a whole number is a minus sign and digits, or digits. -/
theorem intChars_read {i : Int} (hlow : -0x8000000000000000 ≤ i) (hhigh : i < Text.wordLimit)
    (hrest : EndsNumber rest) :
    (∃ bytes, encodeChars (intChars i) ++ rest = 0x2d :: bytes ∧
      readNumeral true bytes = .ok (.int i, rest)) ∨
    ∃ b bytes, isDigit b = true ∧ encodeChars (intChars i) ++ rest = b :: bytes ∧
      readNumeral false (b :: bytes) = .ok (.int i, rest) := by
  cases i with
  | ofNat n =>
    have hread := readNumeral_digits (Int.ofNat_lt.mp hhigh) hrest false
    obtain ⟨d, hd, bytes, heq⟩ := encodeChars_digits n
    refine .inr ⟨digitByte d, bytes ++ rest, isDigit_digitByte d hd, ?_, ?_⟩
    · rw [intChars, heq, List.cons_append]
    · rw [← List.cons_append, ← heq, hread]
      rfl
  | negSucc n =>
    have hn : n + 1 ≤ 0x8000000000000000 := by omega
    have hlimit : 0x8000000000000000 < Text.wordLimit := by decide
    have hread := readNumeral_digits (Nat.lt_of_le_of_lt hn hlimit) hrest true
    refine .inl ⟨encodeChars (Text.digits (n + 1)) ++ rest, rfl, ?_⟩
    rw [hread, wholeNumeral, if_pos rfl, if_pos ⟨Nat.succ_pos n, hn⟩]
    rfl

theorem ne_of_isDigit {b c : UInt8} (hb : isDigit b = true) (hc : isDigit c = false) : b ≠ c := by
  rintro rfl
  rw [hb] at hc
  cases hc

/-- A value may begin with the character: it is ASCII, no white space and no closing bracket. -/
def isValueStart (c : Char) : Bool := c.toNat < 0x80 && !Text.isBlank c && c != ']'

/-- No value begins otherwise, and only `null` like the name of it. -/
theorem spell_starts (style : Style) (level : Nat) (hv : v.isFloatless = true) :
    ∃ c cs, style.spell level v = c :: cs ∧ isValueStart c = true ∧ (v ≠ .null → c ≠ 'n') := by
  have hdigit : ∀ d < 10, isValueStart d.digitChar = true ∧ d.digitChar ≠ 'n' := by decide
  rw [Style.spell.eq_def]
  cases v with
  | null => exact ⟨'n', _, rfl, rfl, absurd rfl⟩
  | bool b =>
    cases b with
    | true => exact ⟨'t', _, rfl, rfl, fun _ => by decide⟩
    | false => exact ⟨'f', _, rfl, rfl, fun _ => by decide⟩
  | int i =>
    cases i with
    | ofNat n =>
      obtain ⟨d, hd, cs, heq⟩ := digits_head n
      exact ⟨d.digitChar, cs, heq, (hdigit d hd).1, fun _ => (hdigit d hd).2⟩
    | negSucc n => exact ⟨'-', _, rfl, rfl, fun _ => by decide⟩
  | float x => cases hv
  | str s => exact ⟨'"', _, rfl, rfl, fun _ => by decide⟩
  | arr items => exact ⟨'[', _, rfl, rfl, fun _ => by decide⟩
  | obj members => exact ⟨'\x7b', _, rfl, rfl, fun _ => by decide⟩

theorem isValueStart_byte : ∀ n < 0x80, isValueStart (Char.ofNat n) = true →
    isSpaceByte n.toUInt8 = false ∧ n.toUInt8 ≠ closeSquare ∧
      (Char.ofNat n ≠ 'n' → n.toUInt8 ≠ 0x6e) := by
  decide +kernel

/-- The byte that the text of a value begins with. -/
theorem spell_head (style : Style) (level : Nat) (hv : v.isFloatless = true) :
    ∃ b bytes, encodeChars (style.spell level v) = b :: bytes ∧ isSpaceByte b = false ∧
      b ≠ closeSquare ∧ (v ≠ .null → b ≠ 0x6e) := by
  obtain ⟨c, cs, heq, hc, hnull⟩ := spell_starts style level hv
  have hascii : c.toNat < 0x80 := by
    simp only [isValueStart, Bool.and_eq_true, decide_eq_true_eq] at hc
    exact hc.1.1
  have hbyte := isValueStart_byte c.toNat hascii
  rw [Char.ofNat_toNat] at hbyte
  obtain ⟨hspace, hclose, hname⟩ := hbyte hc
  refine ⟨c.toNat.toUInt8, encodeChars cs, ?_, hspace, hclose, fun hne => hname (hnull hne)⟩
  rw [heq, encodeChars, List.flatMap_cons, Utf8.encodeChar_ascii hascii]
  rfl

theorem skipSpace_spell (hv : v.isFloatless = true) (bytes : Bytes) :
    skipSpace (encodeChars (style.spell level v) ++ bytes) =
      encodeChars (style.spell level v) ++ bytes := by
  obtain ⟨b, bytes', heq, hspace, -⟩ := spell_head style level hv
  rw [heq, List.cons_append, skipSpace_cons hspace]

theorem length_spell_pos (style : Style) (level : Nat) (hv : v.isFloatless = true) :
    0 < (encodeChars (style.spell level v)).length := by
  obtain ⟨b, bytes, heq, -⟩ := spell_head style level hv
  rw [heq]
  exact Nat.succ_pos _

theorem EndsNumber.spacing {cs : List Char} (h : ∀ c ∈ cs, isSpacing c = true)
    (hbytes : EndsNumber bytes) : EndsNumber (encodeChars cs ++ bytes) := by
  cases cs with
  | nil => exact hbytes
  | cons c cs =>
    have hc : c = ' ' ∨ c = '\n' := by simpa [isSpacing] using h c List.mem_cons_self
    rcases hc with rfl | rfl
    · exact .cons (by decide) _
    · exact .cons (by decide) _

/-- A reader takes the text of the value for `a`, behind white space and in any style. -/
def Takes (reader : Bytes → Except Fault (α × Bytes)) (v : Json) (a : α) : Prop :=
  ∀ (style : Style) (level : Nat) {bytes rest : Bytes},
    skipSpace bytes = encodeChars (style.spell level v) ++ rest → EndsNumber rest →
    reader bytes = .ok (a, rest)

/-! ## Sequences -/

theorem encodeChars_arr (items : List Json) (rest : Bytes) :
    encodeChars (style.spell level (.arr items)) ++ rest =
      openSquare :: (encodeChars (style.spellItems level true items) ++ rest) := by
  rw [Style.spell]
  rfl

/-- The closing bracket has a line of its own where there is a part before it. -/
theorem skipSpace_closing (style : Style) (level : Nat) (first : Bool) (cs : List Char) :
    skipSpace (encodeChars ((if first then [] else style.line level) ++ cs) ++ rest) =
      skipSpace (encodeChars cs ++ rest) := by
  rw [encodeChars_append, List.append_assoc]
  cases first with
  | true => rfl
  | false => exact skipSpace_spacing (style.line_spacing level) _

theorem nextItem_close :
    nextItem first (encodeChars (style.spellItems level first []) ++ rest) = .ok (.close rest) := by
  rw [nextItem, Style.spellItems, skipSpace_closing]
  exact if_pos rfl

/-- Before an item stand a comma, unless it is the first, and blanks. -/
theorem nextItem_item (hv : v.isFloatless = true) (items : List Json) :
    nextItem first (encodeChars (style.spellItems level first (v :: items)) ++ rest) =
      .ok (.item (encodeChars (style.spell (level + 1) v) ++
        (encodeChars (style.spellItems level false items) ++ rest))) := by
  have hbytes : encodeChars (style.spellItems level first (v :: items)) ++ rest =
      encodeChars (if first then [] else [',']) ++ (encodeChars (style.line (level + 1)) ++
        (encodeChars (style.spell (level + 1) v) ++
          (encodeChars (style.spellItems level false items) ++ rest))) := by
    simp only [Style.spellItems, encodeChars_append, List.append_assoc]
  have hitem : ∀ bytes, skipSpace (encodeChars (style.line (level + 1)) ++
      (encodeChars (style.spell (level + 1) v) ++ bytes)) =
      encodeChars (style.spell (level + 1) v) ++ bytes := by
    intro bytes
    rw [skipSpace_spacing (style.line_spacing _), skipSpace_spell hv]
  -- no value begins with a closing bracket, so none is seen here
  obtain ⟨b, bytes, heq, -, hclose, -⟩ := spell_head style (level + 1) hv
  rw [hbytes]
  simp only [heq, List.cons_append] at hitem ⊢
  cases first with
  | true =>
    show nextItem true (encodeChars (style.line (level + 1)) ++ _) = _
    rw [nextItem, hitem]
    simp only [hclose, if_false, if_true]
  | false =>
    show nextItem false (commaByte :: (encodeChars (style.line (level + 1)) ++ _)) = _
    rw [nextItem, skipSpace_cons (by decide)]
    simp only [show commaByte ≠ closeSquare by decide, Bool.false_eq_true, if_false, if_true, hitem,
      hclose]

theorem spellItems_ends (style : Style) (level : Nat) (items : List Json) (rest : Bytes) :
    EndsNumber (encodeChars (style.spellItems level false items) ++ rest) := by
  rw [Style.spellItems.eq_def]
  cases items with
  | nil =>
    simp only [Bool.false_eq_true, if_false, encodeChars_append, List.append_assoc]
    exact .spacing (style.line_spacing level) (.cons (by decide) _)
  | cons v items => exact .cons (b := commaByte) (by decide) _

/-- Each item has a byte at least. -/
theorem length_lt_spellItems (first : Bool) {items : List Json}
    (h : ∀ v ∈ items, v.isFloatless = true) :
    items.length < (encodeChars (style.spellItems level first items)).length := by
  induction items generalizing first with
  | nil =>
    rw [Style.spellItems, encodeChars_append, List.length_append]
    exact Nat.lt_add_left _ (by decide)
  | cons v items ih =>
    rw [List.forall_mem_cons] at h
    have hv := length_spell_pos style (level + 1) h.1
    have hitems := ih false h.2
    simp only [Style.spellItems, encodeChars_append, List.length_append, List.length_cons]
    omega

theorem readItems_takes {item : Bytes → Except Fault (α × Bytes)} {toJson : α → Json} {as : List α}
    (hitem : ∀ a ∈ as, Takes item (toJson a) a)
    (hfloatless : ∀ a ∈ as, (toJson a).isFloatless = true) (first : Bool) {turns : Bytes}
    (hturns : as.length < turns.length) :
    readItems item turns first (encodeChars (style.spellItems level first (as.map toJson)) ++ rest) =
      .ok (as, rest) := by
  -- a turn is spent on each item, and one on the bracket
  induction as generalizing turns first with
  | nil =>
    obtain ⟨b, turns, rfl⟩ := List.exists_cons_of_length_pos hturns
    rw [readItems, List.map_nil, nextItem_close]
    rfl
  | cons a as ih =>
    obtain ⟨b, turns, rfl⟩ := List.exists_cons_of_length_pos (Nat.zero_lt_of_lt hturns)
    rw [List.forall_mem_cons] at hitem hfloatless
    have htaken := hitem.1 style (level + 1) (skipSpace_spell hfloatless.1 _)
      (spellItems_ends style level (as.map toJson) rest)
    have hmore := ih hitem.2 hfloatless.2 false (Nat.lt_of_succ_lt_succ hturns)
    rw [readItems, List.map_cons, nextItem_item hfloatless.1]
    simp only [bind, Except.bind, htaken, hmore]

theorem bracketed_takes {item : Bytes → Except Fault (α × Bytes)} {toJson : α → Json} {as : List α}
    (hitem : ∀ a ∈ as, Takes item (toJson a) a)
    (hfloatless : ∀ a ∈ as, (toJson a).isFloatless = true)
    (h : skipSpace bytes = encodeChars (style.spell level (.arr (as.map toJson))) ++ rest) :
    ∃ bytes', skipSpace bytes = openSquare :: bytes' ∧
      readItems item bytes' true bytes' = .ok (as, rest) := by
  rw [encodeChars_arr] at h
  have hlength : as.length <
      (encodeChars (style.spellItems level true (as.map toJson)) ++ rest).length := by
    rw [List.length_append, ← List.length_map toJson]
    exact Nat.lt_add_right _ (length_lt_spellItems true (List.forall_mem_map.mpr hfloatless))
  exact ⟨_, h, readItems_takes hitem hfloatless true hlength⟩

/-! ## Maps -/

/-- The reader of a member takes it in, behind its name. -/
def TakesMember (member : σ → String → Bytes → Except Fault (σ × Bytes)) (state : σ)
    (m : String × Json) (state' : σ) : Prop :=
  ∀ (style : Style) (level : Nat) {bytes bytes' rest : Bytes}, readColon bytes = .ok bytes' →
    skipSpace bytes' = encodeChars (style.spell level m.2) ++ rest → EndsNumber rest →
    member state m.1 bytes = .ok (state', rest)

/-- It takes in members, one after another. -/
inductive TakesMembers (member : σ → String → Bytes → Except Fault (σ × Bytes)) :
    σ → List (String × Json) → σ → Prop
  | nil (state : σ) : TakesMembers member state [] state
  | cons {state state' state'' : σ} {m : String × Json} {members : List (String × Json)}
    (hm : TakesMember member state m state') (hmembers : TakesMembers member state' members state'') :
    TakesMembers member state (m :: members) state''

theorem TakesMembers.append {member : σ → String → Bytes → Except Fault (σ × Bytes)}
    {state state' state'' : σ} {members members' : List (String × Json)}
    (h : TakesMembers member state members state')
    (h' : TakesMembers member state' members' state'') :
    TakesMembers member state (members ++ members') state'' := by
  induction h with
  | nil => exact h'
  | cons hm _ ih => exact .cons hm (ih h')

theorem encodeChars_obj (members : List (String × Json)) (rest : Bytes) :
    encodeChars (style.spell level (.obj members)) ++ rest =
      openCurly :: (encodeChars (style.spellMembers level true members) ++ rest) := by
  rw [Style.spell]
  rfl

theorem nextName_close :
    nextName first (encodeChars (style.spellMembers level first []) ++ rest) =
      .ok (.close rest) := by
  rw [nextName, Style.spellMembers, skipSpace_closing]
  exact if_pos rfl

/-- The bytes of a member behind the opening quote of its name, and all that follows. -/
def behindQuote (style : Style) (level : Nat) (k : String) (v : Json)
    (members : List (String × Json)) (rest : Bytes) : Bytes :=
  encodeChars (k.toList.flatMap escapeChar) ++ quoteByte :: colonByte ::
    (encodeChars style.behindColon ++ (encodeChars (style.spell (level + 1) v) ++
      (encodeChars (style.spellMembers level false members) ++ rest)))

/-- Before a name stand a comma, unless it is the first, and blanks. -/
theorem nextName_name (k : String) (v : Json) (members : List (String × Json)) :
    nextName first (encodeChars (style.spellMembers level first ((k, v) :: members)) ++ rest) =
      .ok (.name (behindQuote style level k v members rest)) := by
  have hname : skipSpace (encodeChars (style.line (level + 1)) ++
      quoteByte :: behindQuote style level k v members rest) =
      quoteByte :: behindQuote style level k v members rest := by
    rw [skipSpace_spacing (style.line_spacing _), skipSpace_cons (by decide)]
  have hbytes : encodeChars (style.spellMembers level first ((k, v) :: members)) ++ rest =
      encodeChars (if first then [] else [',']) ++ (encodeChars (style.line (level + 1)) ++
        quoteByte :: behindQuote style level k v members rest) := by
    have hcolon : ∀ cs, encodeChars (':' :: cs) = colonByte :: encodeChars cs := fun _ => rfl
    simp only [Style.spellMembers, encodeChars_append, List.append_assoc, encodeChars_writeString,
      behindQuote, hcolon, List.cons_append]
  rw [hbytes]
  cases first with
  | true =>
    show nextName true (encodeChars (style.line (level + 1)) ++ _) = _
    rw [nextName, hname]
    rfl
  | false =>
    show nextName false (commaByte :: (encodeChars (style.line (level + 1)) ++ _)) = _
    rw [nextName, skipSpace_cons (by decide)]
    simp only [show commaByte ≠ closeCurly by decide, Bool.false_eq_true, if_false, if_true, hname]

theorem spellMembers_ends (style : Style) (level : Nat) (members : List (String × Json))
    (rest : Bytes) :
    EndsNumber (encodeChars (style.spellMembers level false members) ++ rest) := by
  rw [Style.spellMembers.eq_def]
  cases members with
  | nil =>
    simp only [Bool.false_eq_true, if_false, encodeChars_append, List.append_assoc]
    exact .spacing (style.line_spacing level) (.cons (by decide) _)
  | cons m members => exact .cons (b := commaByte) (by decide) _

/-- Each member has a byte at least. -/
theorem length_lt_spellMembers (first : Bool) (members : List (String × Json)) :
    members.length < (encodeChars (style.spellMembers level first members)).length := by
  induction members generalizing first with
  | nil =>
    rw [Style.spellMembers, encodeChars_append, List.length_append]
    exact Nat.lt_add_left _ (by decide)
  | cons m members ih =>
    have hname : 0 < (encodeChars (writeString m.1)).length := by
      have heq := encodeChars_writeString m.1 []
      rw [List.append_nil] at heq
      rw [heq]
      exact Nat.succ_pos _
    have hmembers := ih false
    simp only [Style.spellMembers, encodeChars_append, List.length_append, List.length_cons]
    omega

theorem readMembers_takes {member : σ → String → Bytes → Except Fault (σ × Bytes)}
    {state state' : σ} {members : List (String × Json)}
    (h : TakesMembers member state members state')
    (hfloatless : ∀ m ∈ members, m.2.isFloatless = true) (first : Bool) {turns : Bytes}
    (hturns : members.length < turns.length) :
    readMembers member turns first state
      (encodeChars (style.spellMembers level first members) ++ rest) = .ok (state', rest) := by
  induction h generalizing turns first with
  | nil state =>
    obtain ⟨b, turns, rfl⟩ := List.exists_cons_of_length_pos hturns
    rw [readMembers, nextName_close]
    rfl
  | @cons state state₁ state' m members hm _ ih =>
    obtain ⟨b, turns, rfl⟩ := List.exists_cons_of_length_pos (Nat.zero_lt_of_lt hturns)
    obtain ⟨k, v⟩ := m
    rw [List.forall_mem_cons] at hfloatless
    have hcolon : ∀ bytes, readColon (colonByte :: bytes) = .ok bytes := by
      intro bytes
      rw [readColon, skipSpace_cons (by decide)]
      exact if_pos rfl
    have hvalue : skipSpace (encodeChars style.behindColon ++
        (encodeChars (style.spell (level + 1) v) ++
          (encodeChars (style.spellMembers level false members) ++ rest))) =
        encodeChars (style.spell (level + 1) v) ++
          (encodeChars (style.spellMembers level false members) ++ rest) := by
      rw [skipSpace_spacing style.behindColon_spacing, skipSpace_spell hfloatless.1]
    have htaken := hm style (level + 1) (hcolon _) hvalue (spellMembers_ends style level members rest)
    have hmore := ih hfloatless.2 false (Nat.lt_of_succ_lt_succ hturns)
    rw [readMembers, nextName_name]
    simp only [bind, Except.bind, behindQuote, readString_writeString, htaken, hmore]

theorem braced_takes {member : σ → String → Bytes → Except Fault (σ × Bytes)}
    {state state' : σ} {members : List (String × Json)}
    (hmembers : TakesMembers member state members state')
    (hfloatless : ∀ m ∈ members, m.2.isFloatless = true)
    (h : skipSpace bytes = encodeChars (style.spell level (.obj members)) ++ rest) :
    ∃ bytes', skipSpace bytes = openCurly :: bytes' ∧
      readMembers member bytes' true state bytes' = .ok (state', rest) := by
  rw [encodeChars_obj] at h
  have hlength : members.length <
      (encodeChars (style.spellMembers level true members) ++ rest).length := by
    rw [List.length_append]
    exact Nat.lt_add_right _ (length_lt_spellMembers true members)
  exact ⟨_, h, readMembers_takes hmembers hfloatless true hlength⟩

/-- Members of any names are put in their places. -/
theorem memberInto_takes {value : Bytes → Except Fault (Json × Bytes)}
    {members : List (String × Json)} (h : ∀ m ∈ members, Takes value m.2 m.2)
    (sorted : List (String × Json)) :
    TakesMembers (memberInto value) sorted members (insertMembers sorted members) := by
  induction members generalizing sorted with
  | nil => exact .nil sorted
  | cons m members ih =>
    rw [List.forall_mem_cons] at h
    refine .cons ?_ (ih h.2 (insertMember m.1 m.2 sorted))
    intro style level bytes bytes' rest hcolon hskip hrest
    simp only [memberInto, bind, Except.bind, hcolon, h.1 style level hskip hrest]

/-! ## Any value -/

/-- Scalars are taken for themselves. -/
theorem readScalarOr_takes {opened : Bracket → Bytes → Except Fault (Json × Bytes)}
    (hfits : Fits 0 v) (hv : v.isFloatless = true) : Takes (readScalarOr opened) v v := by
  intro style level bytes rest hskip hrest
  unfold readScalarOr
  rw [hskip]
  cases hfits with
  | null =>
    rw [Style.spell]
    exact bind_eq_ok.mpr ⟨_, readIdent_append nullTail rest, rfl⟩
  | bool _ b =>
    rw [Style.spell]
    cases b with
    | true => exact bind_eq_ok.mpr ⟨_, readIdent_append trueTail rest, rfl⟩
    | false => exact bind_eq_ok.mpr ⟨_, readIdent_append falseTail rest, rfl⟩
  | @int _ i hlow hhigh =>
    rw [Style.spell]
    rcases intChars_read hlow hhigh hrest with ⟨bytes', heq, hread⟩ | ⟨b, bytes', hb, heq, hread⟩
    · rw [heq]
      exact bind_eq_ok.mpr ⟨_, hread, rfl⟩
    · simp only [heq, ne_of_isDigit hb (show isDigit 0x6e = false from rfl),
        ne_of_isDigit hb (show isDigit 0x74 = false from rfl),
        ne_of_isDigit hb (show isDigit 0x66 = false from rfl),
        ne_of_isDigit hb (show isDigit 0x2d = false from rfl), hb, if_false, if_true]
      exact bind_eq_ok.mpr ⟨_, hread, rfl⟩
  | float => cases hv
  | str _ s =>
    rw [Style.spell, encodeChars_writeString]
    exact bind_eq_ok.mpr ⟨_, readString_writeString s rest, rfl⟩

theorem readScalarOr_square {opened : Bracket → Bytes → Except Fault (Json × Bytes)}
    (h : skipSpace bytes = openSquare :: rest) :
    readScalarOr opened bytes = opened .square rest := by
  unfold readScalarOr
  rw [h]
  rfl

theorem readScalarOr_curly {opened : Bracket → Bytes → Except Fault (Json × Bytes)}
    (h : skipSpace bytes = openCurly :: rest) :
    readScalarOr opened bytes = opened .curly rest := by
  unfold readScalarOr
  rw [h]
  rfl

/-- **A value without floats is read as it was written**, if it fits. -/
theorem readValue_takes (hfits : Fits nesting v) (hv : v.isFloatless = true) :
    Takes (readValue nesting) v v := by
  -- how deep brackets may go makes no difference to scalars
  have hscalar : ∀ {nesting v}, Fits 0 v → v.isFloatless = true → Takes (readValue nesting) v v := by
    intro nesting v hfits hv
    cases nesting with
    | zero => exact readScalarOr_takes hfits hv
    | succ nesting => exact readScalarOr_takes hfits hv
  induction hfits with
  | null => exact hscalar (.null 0) hv
  | bool _ b => exact hscalar (.bool 0 b) hv
  | int _ hlow hhigh => exact hscalar (.int 0 hlow hhigh) hv
  | float => cases hv
  | str _ s => exact hscalar (.str 0 s) hv
  | @arr nesting items hitems ih =>
    rw [isFloatless_arr] at hv
    intro style level bytes rest hskip hrest
    rw [← List.map_id items] at hskip
    obtain ⟨bytes', hskip, hread⟩ := bracketed_takes (fun v hm => ih v hm (hv v hm)) hv hskip
    rw [readValue, readScalarOr_square hskip]
    simp only [hread]
    rfl
  | @obj nesting members hmembers hsorted ih =>
    rw [isFloatless_obj] at hv
    intro style level bytes rest hskip hrest
    obtain ⟨bytes', hskip, hread⟩ :=
      braced_takes (memberInto_takes (fun m hm => ih m hm (hv m hm)) []) hv hskip
    have hsort : insertMembers [] members = members := sortMembers_eq hsorted (.refl members)
    rw [readValue, readScalarOr_curly hskip]
    simp only [hread, hsort]
    rfl

end ClusterOutput.Json
