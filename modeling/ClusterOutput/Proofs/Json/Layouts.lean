/-
A record is read by the names of its members and the texts of their values: each is a
step that fills in a field, or passes over a member of an unknown name (`Layout.step`).
What is read of a map is the steps of its members, and that none is missing
(`readRecord_map_iff`). From a map or from a sequence, the text of a record is taken for
the same wherever it stands (`readRecord_isReader`).
-/
import ClusterOutput.Proofs.Json.Readers

namespace ClusterOutput.Json

variable {α β σ : Type} {bytes rest rest' text spacing gap : Bytes} {nesting : Nat}
  {layout : Layout σ} {draft draft' : σ}

/-! ## Members of a record -/

/-- How a value of that text fills in the field. -/
def Field.fill? (field : Field σ) (nesting : Nat) (text : Bytes) : Option (σ → σ) :=
  whole? (field.read nesting) text

/-- The draft after a member of that name, with a value of that text. -/
def Layout.step (layout : Layout σ) (nesting : Nat) (draft : σ) (name : String) (text : Bytes) :
    Option σ :=
  match layout.fields.find? (·.name == name) with
  | none => if layout.closed then none else some draft
  | some field => if field.isSet draft then none else (field.fill? nesting text).map (· draft)

/-- Every field reads values, wherever they stand. -/
def Layout.HasReaders (layout : Layout σ) (nesting : Nat) : Prop :=
  ∀ field ∈ layout.fields, IsReader (field.read nesting)

theorem Layout.member_unknown {name : String}
    (hfield : layout.fields.find? (·.name == name) = none) (hopen : layout.closed = false)
    (bytes : Bytes) : layout.member nesting draft name bytes = (do
      let bytes ← readColon bytes
      .ok (draft, ← skipValue bytes)) := by
  unfold Layout.member
  simp only [hfield, hopen, Bool.false_eq_true, if_false]

theorem Layout.member_known {name : String} {field : Field σ}
    (hfield : layout.fields.find? (·.name == name) = some field) (hfree : field.isSet draft = false)
    (bytes : Bytes) : layout.member nesting draft name bytes = (do
      let bytes ← readColon bytes
      let (fill, rest) ← field.read nesting bytes
      .ok (fill draft, rest)) := by
  unfold Layout.member
  simp only [hfield, hfree, Bool.false_eq_true, if_false]

theorem Layout.memberReader (h : layout.HasReaders nesting) :
    MemberReader (layout.member nesting) (layout.step nesting) where
  sound := by
    intro draft name bytes draft' rest hread
    cases hfield : layout.fields.find? (·.name == name) with
    | none =>
      cases hopen : layout.closed with
      | true =>
        simp only [Layout.member, hfield, hopen, if_true] at hread
        cases hread
      | false =>
        rw [Layout.member_unknown hfield hopen] at hread
        obtain ⟨bytes', hcolon, hread⟩ := bind_eq_ok.mp hread
        obtain ⟨rest', hskip, hread⟩ := bind_eq_ok.mp hread
        cases hread
        obtain ⟨gap, hgap, rfl⟩ := colon_of_readColon hcolon
        obtain ⟨behind, text, hbehind, htext, rfl⟩ := value_of_skipValue hskip
        refine ⟨gap, behind, text, hgap, hbehind, htext, rfl, ?_⟩
        simp only [Layout.step, hfield, hopen, Bool.false_eq_true, if_false]
    | some field =>
      cases hfree : field.isSet draft with
      | true =>
        simp only [Layout.member, hfield, hfree, if_true] at hread
        cases hread
      | false =>
        rw [Layout.member_known hfield hfree] at hread
        obtain ⟨bytes', hcolon, hread⟩ := bind_eq_ok.mp hread
        obtain ⟨⟨fill, rest'⟩, hfill, hread⟩ := bind_eq_ok.mp hread
        cases hread
        obtain ⟨gap, hgap, rfl⟩ := colon_of_readColon hcolon
        obtain ⟨behind, text, hbehind, htext, rfl, hwhole⟩ :=
          (h field (List.mem_of_find?_eq_some hfield)).value_of_read hfill
        refine ⟨gap, behind, text, hgap, hbehind, htext, rfl, ?_⟩
        simp only [Layout.step, hfield, hfree, Bool.false_eq_true, if_false, Field.fill?, hwhole,
          Option.map_some]
  complete := by
    intro draft name draft' gap behind text rest hgap hbehind htext hrest hstep
    have hcolon := readColon_colon hgap (behind ++ (text ++ rest))
    cases hfield : layout.fields.find? (·.name == name) with
    | none =>
      cases hopen : layout.closed with
      | true =>
        simp only [Layout.step, hfield, hopen, if_true] at hstep
        cases hstep
      | false =>
        simp only [Layout.step, hfield, hopen, Bool.false_eq_true, if_false] at hstep
        cases hstep
        rw [Layout.member_unknown hfield hopen]
        exact bind_eq_ok.mpr ⟨_, hcolon, bind_eq_ok.mpr ⟨_, skipValue_value htext hbehind hrest, rfl⟩⟩
    | some field =>
      cases hfree : field.isSet draft with
      | true =>
        simp only [Layout.step, hfield, hfree, if_true] at hstep
        cases hstep
      | false =>
        simp only [Layout.step, hfield, hfree, Bool.false_eq_true, if_false] at hstep
        obtain ⟨fill, hwhole, rfl⟩ := Option.map_eq_some_iff.mp hstep
        have hfill := (h field (List.mem_of_find?_eq_some hfield)).read_value htext hwhole hbehind hrest
        rw [Layout.member_known hfield hfree]
        exact bind_eq_ok.mpr ⟨_, hcolon, bind_eq_ok.mpr ⟨_, hfill, rfl⟩⟩

theorem Field.of_isReader {name : String} {required : Bool} {read : Reader α} {get : σ → Option α}
    {put : α → σ → σ} (h : IsReader (read nesting)) :
    IsReader ((Field.of name required read get put).read nesting) :=
  h.map put

theorem Field.of_fill? {name : String} {required : Bool} {read : Reader α} {get : σ → Option α}
    {put : α → σ → σ} {fill : σ → σ} :
    (Field.of name required read get put).fill? nesting text = some fill ↔
      ∃ a, whole? (read nesting) text = some a ∧ put a = fill := by
  simp only [Field.fill?, whole?_eq_some]
  constructor
  · intro h
    obtain ⟨⟨a, rest⟩, ha, h⟩ := bind_eq_ok.mp h
    cases h
    exact ⟨a, ha, rfl⟩
  · rintro ⟨a, ha, rfl⟩
    exact bind_eq_ok.mpr ⟨_, ha, rfl⟩

/-! ## Records from maps -/

theorem Reads.settled {P : Bytes → Prop} {read : Bytes → Except Fault (α × Bytes)} (h : Reads P read)
    (bracket : Bracket) : Reads P fun bytes => Json.settled bracket (read bytes) := by
  intro bytes a rest hread
  obtain ⟨text, htext, heq, hlocal⟩ := h (settled_eq_ok.mp hread)
  exact ⟨text, htext, heq, fun rest' hrest' => settled_eq_ok.mpr (hlocal rest' hrest')⟩

/-- A draft that lacks nothing. -/
def Layout.complete (layout : Layout σ) (draft : σ) (rest : Bytes) : Except Fault (σ × Bytes) :=
  match layout.missing? draft with
  | some name => stop (.missingField name) rest
  | none => .ok (draft, rest)

theorem Layout.complete_settles (layout : Layout σ) :
    Settles layout.complete fun draft draft' => layout.missing? draft = none ∧ draft = draft' := by
  intro draft bytes draft' rest
  unfold Layout.complete
  cases hmissing : layout.missing? draft with
  | none => simp [hmissing]
  | some name => simp [hmissing, stop]

theorem readRecord_curly (h : skipSpace bytes = openCurly :: rest) :
    readRecord layout (nesting + 1) bytes = settled .curly (do
      let (draft, rest) ← readMembers (layout.member nesting) rest true layout.blank rest
      layout.complete draft rest) := by
  unfold readRecord
  rw [h]
  rfl

/-- **Of a record that is written as a map only its names and the texts of its values count.** -/
theorem readRecord_map_iff (hreaders : layout.HasReaders nesting) {members : List MemberText}
    (hmembers : ∀ m ∈ members, m.IsWellFormed) (hgap : IsSpacing gap) (hspacing : IsSpacing spacing) :
    readRecord layout (nesting + 1) (spacing ++ openCurly :: membersThen gap members rest) =
        .ok (draft, rest') ↔
      steps (layout.step nesting) layout.blank (namedTexts members) = some draft ∧
        layout.missing? draft = none ∧ rest' = rest := by
  rw [readRecord_curly (skipSpace_append_cons hspacing (by decide) _), settled_eq_ok, bind_eq_ok]
  constructor
  · rintro ⟨⟨draft₁, rest₁⟩, hread, hcomplete⟩
    obtain ⟨hsteps, rfl⟩ := (readMembers_iff (Layout.memberReader hreaders) hmembers hgap).mp hread
    obtain ⟨⟨hmissing, rfl⟩, rfl⟩ := (layout.complete_settles ..).mp hcomplete
    exact ⟨hsteps, hmissing, rfl⟩
  · rintro ⟨hsteps, hmissing, rfl⟩
    exact ⟨(draft, rest'),
      (readMembers_iff (Layout.memberReader hreaders) hmembers hgap).mpr ⟨hsteps, rfl⟩,
      (layout.complete_settles ..).mpr ⟨⟨hmissing, rfl⟩, rfl⟩⟩

/-- A record that is read behind a brace is written as a map. -/
theorem map_of_readRecord (hreaders : layout.HasReaders nesting)
    (h : readRecord layout (nesting + 1) bytes = .ok (draft, rest)) {bytes' : Bytes}
    (hhead : skipSpace bytes = openCurly :: bytes') :
    ∃ spacing gap members, IsSpacing spacing ∧ IsSpacing gap ∧
      (∀ m ∈ members, MemberText.IsWellFormed m) ∧
      bytes = spacing ++ openCurly :: membersThen gap members rest := by
  obtain ⟨spacing, hspacing, rfl, -⟩ := skipSpace_eq_cons hhead
  rw [readRecord_curly hhead, settled_eq_ok, bind_eq_ok] at h
  obtain ⟨⟨draft₁, rest₁⟩, hread, hcomplete⟩ := h
  obtain ⟨-, rfl⟩ := (layout.complete_settles ..).mp hcomplete
  obtain ⟨gap, members, hgap, hmembers, rfl, -⟩ :=
    readMembers_first (Layout.memberReader hreaders) hread
  exact ⟨spacing, gap, members, hspacing, hgap, hmembers, rfl⟩

/-! ## Records from sequences -/

/-- Behind the item of the last field stands the bracket. -/
theorem Layout.fillItems_nil {index : Nat} :
    layout.fillItems nesting index draft [] bytes = .ok (draft', rest) ↔
      draft' = draft ∧ ∃ spacing, IsSpacing spacing ∧ bytes = spacing ++ closeSquare :: rest := by
  constructor
  · intro h
    unfold Layout.fillItems at h
    split at h
    · cases h
    next b bytes' hskip =>
    obtain ⟨spacing, hspacing, rfl, -⟩ := skipSpace_eq_cons hskip
    split at h
    next hb =>
      cases h
      exact ⟨rfl, spacing, hspacing, by rw [hb]⟩
    split at h
    · split at h
      · cases h
      · split at h <;> cases h
    · cases h
  · rintro ⟨rfl, spacing, hspacing, rfl⟩
    rw [Layout.fillItems, skipSpace_append_cons hspacing (by decide)]
    exact if_pos rfl

/-- The end of the items leaves the fields to their defaults, whatever follows it. -/
theorem Layout.fillItems_close {fields : List (Field σ)} {field : Field σ} {index : Nat}
    (hnext : nextItem (index == 0) bytes = .ok (.close rest))
    (h : layout.fillItems nesting index draft (field :: fields) bytes = .ok (draft', rest')) :
    draft' = draft ∧ rest' = rest ∧ ∀ bytes₁ rest₁, nextItem (index == 0) bytes₁ = .ok (.close rest₁) →
      layout.fillItems nesting index draft (field :: fields) bytes₁ = .ok (draft, rest₁) := by
  rw [Layout.fillItems] at h
  obtain ⟨next, hnext', h⟩ := bind_eq_ok.mp h
  rw [hnext] at hnext'
  cases hnext'
  cases hdefault : (field :: fields).findIdx? (·.required) with
  | none =>
    simp only [hdefault] at h
    cases h
    refine ⟨rfl, rfl, fun bytes₁ rest₁ h => ?_⟩
    rw [Layout.fillItems]
    exact bind_eq_ok.mpr ⟨_, h, by simp only [hdefault]⟩
  | some k =>
    simp only [hdefault] at h
    cases h

theorem Layout.fillItems_item {fields : List (Field σ)} {field : Field σ} {index : Nat} {first : Bool}
    {bytes' : Bytes} (hfirst : (index == 0) = first) (hnext : nextItem first bytes = .ok (.item bytes')) :
    layout.fillItems nesting index draft (field :: fields) bytes = (do
      let (fill, rest) ← field.read nesting bytes'
      layout.fillItems nesting (index + 1) (fill draft) fields rest) := by
  rw [Layout.fillItems, hfirst, hnext]
  rfl

theorem Layout.fillItems_further {fields : List (Field σ)} {index : Nat}
    (hfields : ∀ field ∈ fields, IsReader (field.read nesting))
    (h : layout.fillItems nesting (index + 1) draft fields bytes = .ok (draft', rest)) :
    ∃ spacing items, IsSpacing spacing ∧ (∀ i ∈ items, ItemText.IsSpaced i) ∧
      (∀ i ∈ items, IsValue i.text) ∧ bytes = spacing ++ moreItemsThen items rest ∧
      ∀ spacing' rest', IsSpacing spacing' →
        layout.fillItems nesting (index + 1) draft fields (spacing' ++ moreItemsThen items rest') =
          .ok (draft', rest') := by
  induction fields generalizing index draft bytes with
  | nil =>
    obtain ⟨rfl, spacing, hspacing, rfl⟩ := Layout.fillItems_nil.mp h
    exact ⟨spacing, [], hspacing, List.forall_mem_nil _, List.forall_mem_nil _, rfl,
      fun spacing' rest' hspacing' => Layout.fillItems_nil.mpr ⟨rfl, spacing', hspacing', rfl⟩⟩
  | cons field fields ih =>
    rw [List.forall_mem_cons] at hfields
    obtain ⟨next, hnext, -⟩ := bind_eq_ok.mp h
    rcases nextItem_cases hnext with ⟨spacing, rest', hspacing, rfl, rfl⟩ | ⟨hfirst, -⟩ |
      ⟨-, spacing, before, bytes', hspacing, hbefore, rfl, rfl⟩
    · obtain ⟨rfl, rfl, hclose⟩ := Layout.fillItems_close hnext h
      exact ⟨spacing, [], hspacing, List.forall_mem_nil _, List.forall_mem_nil _, rfl,
        fun spacing' rest' hspacing' => hclose _ _ (nextItem_closing hspacing' _ rest')⟩
    · cases hfirst
    · rw [Layout.fillItems_item rfl hnext] at h
      obtain ⟨⟨fill, bytes₁⟩, hfill, h⟩ := bind_eq_ok.mp h
      obtain ⟨after, items, hafter, hspaced, hitems, rfl, hmore⟩ := ih hfields.2 h
      obtain ⟨before', text, hbefore', htext, rfl, hlocal⟩ := hfields.1 hfill
      have hboth : IsSpacing (before ++ before') := List.forall_mem_append.mpr ⟨hbefore, hbefore'⟩
      refine ⟨spacing, ⟨before ++ before', text, after⟩ :: items, hspacing,
        List.forall_mem_cons.mpr ⟨⟨hboth, hafter⟩, hspaced⟩, List.forall_mem_cons.mpr ⟨htext, hitems⟩,
        ?_, fun spacing' rest' hspacing' => ?_⟩
      · simp only [moreItemsThen, ItemText.andThen, List.append_assoc]
      · have hends : EndsNumber (after ++ moreItemsThen items rest') :=
          (moreItemsThen_ends items rest').behind_spacing hafter
        rw [moreItemsThen, ItemText.andThen,
          Layout.fillItems_item (show (index + 1 == 0) = false from rfl)
            (nextItem_further htext hspacing' hboth _)]
        exact bind_eq_ok.mpr ⟨_, hlocal [] _ .nil hends, hmore after rest' hafter⟩

theorem Layout.fillItems_reads (hreaders : layout.HasReaders nesting) :
    Reads (fun text => IsValue (openSquare :: text))
      (layout.fillItems nesting 0 layout.blank layout.fields) := by
  intro bytes draft rest h
  unfold Layout.HasReaders at hreaders
  cases hfields : layout.fields with
  | nil =>
    rw [hfields] at h
    obtain ⟨rfl, gap, hgap, rfl⟩ := Layout.fillItems_nil.mp h
    refine ⟨itemsThen gap [] [], .sequence hgap (List.forall_mem_nil _) (List.forall_mem_nil _),
      (itemsThen_append gap [] rest).symm, fun rest' _ => ?_⟩
    exact Layout.fillItems_nil.mpr ⟨rfl, gap, hgap, itemsThen_append gap [] rest'⟩
  | cons field fields =>
    rw [hfields] at h hreaders
    rw [List.forall_mem_cons] at hreaders
    obtain ⟨next, hnext, -⟩ := bind_eq_ok.mp h
    rcases nextItem_cases hnext with ⟨gap, rest', hgap, rfl, rfl⟩ | ⟨-, gap, bytes', hgap, rfl, rfl⟩ |
      ⟨hfirst, -⟩
    · obtain ⟨rfl, rfl, hclose⟩ := Layout.fillItems_close hnext h
      refine ⟨itemsThen gap [] [], .sequence hgap (List.forall_mem_nil _) (List.forall_mem_nil _),
        (itemsThen_append gap [] rest).symm, fun rest' _ => ?_⟩
      rw [itemsThen_append]
      exact hclose _ _ (nextItem_closing hgap _ rest')
    · rw [Layout.fillItems_item rfl hnext] at h
      obtain ⟨⟨fill, bytes₁⟩, hfill, h⟩ := bind_eq_ok.mp h
      obtain ⟨after, items, hafter, hspaced, hitems, rfl, hmore⟩ :=
        Layout.fillItems_further hreaders.2 h
      obtain ⟨before, text, hbefore, htext, rfl, hlocal⟩ := hreaders.1 hfill
      have hboth : IsSpacing (gap ++ before) := List.forall_mem_append.mpr ⟨hgap, hbefore⟩
      let i : ItemText := ⟨gap ++ before, text, after⟩
      refine ⟨itemsThen [] (i :: items) [], .sequence .nil
        (List.forall_mem_cons.mpr ⟨⟨hboth, hafter⟩, hspaced⟩) (List.forall_mem_cons.mpr ⟨htext, hitems⟩),
        ?_, fun rest' _ => ?_⟩
      · rw [itemsThen_append]
        simp only [itemsThen, ItemText.andThen, List.append_assoc, i]
      · have hends : EndsNumber (after ++ moreItemsThen items rest') :=
          (moreItemsThen_ends items rest').behind_spacing hafter
        rw [itemsThen_append, itemsThen, ItemText.andThen,
          Layout.fillItems_item (show (0 == 0) = true from rfl) (nextItem_first htext hboth _)]
        exact bind_eq_ok.mpr ⟨_, hlocal [] _ .nil hends, hmore after rest' hafter⟩
    · cases hfirst

/-- **A record is read for the same wherever it stands**, from a map or from a sequence. -/
theorem readRecord_isReader (hreaders : layout.HasReaders nesting) :
    IsReader (readRecord layout (nesting + 1)) := by
  unfold readRecord
  refine .byHead (fun _ => nofun) fun b => .ite (fun hb => ?_) fun _ => .ite (fun hb => ?_) fun _ =>
    wrongKind_reads _ b
  · subst hb
    exact (Layout.fillItems_reads hreaders).settled .square
  · subst hb
    have hmembers := readMembers_reads (Layout.memberReader hreaders) layout.blank
    exact (hmembers.andThen layout.complete_settles).settled .curly

theorem readAs_isReader {complete : σ → α} (h : IsReader (readRecord layout nesting)) :
    IsReader (readAs layout complete nesting) :=
  h.map complete

end ClusterOutput.Json
