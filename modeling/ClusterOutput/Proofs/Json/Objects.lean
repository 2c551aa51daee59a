/-
Texts of objects (`ObjectText`), and objects of which one member is left open
(`ObjectPlace`).

A whole text that is an object decodes to what its names and the texts of its values fill
in (`decode_object_iff`), and a text that decodes and begins with a brace is such a text
(`object_of_decode`). The member of a place fills in its field, apart from all others
(`ObjectPlace.IsOf.draft_fill`).
-/
import ClusterOutput.Proofs.Json.Order

namespace ClusterOutput.Json

variable {α β σ : Type} {nesting : Nat} {layout : Layout σ} {draft draft' : σ} {complete : σ → α}
  {body bytes rest : Bytes} {name : String} {a : α}

/-! ## Objects -/

/-- The text of an object, by its members. -/
structure ObjectText where
  gap : Bytes
  members : List MemberText

namespace ObjectText

def text (o : ObjectText) : Bytes := openCurly :: membersThen o.gap o.members []

/-- Each name stands for a string and each value is one, whatever it holds and however deep. -/
structure IsWellFormed (o : ObjectText) : Prop where
  gap : IsSpacing o.gap
  members : ∀ m ∈ o.members, m.IsWellFormed

instance (o : ObjectText) : Decidable o.IsWellFormed :=
  decidable_of_iff (IsSpacing o.gap ∧ ∀ m ∈ o.members, m.IsWellFormed)
    ⟨fun ⟨hgap, hmembers⟩ => ⟨hgap, hmembers⟩, fun h => ⟨h.gap, h.members⟩⟩

/-- The body is the text of the object, with white space around it. -/
def IsBody (o : ObjectText) (body : Bytes) : Prop :=
  ∃ before after, IsSpacing before ∧ IsSpacing after ∧ body = before ++ (o.text ++ after)

/-- The members that a record knows: their names and the texts of their values. -/
def known (o : ObjectText) (layout : Layout σ) : List (String × Bytes) :=
  (namedTexts o.members).filter fun t => layout.IsKnown t.1

/-- What the members fill in, one after another. -/
def draft? (o : ObjectText) (layout : Layout σ) (nesting : Nat) : Option σ :=
  steps (layout.step nesting) layout.blank (namedTexts o.members)

/-- The same known members fill in the same, in whatever order and among whatever others. -/
theorem draft?_eq_of_perm {o o' : ObjectText} (h : layout.IsOrderless nesting)
    (hperm : (o.known layout).Perm (o'.known layout)) :
    o.draft? layout nesting = o'.draft? layout nesting :=
  steps_eq_of_perm h layout.blank hperm

/-- Where all members are taken, no known one is repeated. -/
theorem known_nodup {o : ObjectText} (h : layout.IsOrderless nesting)
    (hdraft : o.draft? layout nesting = some draft) : ((o.known layout).map (·.1)).Nodup := by
  rw [draft?, ← steps_known h] at hdraft
  exact steps_repeated h (fun t ht => of_decide_eq_true (List.mem_filter.mp ht).2) hdraft

theorem IsWellFormed.isValue {o : ObjectText} (h : o.IsWellFormed) : IsValue o.text :=
  isValue_map h.gap h.members

end ObjectText

variable {o o' : ObjectText}

/-- A reader of records takes the text of an object for what its members fill in. -/
theorem whole?_object_iff (hreaders : layout.HasReaders nesting) (horder : layout.IsOrderless nesting)
    (ho : o.IsWellFormed) :
    whole? (readAs layout complete (nesting + 1)) o.text = some a ↔
      ∃ draft, o.draft? layout nesting = some draft ∧ complete draft = a := by
  have hread : ∀ draft, readRecord layout (nesting + 1) o.text = .ok (draft, []) ↔
      o.draft? layout nesting = some draft := by
    intro draft
    have hiff := @readRecord_map_iff σ [] [] [] o.gap nesting layout draft hreaders o.members
      ho.members ho.gap .nil
    rw [List.nil_append] at hiff
    exact hiff.trans ⟨And.left, fun h => ⟨h, Layout.missing?_eq_none horder draft, rfl⟩⟩
  rw [whole?_eq_some]
  constructor
  · intro h
    obtain ⟨⟨draft, rest⟩, hdraft, h⟩ := bind_eq_ok.mp h
    cases h
    exact ⟨draft, (hread draft).mp hdraft, rfl⟩
  · rintro ⟨draft, hsteps, rfl⟩
    exact bind_eq_ok.mpr ⟨(draft, []), (hread draft).mpr hsteps, rfl⟩

/-! ## Whole texts -/

/-- A text decodes to what its reader gives, if only white space is left. -/
theorem decode_eq_ok {reader : Reader α} : decode reader body = .ok a ↔
    ∃ rest, reader nestingLimit body = .ok (a, rest) ∧ IsSpacing rest := by
  have hspacing : ∀ rest, IsSpacing rest ↔ skipSpace rest = [] := by
    intro rest
    rw [skipSpace, List.dropWhile_eq_nil_iff]
    rfl
  unfold decode
  cases reader nestingLimit body with
  | error fault => simp
  | ok r =>
    obtain ⟨b, rest⟩ := r
    simp only [Except.ok.injEq, Prod.mk.injEq, hspacing]
    constructor
    · intro h
      split at h
      next hrest => exact ⟨rest, ⟨Except.ok.inj h, rfl⟩, hrest⟩
      · cases h
    · rintro ⟨_, ⟨rfl, rfl⟩, hrest⟩
      rw [hrest]

theorem IsSpacing.ends (h : IsSpacing bytes) : EndsNumber bytes := by
  have hends := EndsNumber.nil.behind_spacing h
  rwa [List.append_nil] at hends

/-- With white space around it, the text of a value decodes to what it is taken for. -/
theorem decode_value_iff {reader : Reader α} (hreader : IsReader (reader nestingLimit))
    {before text after : Bytes} (hbefore : IsSpacing before) (htext : IsValue text)
    (hafter : IsSpacing after) :
    decode reader (before ++ (text ++ after)) = .ok a ↔
      whole? (reader nestingLimit) text = some a := by
  rw [decode_eq_ok]
  constructor
  · rintro ⟨rest, hread, hrest⟩
    obtain ⟨spacing, text', hspacing, htext', heq, hwhole⟩ := hreader.value_of_read hread
    obtain ⟨rfl, -⟩ := value_unique hbefore hspacing htext htext' hafter.ends hrest.ends heq
    exact hwhole
  · intro hwhole
    exact ⟨after, hreader.read_value htext hwhole hbefore hafter.ends, hafter⟩

/-- **An object decodes to what its names and the texts of its values fill in.** -/
theorem decode_object_iff (hreaders : layout.HasReaders 126) (horder : layout.IsOrderless 126)
    (ho : o.IsWellFormed) (hbody : o.IsBody body) :
    decode (readAs layout complete) body = .ok a ↔
      ∃ draft, o.draft? layout 126 = some draft ∧ complete draft = a := by
  obtain ⟨before, after, hbefore, hafter, rfl⟩ := hbody
  have hreader : IsReader (readAs layout complete nestingLimit) :=
    readAs_isReader (readRecord_isReader hreaders)
  rw [decode_value_iff hreader hbefore ho.isValue hafter]
  exact whole?_object_iff hreaders horder ho

/-- **A text that decodes and begins with a brace is that of an object.** -/
theorem object_of_decode (hreaders : layout.HasReaders 126)
    (h : decode (readAs layout complete) body = .ok a) (hhead : skipSpace body = openCurly :: bytes) :
    ∃ o : ObjectText, o.IsWellFormed ∧ o.IsBody body := by
  obtain ⟨rest, hread, hrest⟩ := decode_eq_ok.mp h
  obtain ⟨⟨draft, rest'⟩, hdraft, hread⟩ := bind_eq_ok.mp hread
  cases hread
  obtain ⟨spacing, gap, members, hspacing, hgap, hmembers, rfl⟩ :=
    map_of_readRecord hreaders hdraft hhead
  refine ⟨⟨gap, members⟩, ⟨hgap, hmembers⟩, spacing, rest, hspacing, hrest, ?_⟩
  rw [ObjectText.text, List.cons_append, membersThen_append]

/-! ## Places -/

/-- An object of which the value of one member is left open. -/
structure ObjectPlace where
  gap : Bytes
  front : List MemberText
  member : MemberText
  back : List MemberText

namespace ObjectPlace

/-- The object without the member. -/
def without (p : ObjectPlace) : ObjectText := ⟨p.gap, p.front ++ p.back⟩

/-- The object with a value of that text. -/
def fill (p : ObjectPlace) (text : Bytes) : ObjectText :=
  ⟨p.gap, p.front ++ { p.member with text := text } :: p.back⟩

/-- The member is of that name, and it is the only one. -/
structure IsOf (p : ObjectPlace) (name : String) : Prop where
  gap : IsSpacing p.gap
  spaced : p.member.IsSpaced
  named : p.member.name? = some name
  others : ∀ m ∈ p.front ++ p.back, m.IsWellFormed
  only : ∀ m ∈ p.front ++ p.back, m.name? ≠ some name

instance (p : ObjectPlace) (name : String) : Decidable (p.IsOf name) :=
  decidable_of_iff (IsSpacing p.gap ∧ p.member.IsSpaced ∧ p.member.name? = some name ∧
      (∀ m ∈ p.front ++ p.back, m.IsWellFormed) ∧ ∀ m ∈ p.front ++ p.back, m.name? ≠ some name)
    ⟨fun ⟨hgap, hspaced, hnamed, hothers, honly⟩ => ⟨hgap, hspaced, hnamed, hothers, honly⟩,
      fun h => ⟨h.gap, h.spaced, h.named, h.others, h.only⟩⟩

variable {p : ObjectPlace} {text : Bytes}

theorem IsOf.isWellFormed_without (h : p.IsOf name) : p.without.IsWellFormed := ⟨h.gap, h.others⟩

theorem IsOf.isWellFormed_fill (h : p.IsOf name) (htext : IsValue text) : (p.fill text).IsWellFormed := by
  refine ⟨h.gap, fun m hm => ?_⟩
  rcases List.mem_append.mp hm with hm | hm
  · exact h.others m (List.mem_append_left _ hm)
  rcases List.mem_cons.mp hm with rfl | hm
  · exact ⟨⟨h.spaced.before, h.spaced.gap, h.spaced.behind, h.spaced.after⟩,
      Option.isSome_of_eq_some h.named, htext⟩
  · exact h.others m (List.mem_append_right _ hm)

theorem IsOf.namedTexts_fill (h : p.IsOf name) (text : Bytes) :
    namedTexts (p.fill text).members =
      namedTexts p.front ++ (name, text) :: namedTexts p.back := by
  have hmember : { p.member with text := text }.name? = some name := h.named
  rw [fill, namedTexts, List.filterMap_append]
  exact congrArg (_ ++ ·) (namedTexts_cons hmember p.back)

theorem IsOf.other_names (h : p.IsOf name) :
    ∀ t ∈ namedTexts p.front ++ namedTexts p.back, t.1 ≠ name := by
  intro t ht
  rw [namedTexts, namedTexts, ← List.filterMap_append] at ht
  obtain ⟨m, hm, hnamed⟩ := List.mem_filterMap.mp ht
  obtain ⟨name', hname', rfl⟩ := Option.map_eq_some_iff.mp hnamed
  rintro rfl
  exact h.only m hm hname'

/-- **The member of a place fills in its field**, apart from all others. -/
theorem IsOf.draft_fill (h : p.IsOf name) (horder : layout.IsOrderless nesting) {required : Bool}
    {read : Reader β} {get : σ → Option β} {put : β → σ → σ}
    (hfield : layout.fields.find? (·.name == name) = some (.of name required read get put))
    (hblank : get layout.blank = none) :
    (p.fill text).draft? layout nesting = some draft ↔ ∃ draft₁ b,
      p.without.draft? layout nesting = some draft₁ ∧ whole? (read nesting) text = some b ∧
        put b draft₁ = draft := by
  have hfree : (Field.of name required read get put).isSet layout.blank = false := by
    simp [Field.of, hblank]
  rw [ObjectText.draft?, ObjectText.draft?, h.namedTexts_fill,
    steps_field horder hfield h.other_names hfree, without, namedTexts, namedTexts,
    ← List.filterMap_append]
  constructor
  · rintro ⟨draft₁, fill, hsteps, hfill, rfl⟩
    obtain ⟨b, hb, rfl⟩ := Field.of_fill?.mp hfill
    exact ⟨draft₁, b, hsteps, hb, rfl⟩
  · rintro ⟨draft₁, b, hsteps, hb, rfl⟩
    exact ⟨draft₁, put b, hsteps, Field.of_fill?.mpr ⟨b, hb, rfl⟩, rfl⟩

/-- Without its member a field is left as it was. -/
theorem IsOf.draft_without (h : p.IsOf name) (horder : layout.IsOrderless nesting) {required : Bool}
    {read : Reader β} {get : σ → Option β} {put : β → σ → σ}
    (hfield : layout.fields.find? (·.name == name) = some (.of name required read get put))
    (hblank : get layout.blank = none)
    (hdraft : p.without.draft? layout nesting = some draft) : get draft = none := by
  have hother : ∀ t ∈ namedTexts p.without.members, t.1 ≠ name := by
    rw [without, namedTexts, List.filterMap_append]
    exact h.other_names
  have hset := isSet_of_steps horder hfield hother hdraft
  simpa [Field.of, hblank] using hset

end ObjectPlace

end ClusterOutput.Json
