/-
Sequences and maps are read item by item and member by member, wherever they stand.

A reader takes the text of one value, behind any white space and in front of anything
that does not go on a number (`IsReader`). What a reader of members does is a step for
each name and the text of its value (`MemberReader`): so a map is read by its names and
those texts alone (`readMembers_iff`), of which it has no two (`membersThen_unique`).
-/
import ClusterOutput.Proofs.Json.Locality
import ClusterOutput.Proofs.Json.Skipping

namespace ClusterOutput.Json

variable {α σ : Type} {bytes rest rest' text spacing spacing' gap : Bytes} {b : UInt8}

/-- The reader takes the text of a value, and it takes that for the same wherever it stands. -/
def IsReader (read : Bytes → Except Fault (α × Bytes)) : Prop :=
  ∀ ⦃bytes a rest⦄, read bytes = .ok (a, rest) → ∃ spacing text, IsSpacing spacing ∧ IsValue text ∧
    bytes = spacing ++ (text ++ rest) ∧ ∀ spacing' rest', IsSpacing spacing' → EndsNumber rest' →
      read (spacing' ++ (text ++ rest')) = .ok (a, rest')

/-- What the reader takes the whole text for. -/
def whole? (read : Bytes → Except Fault (α × Bytes)) (text : Bytes) : Option α :=
  match read text with
  | .ok (a, []) => some a
  | _ => none

variable {read : Bytes → Except Fault (α × Bytes)} {a : α}

theorem whole?_eq_some : whole? read text = some a ↔ read text = .ok (a, []) := by
  unfold whole?
  split
  next a' h =>
    rw [h]
    simp
  next h =>
    refine ⟨nofun, fun heq => ?_⟩
    exact absurd heq (h a)

/-- Wherever it stands, the text of a value is taken for what it is taken for by itself. -/
theorem IsReader.read_value (h : IsReader read) (htext : IsValue text) (ha : whole? read text = some a)
    (hspacing : IsSpacing spacing) (hrest : EndsNumber rest) :
    read (spacing ++ (text ++ rest)) = .ok (a, rest) := by
  obtain ⟨spacing', text', hspacing', htext', heq, hlocal⟩ := h (whole?_eq_some.mp ha)
  rw [← List.append_nil text, ← List.nil_append (text ++ [])] at heq
  obtain ⟨rfl, -⟩ := value_unique .nil hspacing' htext htext' .nil .nil heq
  exact hlocal spacing rest hspacing hrest

/-- What is taken, where a value ends, is the text of a value. -/
theorem IsReader.value_of_read (h : IsReader read) (hread : read bytes = .ok (a, rest)) :
    ∃ spacing text, IsSpacing spacing ∧ IsValue text ∧ bytes = spacing ++ (text ++ rest) ∧
      whole? read text = some a := by
  obtain ⟨spacing, text, hspacing, htext, heq, hlocal⟩ := h hread
  refine ⟨spacing, text, hspacing, htext, heq, whole?_eq_some.mpr ?_⟩
  rw [← hlocal [] [] .nil .nil, List.append_nil, List.nil_append]

theorem whole?_andThen {β : Type} {next : α → Bytes → Except Fault (β × Bytes)} {Gives : α → β → Prop}
    {b : β} (hnext : Settles next Gives) :
    whole? (fun bytes => do
      let (a, rest) ← read bytes
      next a rest) text = some b ↔ ∃ a, whole? read text = some a ∧ Gives a b := by
  simp only [whole?_eq_some]
  constructor
  · intro h
    obtain ⟨⟨a, rest⟩, ha, hb⟩ := bind_eq_ok.mp h
    obtain ⟨hgives, rfl⟩ := (hnext ..).mp hb
    exact ⟨a, ha, hgives⟩
  · rintro ⟨a, ha, hgives⟩
    exact bind_eq_ok.mpr ⟨(a, []), ha, (hnext ..).mpr ⟨hgives, rfl⟩⟩

/-! ## Sequences -/

variable {item : Bytes → Except Fault (α × Bytes)} {first : Bool} {turns : Bytes} {as : List α}

theorem nextItem_closing (hspacing : IsSpacing spacing) (first : Bool) (rest : Bytes) :
    nextItem first (spacing ++ closeSquare :: rest) = .ok (.close rest) := by
  rw [nextItem, skipSpace_append_cons hspacing (by decide)]
  exact if_pos rfl

theorem nextItem_first (htext : IsValue text) (hspacing : IsSpacing spacing) (rest : Bytes) :
    nextItem true (spacing ++ (text ++ rest)) = .ok (.item (text ++ rest)) := by
  obtain ⟨b, bytes, rfl, hb, hclose⟩ := htext.head
  rw [nextItem, List.cons_append, skipSpace_append_cons hspacing hb]
  simp only [hclose, if_false, if_true]

theorem nextItem_further (htext : IsValue text) (hspacing : IsSpacing spacing)
    (hspacing' : IsSpacing spacing') (rest : Bytes) :
    nextItem false (spacing ++ commaByte :: (spacing' ++ (text ++ rest))) =
      .ok (.item (text ++ rest)) := by
  obtain ⟨b, bytes, rfl, hb, hclose⟩ := htext.head
  rw [nextItem, skipSpace_append_cons hspacing (by decide)]
  simp only [List.cons_append, skipSpace_append_cons hspacing' hb, hclose,
    show commaByte ≠ closeSquare by decide, Bool.false_eq_true, if_false, if_true]

/-- At its end or behind a comma stands a sequence, and only before its first item behind none. -/
theorem nextItem_cases {next : NextItem} (h : nextItem first bytes = .ok next) :
    (∃ spacing rest, IsSpacing spacing ∧ bytes = spacing ++ closeSquare :: rest ∧ next = .close rest) ∨
      (first = true ∧ ∃ spacing bytes', IsSpacing spacing ∧ bytes = spacing ++ bytes' ∧
        next = .item bytes') ∨
      (first = false ∧ ∃ spacing spacing' bytes', IsSpacing spacing ∧ IsSpacing spacing' ∧
        bytes = spacing ++ commaByte :: (spacing' ++ bytes') ∧ next = .item bytes') := by
  unfold nextItem at h
  split at h
  · cases h
  next b bytes₁ hskip =>
  obtain ⟨spacing, hspacing, rfl, -⟩ := skipSpace_eq_cons hskip
  split at h
  next hb =>
    cases h
    exact .inl ⟨spacing, bytes₁, hspacing, by rw [hb], rfl⟩
  split at h
  next hfirst =>
    cases h
    exact .inr (.inl ⟨hfirst, spacing, b :: bytes₁, hspacing, rfl, rfl⟩)
  next hfirst =>
  split at h
  next hb =>
    split at h
    · cases h
    next c bytes₂ hskip₂ =>
    obtain ⟨spacing', hspacing', rfl, -⟩ := skipSpace_eq_cons hskip₂
    split at h
    · cases h
    · cases h
      exact .inr (.inr ⟨Bool.eq_false_iff.mpr hfirst, spacing, spacing', c :: bytes₂, hspacing,
        hspacing', by rw [hb], rfl⟩)
  · cases h

/-- What an item reader takes behind the first item is further items and the bracket. -/
theorem readItems_further (hitem : IsReader item)
    (h : readItems item turns false bytes = .ok (as, rest)) :
    ∃ spacing items, IsSpacing spacing ∧ (∀ i ∈ items, ItemText.IsSpaced i) ∧
      (∀ i ∈ items, IsValue i.text) ∧ bytes = spacing ++ moreItemsThen items rest ∧
      ∀ spacing' rest' turns', IsSpacing spacing' → items.length < List.length turns' →
        readItems item turns' false (spacing' ++ moreItemsThen items rest') = .ok (as, rest') := by
  induction turns generalizing bytes as rest with
  | nil => cases h
  | cons turn turns ih =>
    rw [readItems] at h
    obtain ⟨next, hnext, h⟩ := bind_eq_ok.mp h
    rcases nextItem_cases hnext with ⟨spacing, rest', hspacing, rfl, rfl⟩ | ⟨hfirst, -⟩ |
      ⟨-, spacing, before, bytes', hspacing, hbefore, rfl, rfl⟩
    · cases h
      refine ⟨spacing, [], hspacing, List.forall_mem_nil _, List.forall_mem_nil _, rfl,
        fun spacing' rest' turns' hspacing' hturns => ?_⟩
      obtain ⟨turn, turns', rfl⟩ := List.exists_cons_of_length_pos hturns
      rw [moreItemsThen, readItems, nextItem_closing hspacing']
      rfl
    · cases hfirst
    · obtain ⟨⟨a, bytes₁⟩, ha, h⟩ := bind_eq_ok.mp h
      obtain ⟨⟨as', rest'⟩, has, h⟩ := bind_eq_ok.mp h
      cases h
      obtain ⟨after, items, hafter, hspaced, hitems, rfl, hmore⟩ := ih has
      obtain ⟨before', text, hbefore', htext, rfl, hlocal⟩ := hitem ha
      refine ⟨spacing, ⟨before ++ before', text, after⟩ :: items, hspacing,
        List.forall_mem_cons.mpr ⟨⟨List.forall_mem_append.mpr ⟨hbefore, hbefore'⟩, hafter⟩, hspaced⟩,
        List.forall_mem_cons.mpr ⟨htext, hitems⟩, ?_, fun spacing' rest' turns' hspacing' hturns => ?_⟩
      · simp only [moreItemsThen, ItemText.andThen, List.append_assoc]
      · obtain ⟨turn, turns', rfl⟩ := List.exists_cons_of_length_pos (Nat.zero_lt_of_lt hturns)
        have hends : EndsNumber (after ++ moreItemsThen items rest') :=
          (moreItemsThen_ends items rest').behind_spacing hafter
        have hread := hlocal [] _ .nil hends
        rw [List.nil_append] at hread
        rw [moreItemsThen, ItemText.andThen, readItems, nextItem_further htext hspacing'
          (List.forall_mem_append.mpr ⟨hbefore, hbefore'⟩)]
        simp only [bind, Except.bind, hread, hmore after rest' turns' hafter
          (Nat.lt_of_succ_lt_succ hturns)]

theorem readItems_first (hitem : IsReader item) (h : readItems item turns true bytes = .ok (as, rest)) :
    ∃ gap items, IsSpacing gap ∧ (∀ i ∈ items, ItemText.IsSpaced i) ∧ (∀ i ∈ items, IsValue i.text) ∧
      bytes = itemsThen gap items rest ∧
      ∀ rest' turns', items.length < List.length turns' →
        readItems item turns' true (itemsThen gap items rest') = .ok (as, rest') := by
  cases turns with
  | nil => cases h
  | cons turn turns =>
    rw [readItems] at h
    obtain ⟨next, hnext, h⟩ := bind_eq_ok.mp h
    rcases nextItem_cases hnext with ⟨gap, rest', hgap, rfl, rfl⟩ | ⟨-, gap, bytes', hgap, rfl, rfl⟩ |
      ⟨hfirst, -⟩
    · cases h
      refine ⟨gap, [], hgap, List.forall_mem_nil _, List.forall_mem_nil _, rfl,
        fun rest' turns' hturns => ?_⟩
      obtain ⟨turn, turns', rfl⟩ := List.exists_cons_of_length_pos hturns
      rw [itemsThen, readItems, nextItem_closing hgap]
      rfl
    · obtain ⟨⟨a, bytes₁⟩, ha, h⟩ := bind_eq_ok.mp h
      obtain ⟨⟨as', rest'⟩, has, h⟩ := bind_eq_ok.mp h
      cases h
      obtain ⟨after, items, hafter, hspaced, hitems, rfl, hmore⟩ := readItems_further hitem has
      obtain ⟨before, text, hbefore, htext, rfl, hlocal⟩ := hitem ha
      have hboth : IsSpacing (gap ++ before) := List.forall_mem_append.mpr ⟨hgap, hbefore⟩
      refine ⟨[], ⟨gap ++ before, text, after⟩ :: items, .nil,
        List.forall_mem_cons.mpr ⟨⟨hboth, hafter⟩, hspaced⟩, List.forall_mem_cons.mpr ⟨htext, hitems⟩,
        ?_, fun rest' turns' hturns => ?_⟩
      · simp only [itemsThen, ItemText.andThen, List.append_assoc]
      · obtain ⟨turn, turns', rfl⟩ := List.exists_cons_of_length_pos (Nat.zero_lt_of_lt hturns)
        have hends : EndsNumber (after ++ moreItemsThen items rest') :=
          (moreItemsThen_ends items rest').behind_spacing hafter
        have hread := hlocal [] _ .nil hends
        rw [List.nil_append] at hread
        rw [itemsThen, ItemText.andThen, readItems, nextItem_first htext hboth]
        simp only [bind, Except.bind, hread, hmore after rest' turns' hafter
          (Nat.lt_of_succ_lt_succ hturns)]
    · cases hfirst

theorem length_lt_moreItemsThen (items : List ItemText) (rest : Bytes) :
    items.length < (moreItemsThen items rest).length := by
  induction items with
  | nil => exact Nat.succ_pos _
  | cons i items ih =>
    simp only [moreItemsThen, ItemText.andThen, List.length_cons, List.length_append]
    omega

/-- There is a byte at least for each turn. -/
theorem length_lt_itemsThen {items : List ItemText} (hitems : ∀ i ∈ items, IsValue i.text)
    (gap rest : Bytes) : items.length < (itemsThen gap items rest).length := by
  cases items with
  | nil =>
    rw [itemsThen, List.length_append]
    exact Nat.lt_add_left _ (Nat.succ_pos _)
  | cons i items =>
    rw [List.forall_mem_cons] at hitems
    obtain ⟨b, bytes, htext, -⟩ := hitems.1.head
    have hmore := length_lt_moreItemsThen items rest
    simp only [itemsThen, ItemText.andThen, htext, List.length_cons, List.length_append]
    omega

/-- Behind its bracket a sequence is read as far as the closing one. -/
theorem readItems_reads (hitem : IsReader item) :
    Reads (fun text => IsValue (openSquare :: text)) fun bytes => readItems item bytes true bytes := by
  intro bytes as rest h
  obtain ⟨gap, items, hgap, hspaced, hitems, rfl, hlocal⟩ := readItems_first hitem h
  refine ⟨itemsThen gap items [], .sequence hgap hspaced hitems, (itemsThen_append gap items rest).symm,
    fun rest' _ => ?_⟩
  rw [itemsThen_append]
  exact hlocal rest' _ (length_lt_itemsThen hitems gap rest')

/-! ## Maps -/

/-- The name that a member is written with. -/
def MemberText.name? (m : MemberText) : Option String := whole? readString m.quoted

/-- A member that any reader of members can pass by: its name stands for a string, and the text of a
value is behind the colon. -/
structure MemberText.IsWellFormed (m : MemberText) : Prop extends m.IsSpaced where
  named : m.name?.isSome = true
  value : IsValue m.text

instance (m : MemberText) : Decidable m.IsWellFormed :=
  decidable_of_iff (m.IsSpaced ∧ m.name?.isSome = true ∧ IsValue m.text)
    ⟨fun ⟨hspaced, hnamed, hvalue⟩ => ⟨hspaced, hnamed, hvalue⟩,
      fun h => ⟨h.toIsSpaced, h.named, h.value⟩⟩

/-- The name of a member and the text of its value. -/
def MemberText.named? (m : MemberText) : Option (String × Bytes) := m.name?.map (·, m.text)

/-- The names of members and the texts of their values. -/
def namedTexts (members : List MemberText) : List (String × Bytes) :=
  members.filterMap MemberText.named?

variable {m m' : MemberText} {members members' : List MemberText} {name : String}

/-- The name ends with its closing quote, whatever follows. -/
theorem MemberText.readString_quoted (h : m.name? = some name) (hrest : EndsNumber rest) :
    IsQuoted m.quoted ∧ readString (m.quoted ++ rest) = .ok (name, rest) := by
  obtain ⟨text, htext, heq, hlocal⟩ := readString_reads (whole?_eq_some.mp h)
  rw [List.append_nil] at heq
  exact ⟨heq ▸ htext, heq ▸ hlocal rest hrest⟩

theorem MemberText.valueThen_ends (h : m.IsSpaced) (rest : Bytes) : EndsNumber (m.valueThen rest) :=
  EndsNumber.behind_spacing h.gap (.cons (by decide) _)

theorem namedTexts_cons (h : m.name? = some name) (members : List MemberText) :
    namedTexts (m :: members) = (name, m.text) :: namedTexts members := by
  simp [namedTexts, MemberText.named?, h]

theorem MemberText.IsWellFormed.quoted (h : m.IsWellFormed) : IsQuoted m.quoted := by
  obtain ⟨name, hname⟩ := Option.isSome_iff_exists.mp h.named
  exact (MemberText.readString_quoted hname .nil).1

theorem isValue_map (hgap : IsSpacing gap) (h : ∀ m ∈ members, m.IsWellFormed) :
    IsValue (openCurly :: membersThen gap members []) :=
  .map hgap (fun m hm => (h m hm).toIsSpaced) (fun m hm => (h m hm).quoted) fun m hm => (h m hm).value

/-- Bytes begin with one member only. -/
theorem MemberText.unique (h : m.IsWellFormed) (h' : m'.IsWellFormed) (hrest : EndsNumber rest)
    (hrest' : EndsNumber rest') (heq : m.andThen rest = m'.andThen rest') :
    m.named? = m'.named? ∧ m.after ++ rest = m'.after ++ rest' := by
  obtain ⟨name, hname⟩ := Option.isSome_iff_exists.mp h.named
  obtain ⟨name', hname'⟩ := Option.isSome_iff_exists.mp h'.named
  obtain ⟨-, hquoted⟩ := spacing_unique h.before h'.before (by decide) (by decide) heq
  -- the names are the same string, and end in the same place
  have hread := (readString_quoted hname (valueThen_ends h.toIsSpaced rest)).2
  rw [hquoted, (readString_quoted hname' (valueThen_ends h'.toIsSpaced rest')).2] at hread
  obtain ⟨rfl, hcolon⟩ := Prod.mk.inj (Except.ok.inj hread)
  obtain ⟨-, hvalue⟩ := spacing_unique h'.gap h.gap (by decide) (by decide) hcolon
  obtain ⟨htext, hafter⟩ := value_unique h'.behind h.behind h'.value h.value
    (hrest'.behind_spacing h'.after) (hrest.behind_spacing h.after) hvalue
  exact ⟨by rw [named?, named?, hname, hname', htext], hafter.symm⟩

theorem namedTexts_congr (h : m.named? = m'.named?) (hmembers : namedTexts members = namedTexts members') :
    namedTexts (m :: members) = namedTexts (m' :: members') := by
  unfold namedTexts at *
  rw [List.filterMap_cons, List.filterMap_cons, h, hmembers]

theorem moreMembersThen_unique (h : ∀ m ∈ members, m.IsWellFormed)
    (h' : ∀ m ∈ members', m.IsWellFormed) (hspacing : IsSpacing spacing)
    (hspacing' : IsSpacing spacing')
    (heq : spacing ++ moreMembersThen members rest = spacing' ++ moreMembersThen members' rest') :
    namedTexts members = namedTexts members' ∧ rest = rest' := by
  induction members generalizing members' spacing spacing' with
  | nil =>
    cases members' with
    | nil => exact ⟨rfl, (spacing_unique hspacing hspacing' (by decide) (by decide) heq).2⟩
    | cons m' members' =>
      have hhead := (spacing_unique hspacing hspacing' (by decide) (by decide) heq).1
      exact absurd hhead (by decide)
  | cons m members ih =>
    cases members' with
    | nil =>
      have hhead := (spacing_unique hspacing hspacing' (by decide) (by decide) heq).1
      exact absurd hhead (by decide)
    | cons m' members' =>
      rw [List.forall_mem_cons] at h h'
      have hmember := (spacing_unique hspacing hspacing' (by decide) (by decide) heq).2
      obtain ⟨hnamed, hmore⟩ := MemberText.unique h.1 h'.1 (moreMembersThen_ends members rest)
        (moreMembersThen_ends members' rest') hmember
      obtain ⟨hmembers, hrest⟩ := ih h.2 h'.2 h.1.after h'.1.after hmore
      exact ⟨namedTexts_congr hnamed hmembers, hrest⟩

/-- **The text of a map has one reading**: its names and the texts of its values. -/
theorem membersThen_unique {gap' : Bytes} (h : ∀ m ∈ members, m.IsWellFormed)
    (h' : ∀ m ∈ members', m.IsWellFormed) (hgap : IsSpacing gap) (hgap' : IsSpacing gap')
    (heq : membersThen gap members rest = membersThen gap' members' rest') :
    namedTexts members = namedTexts members' ∧ rest = rest' := by
  cases members with
  | nil =>
    cases members' with
    | nil => exact ⟨rfl, (spacing_unique hgap hgap' (by decide) (by decide) heq).2⟩
    | cons m' members' =>
      rw [List.forall_mem_cons] at h'
      have hhead := (spacing_unique hgap h'.1.before (by decide) (by decide) heq).1
      exact absurd hhead (by decide)
  | cons m members =>
    rw [List.forall_mem_cons] at h
    cases members' with
    | nil =>
      have hhead := (spacing_unique h.1.before hgap' (by decide) (by decide) heq).1
      exact absurd hhead (by decide)
    | cons m' members' =>
      rw [List.forall_mem_cons] at h'
      obtain ⟨hnamed, hmore⟩ := MemberText.unique h.1 h'.1 (moreMembersThen_ends members rest)
        (moreMembersThen_ends members' rest') heq
      obtain ⟨hmembers, hrest⟩ := moreMembersThen_unique h.2 h'.2 h.1.after h'.1.after hmore
      exact ⟨namedTexts_congr hnamed hmembers, hrest⟩

/-! ## Reading members -/

/-- What a reader of members does is a step for the name and the text of the value of each. -/
structure MemberReader (member : σ → String → Bytes → Except Fault (σ × Bytes))
    (step : σ → String → Bytes → Option σ) : Prop where
  sound : ∀ {state name bytes state' rest}, member state name bytes = .ok (state', rest) →
    ∃ gap behind text, IsSpacing gap ∧ IsSpacing behind ∧ IsValue text ∧
      bytes = gap ++ colonByte :: (behind ++ (text ++ rest)) ∧ step state name text = some state'
  complete : ∀ {state name state' gap behind text rest}, IsSpacing gap → IsSpacing behind →
    IsValue text → EndsNumber rest → step state name text = some state' →
    member state name (gap ++ colonByte :: (behind ++ (text ++ rest))) = .ok (state', rest)

/-- The steps for names and texts, one after another. -/
def steps (step : σ → String → Bytes → Option σ) (state : σ) (texts : List (String × Bytes)) :
    Option σ :=
  texts.foldlM (fun state t => step state t.1 t.2) state

variable {member : σ → String → Bytes → Except Fault (σ × Bytes)}
  {step : σ → String → Bytes → Option σ} {state state' : σ}

theorem nextName_closing (hspacing : IsSpacing spacing) (first : Bool) (rest : Bytes) :
    nextName first (spacing ++ closeCurly :: rest) = .ok (.close rest) := by
  rw [nextName, skipSpace_append_cons hspacing (by decide)]
  exact if_pos rfl

theorem nextName_first (hspacing : IsSpacing spacing) (rest : Bytes) :
    nextName true (spacing ++ quoteByte :: rest) = .ok (.name rest) := by
  rw [nextName, skipSpace_append_cons hspacing (by decide)]
  rfl

theorem nextName_further (hspacing : IsSpacing spacing) (hspacing' : IsSpacing spacing')
    (rest : Bytes) :
    nextName false (spacing ++ commaByte :: (spacing' ++ quoteByte :: rest)) = .ok (.name rest) := by
  rw [nextName, skipSpace_append_cons hspacing (by decide)]
  simp only [skipSpace_append_cons hspacing' (show isSpaceByte quoteByte = false from rfl),
    show commaByte ≠ closeCurly by decide, Bool.false_eq_true, if_false, if_true]

/-- At its end or behind a comma stands a map, and only before its first name behind none. -/
theorem nextName_cases {next : NextName} (h : nextName first bytes = .ok next) :
    (∃ spacing rest, IsSpacing spacing ∧ bytes = spacing ++ closeCurly :: rest ∧ next = .close rest) ∨
      (first = true ∧ ∃ spacing bytes', IsSpacing spacing ∧ bytes = spacing ++ quoteByte :: bytes' ∧
        next = .name bytes') ∨
      (first = false ∧ ∃ spacing spacing' bytes', IsSpacing spacing ∧ IsSpacing spacing' ∧
        bytes = spacing ++ commaByte :: (spacing' ++ quoteByte :: bytes') ∧ next = .name bytes') := by
  unfold nextName at h
  split at h
  · cases h
  next b bytes₁ hskip =>
  obtain ⟨spacing, hspacing, rfl, -⟩ := skipSpace_eq_cons hskip
  split at h
  next hb =>
    cases h
    exact .inl ⟨spacing, bytes₁, hspacing, by rw [hb], rfl⟩
  split at h
  next hfirst =>
    split at h
    next hb =>
      cases h
      exact .inr (.inl ⟨hfirst, spacing, bytes₁, hspacing, by rw [hb], rfl⟩)
    · cases h
  next hfirst =>
  split at h
  next hb =>
    split at h
    · cases h
    next c bytes₂ hskip₂ =>
    obtain ⟨spacing', hspacing', rfl, -⟩ := skipSpace_eq_cons hskip₂
    split at h
    next hc =>
      cases h
      exact .inr (.inr ⟨Bool.eq_false_iff.mpr hfirst, spacing, spacing', bytes₂, hspacing, hspacing',
        by rw [hb, hc], rfl⟩)
    · split at h <;> cases h
  · cases h

/-- What is taken behind a name is a member, in front of what follows it. -/
theorem MemberReader.member_of_read (hmember : MemberReader member step)
    (hname : readString bytes = .ok (name, rest)) (h : member state name rest = .ok (state', rest'))
    {before after : Bytes} (hbefore : IsSpacing before) (hafter : IsSpacing after) {rest₁ : Bytes}
    (heq : rest' = after ++ rest₁) :
    ∃ m : MemberText, m.IsWellFormed ∧ before ++ quoteByte :: bytes = m.andThen rest₁ ∧
      m.name? = some name ∧ step state name m.text = some state' := by
  obtain ⟨gap, behind, text, hgap, hbehind, htext, rfl, hstep⟩ := hmember.sound h
  obtain ⟨quoted, hquoted, rfl, hlocal⟩ := readString_reads hname
  have hwhole : whole? readString quoted = some name := by
    refine whole?_eq_some.mpr ?_
    rw [← hlocal [] .nil, List.append_nil]
  refine ⟨⟨before, quoted, gap, behind, text, after⟩, ⟨⟨hbefore, hgap, hbehind, hafter⟩,
    Option.isSome_of_eq_some hwhole, htext⟩, ?_, hwhole, hstep⟩
  rw [heq]
  rfl

theorem MemberReader.read_member (hmember : MemberReader member step) (h : m.IsWellFormed)
    (hname : m.name? = some name) (hstep : step state name m.text = some state')
    (hrest : EndsNumber rest) :
    readString (m.quoted ++ m.valueThen rest) = .ok (name, m.valueThen rest) ∧
      member state name (m.valueThen rest) = .ok (state', m.after ++ rest) :=
  ⟨(MemberText.readString_quoted hname (MemberText.valueThen_ends h.toIsSpaced rest)).2,
    hmember.complete h.gap h.behind h.value (hrest.behind_spacing h.after) hstep⟩

/-- What is taken behind the first member is further members and the bracket. -/
theorem readMembers_further (hmember : MemberReader member step)
    (h : readMembers member turns false state bytes = .ok (state', rest)) :
    ∃ spacing members, IsSpacing spacing ∧ (∀ m ∈ members, MemberText.IsWellFormed m) ∧
      bytes = spacing ++ moreMembersThen members rest ∧
      steps step state (namedTexts members) = some state' := by
  induction turns generalizing bytes state with
  | nil => cases h
  | cons turn turns ih =>
    rw [readMembers] at h
    obtain ⟨next, hnext, h⟩ := bind_eq_ok.mp h
    rcases nextName_cases hnext with ⟨spacing, rest', hspacing, rfl, rfl⟩ | ⟨hfirst, -⟩ |
      ⟨-, spacing, before, bytes', hspacing, hbefore, rfl, rfl⟩
    · cases h
      exact ⟨spacing, [], hspacing, List.forall_mem_nil _, rfl, rfl⟩
    · cases hfirst
    · obtain ⟨⟨name, bytes₁⟩, hname, h⟩ := bind_eq_ok.mp h
      obtain ⟨⟨state₁, bytes₂⟩, hread, h⟩ := bind_eq_ok.mp h
      obtain ⟨after, members, hafter, hmembers, heq, hsteps⟩ := ih h
      obtain ⟨m, hm, hbytes, hmname, hstep⟩ := hmember.member_of_read hname hread hbefore hafter heq
      refine ⟨spacing, m :: members, hspacing, List.forall_mem_cons.mpr ⟨hm, hmembers⟩, ?_, ?_⟩
      · rw [hbytes]
        rfl
      · rw [namedTexts_cons hmname]
        exact (congrArg (· >>= _) hstep).trans hsteps

theorem steps_further (hmember : MemberReader member step) (h : ∀ m ∈ members, m.IsWellFormed)
    (hspacing : IsSpacing spacing) (hsteps : steps step state (namedTexts members) = some state')
    (hturns : members.length < turns.length) :
    readMembers member turns false state (spacing ++ moreMembersThen members rest) =
      .ok (state', rest) := by
  induction members generalizing turns spacing state with
  | nil =>
    obtain ⟨turn, turns, rfl⟩ := List.exists_cons_of_length_pos hturns
    rw [moreMembersThen, readMembers, nextName_closing hspacing]
    cases hsteps
    rfl
  | cons m members ih =>
    obtain ⟨turn, turns, rfl⟩ := List.exists_cons_of_length_pos (Nat.zero_lt_of_lt hturns)
    rw [List.forall_mem_cons] at h
    obtain ⟨name, hname⟩ := Option.isSome_iff_exists.mp h.1.named
    rw [namedTexts_cons hname] at hsteps
    obtain ⟨state₁, hstep, hsteps⟩ := Option.bind_eq_some_iff.mp hsteps
    obtain ⟨hquoted, hread⟩ :=
      hmember.read_member h.1 hname hstep (moreMembersThen_ends members rest)
    rw [moreMembersThen, MemberText.andThen, readMembers, nextName_further hspacing h.1.before]
    simp only [bind, Except.bind, hquoted, hread]
    exact ih h.2 h.1.after hsteps (Nat.lt_of_succ_lt_succ hturns)

theorem readMembers_first (hmember : MemberReader member step)
    (h : readMembers member turns true state bytes = .ok (state', rest)) :
    ∃ gap members, IsSpacing gap ∧ (∀ m ∈ members, MemberText.IsWellFormed m) ∧
      bytes = membersThen gap members rest ∧
      steps step state (namedTexts members) = some state' := by
  cases turns with
  | nil => cases h
  | cons turn turns =>
    rw [readMembers] at h
    obtain ⟨next, hnext, h⟩ := bind_eq_ok.mp h
    rcases nextName_cases hnext with ⟨gap, rest', hgap, rfl, rfl⟩ |
      ⟨-, before, bytes', hbefore, rfl, rfl⟩ | ⟨hfirst, -⟩
    · cases h
      exact ⟨gap, [], hgap, List.forall_mem_nil _, rfl, rfl⟩
    · obtain ⟨⟨name, bytes₁⟩, hname, h⟩ := bind_eq_ok.mp h
      obtain ⟨⟨state₁, bytes₂⟩, hread, h⟩ := bind_eq_ok.mp h
      obtain ⟨after, members, hafter, hmembers, heq, hsteps⟩ := readMembers_further hmember h
      obtain ⟨m, hm, hbytes, hmname, hstep⟩ := hmember.member_of_read hname hread hbefore hafter heq
      refine ⟨[], m :: members, .nil, List.forall_mem_cons.mpr ⟨hm, hmembers⟩, hbytes, ?_⟩
      rw [namedTexts_cons hmname]
      exact (congrArg (· >>= _) hstep).trans hsteps
    · cases hfirst

theorem steps_first (hmember : MemberReader member step) (h : ∀ m ∈ members, m.IsWellFormed)
    (hgap : IsSpacing gap) (hsteps : steps step state (namedTexts members) = some state')
    (hturns : members.length < turns.length) :
    readMembers member turns true state (membersThen gap members rest) = .ok (state', rest) := by
  obtain ⟨turn, turns, rfl⟩ := List.exists_cons_of_length_pos (Nat.zero_lt_of_lt hturns)
  cases members with
  | nil =>
    rw [membersThen, readMembers, nextName_closing hgap]
    cases hsteps
    rfl
  | cons m members =>
    rw [List.forall_mem_cons] at h
    obtain ⟨name, hname⟩ := Option.isSome_iff_exists.mp h.1.named
    rw [namedTexts_cons hname] at hsteps
    obtain ⟨state₁, hstep, hsteps⟩ := Option.bind_eq_some_iff.mp hsteps
    obtain ⟨hquoted, hread⟩ :=
      hmember.read_member h.1 hname hstep (moreMembersThen_ends members rest)
    rw [membersThen, MemberText.andThen, readMembers, nextName_first h.1.before]
    simp only [bind, Except.bind, hquoted, hread]
    exact steps_further hmember h.2 h.1.after hsteps (Nat.lt_of_succ_lt_succ hturns)

theorem length_lt_membersThen (gap : Bytes) (members : List MemberText) (rest : Bytes) :
    members.length < (membersThen gap members rest).length := by
  have hmore : ∀ members : List MemberText, members.length < (moreMembersThen members rest).length := by
    intro members
    induction members with
    | nil => exact Nat.succ_pos _
    | cons m members ih =>
      simp only [moreMembersThen, MemberText.andThen, MemberText.valueThen, List.length_cons,
        List.length_append]
      omega
  cases members with
  | nil =>
    rw [membersThen, List.length_append]
    exact Nat.lt_add_left _ (Nat.succ_pos _)
  | cons m members =>
    have hmembers := hmore members
    simp only [membersThen, MemberText.andThen, MemberText.valueThen, List.length_cons,
      List.length_append]
    omega

/-- **A map is read by its names and the texts of its values alone.** -/
theorem readMembers_iff (hmember : MemberReader member step) (h : ∀ m ∈ members, m.IsWellFormed)
    (hgap : IsSpacing gap) :
    readMembers member (membersThen gap members rest) true state (membersThen gap members rest) =
        .ok (state', rest') ↔
      steps step state (namedTexts members) = some state' ∧ rest' = rest := by
  constructor
  · intro hread
    obtain ⟨gap', members', hgap', h', heq, hsteps⟩ := readMembers_first hmember hread
    obtain ⟨hnamed, hrest⟩ := membersThen_unique h h' hgap hgap' heq
    exact ⟨hnamed ▸ hsteps, hrest.symm⟩
  · rintro ⟨hsteps, rfl⟩
    exact steps_first hmember h hgap hsteps (length_lt_membersThen gap members rest')

/-- Behind its bracket a map is read as far as the closing one. -/
theorem readMembers_reads (hmember : MemberReader member step) (state : σ) :
    Reads (fun text => IsValue (openCurly :: text))
      fun bytes => readMembers member bytes true state bytes := by
  intro bytes state' rest h
  obtain ⟨gap, members, hgap, hmembers, rfl, hsteps⟩ := readMembers_first hmember h
  refine ⟨membersThen gap members [], isValue_map hgap hmembers,
    (membersThen_append gap members rest).symm,
    fun rest' _ => ?_⟩
  rw [membersThen_append]
  exact (readMembers_iff hmember hmembers hgap).mpr ⟨hsteps, rfl⟩

end ClusterOutput.Json
