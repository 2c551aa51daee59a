/-
The order of members is of no account to a record of which no two fields touch one
another (`Layout.IsOrderless`): its known members fill in the same draft in any order
(`steps_perm`), others make no difference (`steps_known`), and a known one that is
repeated is never taken (`steps_repeated`).
-/
import ClusterOutput.Proofs.Json.Layouts
import Mathlib.Data.List.Pairwise

namespace ClusterOutput.Json

variable {α β σ : Type} {nesting : Nat} {layout : Layout σ} {draft draft' : σ}
  {texts texts' : List (String × Bytes)} {name : String} {text : Bytes}

/-! ## Fields -/

/-- Two fields fill in different parts of a draft. -/
structure Field.IsApart (nesting : Nat) (field other : Field σ) : Prop where
  comm : ∀ {text text' fill fill'} draft, field.fill? nesting text = some fill →
    other.fill? nesting text' = some fill' → fill (fill' draft) = fill' (fill draft)
  isSet : ∀ {text fill} draft, other.fill? nesting text = some fill →
    field.isSet (fill draft) = field.isSet draft
  other_isSet : ∀ {text fill} draft, field.fill? nesting text = some fill →
    other.isSet (fill draft) = other.isSet draft

/-- A field is set once it was filled in. -/
def Field.IsMarked (nesting : Nat) (field : Field σ) : Prop :=
  ∀ {text fill} draft, field.fill? nesting text = some fill → field.isSet (fill draft) = true

instance : Std.Symm (Field.IsApart (σ := σ) nesting) where
  symm _ _ h := ⟨fun draft hfill hfill' => (h.comm draft hfill' hfill).symm, h.other_isSet, h.isSet⟩

/-- Fields that are kept in different places. -/
theorem Field.of_isApart {name other : String} {required required' : Bool} {read : Reader α}
    {read' : Reader β} {get : σ → Option α} {get' : σ → Option β} {put : α → σ → σ}
    {put' : β → σ → σ}
    (hcomm : ∀ a b draft, put a (put' b draft) = put' b (put a draft))
    (hget : ∀ b draft, get (put' b draft) = get draft)
    (hget' : ∀ a draft, get' (put a draft) = get' draft) :
    (Field.of name required read get put).IsApart nesting
      (Field.of other required' read' get' put') where
  comm draft hfill hfill' := by
    obtain ⟨a, -, rfl⟩ := Field.of_fill?.mp hfill
    obtain ⟨b, -, rfl⟩ := Field.of_fill?.mp hfill'
    exact hcomm a b draft
  isSet draft hfill := by
    obtain ⟨b, -, rfl⟩ := Field.of_fill?.mp hfill
    exact congrArg Option.isSome (hget b draft)
  other_isSet draft hfill := by
    obtain ⟨a, -, rfl⟩ := Field.of_fill?.mp hfill
    exact congrArg Option.isSome (hget' a draft)

theorem Field.of_isMarked {required : Bool} {read : Reader α} {get : σ → Option α} {put : α → σ → σ}
    (h : ∀ a draft, (get (put a draft)).isSome = true) :
    (Field.of name required read get put).IsMarked nesting := by
  intro text fill draft hfill
  obtain ⟨a, -, rfl⟩ := Field.of_fill?.mp hfill
  exact h a draft

/-! ## Steps -/

/-- A record that passes over what it does not know, needs no member, and keeps what it knows in
different places. -/
structure Layout.IsOrderless (layout : Layout σ) (nesting : Nat) : Prop where
  isOpen : layout.closed = false
  optional : ∀ field ∈ layout.fields, field.required = false
  apart : layout.fields.Pairwise (Field.IsApart nesting)
  marked : ∀ field ∈ layout.fields, field.IsMarked nesting

/-- A place of a draft that no field fills in: each is kept in another. -/
inductive Field.AllElsewhere (get : σ → Option α) (put : α → σ → σ) : List (Field σ) → Prop
  | nil : AllElsewhere get put []
  | cons {β : Type} {name : String} {read : Reader β} {get' : σ → Option β} {put' : β → σ → σ}
    {fields : List (Field σ)} (hcomm : ∀ a b draft, put a (put' b draft) = put' b (put a draft))
    (hget : ∀ b draft, get (put' b draft) = get draft)
    (hget' : ∀ a draft, get' (put a draft) = get' draft)
    (hrest : AllElsewhere get put fields) :
    AllElsewhere get put (Field.of name false read get' put' :: fields)

/-- Fields that may be missing, each kept in a place of its own. -/
inductive Field.AllKept : List (Field σ) → Prop
  | nil : AllKept []
  | cons {α : Type} {name : String} {read : Reader α} {get : σ → Option α} {put : α → σ → σ}
    {fields : List (Field σ)} (hkeeps : ∀ a draft, (get (put a draft)).isSome = true)
    (hothers : AllElsewhere get put fields) (hrest : AllKept fields) :
    AllKept (Field.of name false read get put :: fields)

theorem Field.AllElsewhere.isApart {get : σ → Option α} {put : α → σ → σ} {fields : List (Field σ)}
    (h : AllElsewhere get put fields) (name : String) (read : Reader α) :
    ∀ other ∈ fields, (Field.of name false read get put).IsApart nesting other := by
  induction h with
  | nil => exact List.forall_mem_nil _
  | cons hcomm hget hget' _ ih =>
    exact List.forall_mem_cons.mpr ⟨Field.of_isApart hcomm hget hget', ih⟩

/-- A record whose fields are each kept in a place of its own. -/
theorem Layout.isOrderless_of_kept (hopen : layout.closed = false)
    (h : Field.AllKept layout.fields) (nesting : Nat) : layout.IsOrderless nesting := by
  obtain ⟨hoptional, hapart, hmarked⟩ : (∀ field ∈ layout.fields, field.required = false) ∧
      layout.fields.Pairwise (Field.IsApart nesting) ∧
      ∀ field ∈ layout.fields, field.IsMarked nesting := by
    generalize layout.fields = fields at h ⊢
    induction h with
    | nil => exact ⟨List.forall_mem_nil _, .nil, List.forall_mem_nil _⟩
    | cons hkeeps hothers _ ih =>
      exact ⟨List.forall_mem_cons.mpr ⟨rfl, ih.1⟩, .cons (hothers.isApart _ _) ih.2.1,
        List.forall_mem_cons.mpr ⟨Field.of_isMarked hkeeps, ih.2.2⟩⟩
  exact ⟨hopen, hoptional, hapart, hmarked⟩

/-- A name of a field. -/
def Layout.IsKnown (layout : Layout σ) (name : String) : Prop := name ∈ layout.fields.map (·.name)

instance (layout : Layout σ) (name : String) : Decidable (layout.IsKnown name) :=
  inferInstanceAs (Decidable (name ∈ layout.fields.map (·.name)))

theorem Layout.find?_unknown (h : ¬layout.IsKnown name) :
    layout.fields.find? (·.name == name) = none := by
  rw [List.find?_eq_none]
  intro field hfield hname
  exact h (List.mem_map.mpr ⟨field, hfield, by simpa using hname⟩)

theorem Layout.find?_known (h : layout.IsKnown name) :
    ∃ field ∈ layout.fields, layout.fields.find? (·.name == name) = some field ∧ field.name = name := by
  obtain ⟨field, hfield, hname⟩ := List.mem_map.mp h
  have hsome : (layout.fields.find? (·.name == name)).isSome = true :=
    List.find?_isSome.mpr ⟨field, hfield, beq_iff_eq.mpr hname⟩
  obtain ⟨found, hfound⟩ := Option.isSome_iff_exists.mp hsome
  have hfoundName := List.find?_some hfound
  exact ⟨found, List.mem_of_find?_eq_some hfound, hfound, by simpa using hfoundName⟩

theorem Layout.missing?_eq_none (h : layout.IsOrderless nesting) (draft : σ) :
    layout.missing? draft = none := by
  rw [Layout.missing?, Option.map_eq_none_iff, List.find?_eq_none]
  intro field hfield
  rw [h.optional field hfield]
  exact Bool.false_ne_true

theorem Layout.step_unknown (h : layout.IsOrderless nesting) (hname : ¬layout.IsKnown name)
    (draft : σ) (text : Bytes) : layout.step nesting draft name text = some draft := by
  unfold Layout.step
  simp only [Layout.find?_unknown hname, h.isOpen, Bool.false_eq_true, if_false]

theorem Layout.step_eq_some {field : Field σ}
    (hfield : layout.fields.find? (·.name == name) = some field) :
    layout.step nesting draft name text = some draft' ↔
      field.isSet draft = false ∧ ∃ fill, field.fill? nesting text = some fill ∧ fill draft = draft' := by
  unfold Layout.step
  simp only [hfield]
  cases field.isSet draft <;> simp

/-- A name that was given is not taken again. -/
theorem Layout.step_repeated (h : layout.IsOrderless nesting) (hname : layout.IsKnown name)
    (hstep : layout.step nesting draft name text = some draft') (text' : Bytes) :
    layout.step nesting draft' name text' = none := by
  obtain ⟨field, hmem, hfield, -⟩ := Layout.find?_known hname
  obtain ⟨-, fill, hfill, rfl⟩ := (Layout.step_eq_some hfield).mp hstep
  unfold Layout.step
  simp only [hfield, h.marked field hmem draft hfill, if_true]

/-- Two members of different names may change their places. -/
theorem Layout.step_swap (h : layout.IsOrderless nesting) {name' : String} (hne : name ≠ name')
    (hname : layout.IsKnown name) (hname' : layout.IsKnown name') {draft₁ : σ} {text' : Bytes}
    (hstep : layout.step nesting draft name text = some draft₁)
    (hstep' : layout.step nesting draft₁ name' text' = some draft') :
    ∃ draft₂, layout.step nesting draft name' text' = some draft₂ ∧
      layout.step nesting draft₂ name text = some draft' := by
  obtain ⟨field, hmem, hfield, hfieldName⟩ := Layout.find?_known hname
  obtain ⟨field', hmem', hfield', hfieldName'⟩ := Layout.find?_known hname'
  have hfields : field ≠ field' := by
    rintro rfl
    exact hne (hfieldName.symm.trans hfieldName')
  have hapart : field.IsApart nesting field' := h.apart.forall hmem hmem' hfields
  obtain ⟨hfree, fill, hfill, rfl⟩ := (Layout.step_eq_some hfield).mp hstep
  obtain ⟨hfree', fill', hfill', rfl⟩ := (Layout.step_eq_some hfield').mp hstep'
  rw [hapart.other_isSet draft hfill] at hfree'
  refine ⟨fill' draft, (Layout.step_eq_some hfield').mpr ⟨hfree', fill', hfill', rfl⟩,
    (Layout.step_eq_some hfield).mpr ⟨?_, fill, hfill, hapart.comm draft hfill hfill'⟩⟩
  rw [hapart.isSet draft hfill']
  exact hfree

/-! ## Members in any order -/

/-- All names are those of fields. -/
def Layout.KnowsAll (layout : Layout σ) (texts : List (String × Bytes)) : Prop :=
  ∀ t ∈ texts, layout.IsKnown t.1

theorem steps_cons (t : String × Bytes) :
    steps (layout.step nesting) draft (t :: texts) = some draft' ↔
      ∃ draft₁, layout.step nesting draft t.1 t.2 = some draft₁ ∧
        steps (layout.step nesting) draft₁ texts = some draft' := by
  unfold steps
  rw [List.foldlM_cons, Option.bind_eq_bind, Option.bind_eq_some_iff]

theorem steps_append (texts texts' : List (String × Bytes)) :
    steps (layout.step nesting) draft (texts ++ texts') = some draft' ↔
      ∃ draft₁, steps (layout.step nesting) draft texts = some draft₁ ∧
        steps (layout.step nesting) draft₁ texts' = some draft' := by
  unfold steps
  rw [List.foldlM_append, Option.bind_eq_bind, Option.bind_eq_some_iff]

/-- **Members of unknown names make no difference.** -/
theorem steps_known (h : layout.IsOrderless nesting) (draft : σ) (texts : List (String × Bytes)) :
    steps (layout.step nesting) draft (texts.filter fun t => layout.IsKnown t.1) =
      steps (layout.step nesting) draft texts := by
  induction texts generalizing draft with
  | nil => rfl
  | cons t texts ih =>
    unfold steps at ih ⊢
    by_cases hname : layout.IsKnown t.1
    · rw [List.filter_cons_of_pos (by simpa using hname), List.foldlM_cons, List.foldlM_cons]
      exact congrArg _ (funext ih)
    · rw [List.filter_cons_of_neg (by simpa using hname), List.foldlM_cons,
        Layout.step_unknown h hname]
      exact ih draft

/-- **Known members may come in any order.** -/
theorem steps_perm (h : layout.IsOrderless nesting) (hknown : layout.KnowsAll texts)
    (hperm : texts.Perm texts') (hsteps : steps (layout.step nesting) draft texts = some draft') :
    steps (layout.step nesting) draft texts' = some draft' := by
  induction hperm generalizing draft with
  | nil => exact hsteps
  | cons t hperm ih =>
    obtain ⟨draft₁, hstep, hsteps⟩ := (steps_cons t).mp hsteps
    exact (steps_cons t).mpr ⟨draft₁, hstep, ih (fun t ht => hknown t (List.mem_cons_of_mem _ ht)) hsteps⟩
  | swap t t' texts =>
    obtain ⟨draft₁, hstep, hsteps⟩ := (steps_cons t').mp hsteps
    obtain ⟨draft₂, hstep', hsteps⟩ := (steps_cons t).mp hsteps
    have ht : layout.IsKnown t.1 := hknown t (by simp)
    have ht' : layout.IsKnown t'.1 := hknown t' (by simp)
    by_cases hne : t'.1 = t.1
    · rw [hne] at hstep
      rw [Layout.step_repeated h ht hstep] at hstep'
      cases hstep'
    · obtain ⟨draft₃, hstep₃, hstep₂⟩ := Layout.step_swap h hne ht' ht hstep hstep'
      exact (steps_cons t).mpr ⟨draft₃, hstep₃, (steps_cons t').mpr ⟨draft₂, hstep₂, hsteps⟩⟩
  | trans hperm hperm' ih ih' =>
    exact ih' (fun t ht => hknown t (hperm.mem_iff.mpr ht)) (ih hknown hsteps)

/-- **A known member that is repeated is never taken.** -/
theorem steps_repeated (h : layout.IsOrderless nesting) (hknown : layout.KnowsAll texts)
    (hsteps : steps (layout.step nesting) draft texts = some draft') : (texts.map (·.1)).Nodup := by
  induction texts generalizing draft with
  | nil => exact List.nodup_nil
  | cons t texts ih =>
    have hmore : layout.KnowsAll texts := fun t ht => hknown t (List.mem_cons_of_mem _ ht)
    obtain ⟨draft₁, hstep, hsteps⟩ := (steps_cons t).mp hsteps
    refine List.nodup_cons.mpr ⟨fun hmem => ?_, ih hmore hsteps⟩
    obtain ⟨t', ht', hname⟩ := List.mem_map.mp hmem
    -- the second of the name may as well come right behind the first
    obtain ⟨before, after, rfl⟩ := List.append_of_mem ht'
    obtain ⟨draft₂, hstep', -⟩ := (steps_cons t').mp (steps_perm h hmore List.perm_middle hsteps)
    rw [hname, Layout.step_repeated h (hknown t List.mem_cons_self) hstep] at hstep'
    cases hstep'

/-- Members in another order, of names known or unknown, fill in the same draft. -/
theorem steps_eq_of_perm (h : layout.IsOrderless nesting) (draft : σ)
    (hperm : (texts.filter fun t => layout.IsKnown t.1).Perm (texts'.filter fun t => layout.IsKnown t.1)) :
    steps (layout.step nesting) draft texts = steps (layout.step nesting) draft texts' := by
  have hknown : ∀ texts : List (String × Bytes),
      layout.KnowsAll (texts.filter fun t => layout.IsKnown t.1) :=
    fun texts t ht => of_decide_eq_true (List.mem_filter.mp ht).2
  rw [← steps_known h draft texts, ← steps_known h draft texts']
  refine Option.ext fun draft' => ⟨fun hsteps => ?_, fun hsteps => ?_⟩
  · exact steps_perm h (hknown texts) hperm hsteps
  · exact steps_perm h (hknown texts') hperm.symm hsteps

/-! ## One member among others -/

variable {field : Field σ}

/-- Whether a field is set depends on no members of other names. -/
theorem isSet_of_steps (h : layout.IsOrderless nesting)
    (hfield : layout.fields.find? (·.name == name) = some field) (hother : ∀ t ∈ texts, t.1 ≠ name)
    (hsteps : steps (layout.step nesting) draft texts = some draft') :
    field.isSet draft' = field.isSet draft := by
  induction texts generalizing draft with
  | nil =>
    cases hsteps
    rfl
  | cons t texts ih =>
    rw [List.forall_mem_cons] at hother
    obtain ⟨draft₁, hstep, hsteps⟩ := (steps_cons t).mp hsteps
    rw [ih hother.2 hsteps]
    by_cases hknown : layout.IsKnown t.1
    · obtain ⟨other, hmem, hfound, hname⟩ := Layout.find?_known hknown
      obtain ⟨-, fill, hfill, rfl⟩ := (Layout.step_eq_some hfound).mp hstep
      have hne : field ≠ other := by
        rintro rfl
        have hfieldName := List.find?_some hfield
        exact hother.1 (hname.symm.trans (by simpa using hfieldName))
      exact (h.apart.forall (List.mem_of_find?_eq_some hfield) hmem hne).isSet draft hfill
    · rw [Layout.step_unknown h hknown] at hstep
      cases hstep
      rfl

/-- **A member fills in its field, wherever it stands** among others. -/
theorem steps_field (h : layout.IsOrderless nesting)
    (hfield : layout.fields.find? (·.name == name) = some field)
    (hother : ∀ t ∈ texts ++ texts', t.1 ≠ name) (hfree : field.isSet draft = false) :
    steps (layout.step nesting) draft (texts ++ (name, text) :: texts') = some draft' ↔
      ∃ draft₁ fill, steps (layout.step nesting) draft (texts ++ texts') = some draft₁ ∧
        field.fill? nesting text = some fill ∧ fill draft₁ = draft' := by
  have hperm : (texts ++ (name, text) :: texts').Perm ((texts ++ texts') ++ [(name, text)]) :=
    List.perm_middle.trans (List.perm_append_singleton _ _).symm
  rw [steps_eq_of_perm h draft (hperm.filter _), steps_append]
  constructor
  · rintro ⟨draft₁, hsteps, hstep⟩
    obtain ⟨draft₂, hstep, hnil⟩ := (steps_cons _).mp hstep
    cases hnil
    obtain ⟨-, fill, hfill, rfl⟩ := (Layout.step_eq_some hfield).mp hstep
    exact ⟨draft₁, fill, hsteps, hfill, rfl⟩
  · rintro ⟨draft₁, fill, hsteps, hfill, rfl⟩
    have hset := isSet_of_steps h hfield hother hsteps
    exact ⟨draft₁, hsteps, (steps_cons _).mpr ⟨fill draft₁, (Layout.step_eq_some hfield).mpr
      ⟨hset.trans hfree, fill, hfill, rfl⟩, rfl⟩⟩

end ClusterOutput.Json
