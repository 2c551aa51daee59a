/-
The values that a reader can give (`Fits`): brackets are nested no deeper than it
allows, whole numbers have 64 bits, and the members of an object are sorted, each name
once.

Inserting members keeps them so, in whatever order they come (`sortMembers_eq`).
-/
import ClusterOutput.Json.Basic
import ClusterOutput.Text.Decimal

namespace ClusterOutput.Json

/-! ## Values without floats -/

mutual

/-- No number within the value is a float. -/
def isFloatless : Json → Bool
  | float _ => false
  | arr items => itemsFloatless items
  | obj members => membersFloatless members
  | _ => true

/-- No number within the items is a float. -/
def itemsFloatless : List Json → Bool
  | [] => true
  | v :: items => v.isFloatless && itemsFloatless items

/-- No number within the members is a float. -/
def membersFloatless : List (String × Json) → Bool
  | [] => true
  | (_, v) :: members => v.isFloatless && membersFloatless members

end

theorem isFloatless_arr {items : List Json} :
    (arr items).isFloatless = true ↔ ∀ v ∈ items, v.isFloatless = true := by
  rw [isFloatless]
  induction items with
  | nil => simp [itemsFloatless]
  | cons v items ih => simp [itemsFloatless, ih]

theorem isFloatless_obj {members : List (String × Json)} :
    (obj members).isFloatless = true ↔ ∀ m ∈ members, m.2.isFloatless = true := by
  rw [isFloatless]
  induction members with
  | nil => simp [membersFloatless]
  | cons m members ih => simp [membersFloatless, ih]

/-! ## Sorted members -/

/-- Members in the order of their names, each name once. -/
def Sorted (members : List (String × Json)) : Prop := members.Pairwise (·.1 < ·.1)

variable {members sorted : List (String × Json)} {name : String} {value v : Json}

/-- The member inserted, or one that was there under another name. -/
theorem mem_insertMember {m : String × Json} (h : m ∈ insertMember name value members) :
    m = (name, value) ∨ m ∈ members := by
  induction members with
  | nil => exact .inl (List.mem_singleton.mp h)
  | cons m' members ih =>
    obtain ⟨k, v⟩ := m'
    rw [insertMember] at h
    split at h
    · exact (List.mem_cons.mp h).imp id fun h => List.mem_cons_of_mem _ h
    split at h
    · exact List.mem_cons.mp h
    · rcases List.mem_cons.mp h with rfl | h
      · exact .inr List.mem_cons_self
      · exact (ih h).imp id fun h => List.mem_cons_of_mem _ h

/-- Names that differ are in one order or the other. -/
theorem lt_of_ne_of_not_lt {s t : String} (hne : s ≠ t) (hlt : ¬s < t) : t < s :=
  Std.lt_of_le_of_ne (String.not_lt.mp hlt) hne.symm

theorem Sorted.insertMember (h : Sorted members) (name : String) (value : Json) :
    Sorted (insertMember name value members) := by
  induction members with
  | nil => exact List.pairwise_singleton _ _
  | cons m members ih =>
    obtain ⟨k, v⟩ := m
    obtain ⟨hfirst, hmembers⟩ := List.pairwise_cons.mp h
    rw [Json.insertMember]
    split
    next heq =>
      subst heq
      exact List.pairwise_cons.mpr ⟨hfirst, hmembers⟩
    split
    next hne hlt =>
      refine List.pairwise_cons.mpr ⟨fun m hm => ?_, h⟩
      rcases List.mem_cons.mp hm with rfl | hm
      · exact hlt
      · exact String.lt_trans hlt (hfirst m hm)
    next hne hlt =>
      refine List.pairwise_cons.mpr ⟨fun m hm => ?_, ih hmembers⟩
      rcases mem_insertMember hm with rfl | hm
      · exact lt_of_ne_of_not_lt hne hlt
      · exact hfirst m hm

/-- A new name is a member more. -/
theorem insertMember_perm (hnew : ∀ m ∈ members, m.1 ≠ name) :
    (insertMember name value members).Perm ((name, value) :: members) := by
  induction members with
  | nil => exact .refl _
  | cons m members ih =>
    obtain ⟨k, v⟩ := m
    rw [List.forall_mem_cons] at hnew
    rw [insertMember, if_neg (Ne.symm hnew.1)]
    split
    · exact .refl _
    · exact ((ih hnew.2).cons _).trans (.swap _ _ _)

/-- Members inserted one after another. -/
def insertMembers (sorted members : List (String × Json)) : List (String × Json) :=
  members.foldl (fun sorted m => insertMember m.1 m.2 sorted) sorted

theorem Sorted.insertMembers (h : Sorted sorted) (members : List (String × Json)) :
    Sorted (insertMembers sorted members) := by
  induction members generalizing sorted with
  | nil => exact h
  | cons m members ih => exact ih (h.insertMember m.1 m.2)

/-- New names are members more. -/
theorem insertMembers_perm (sorted : List (String × Json))
    (hnodup : ((sorted ++ members).map (·.1)).Nodup) :
    (insertMembers sorted members).Perm (sorted ++ members) := by
  induction members generalizing sorted with
  | nil => simp [insertMembers]
  | cons m members ih =>
    have hnew : ∀ m' ∈ sorted, m'.1 ≠ m.1 := by
      intro m' hm'
      rw [List.map_append, List.nodup_append] at hnodup
      exact hnodup.2.2 m'.1 (List.mem_map_of_mem hm') m.1 (by simp)
    have hinserted : (insertMember m.1 m.2 sorted ++ members).Perm (sorted ++ m :: members) :=
      ((insertMember_perm hnew).append_right members).trans List.perm_middle.symm
    exact (ih _ ((hinserted.map _).nodup_iff.mpr hnodup)).trans hinserted

/-- Members that come in any order are put into theirs. -/
theorem sortMembers_eq (hsorted : Sorted sorted) (hperm : members.Perm sorted) :
    sortMembers members = sorted := by
  have hnames : (sorted.map (·.1)).Nodup :=
    List.pairwise_map.mpr (hsorted.imp fun hlt => Std.ne_of_lt hlt)
  have hnodup : (members.map (·.1)).Nodup := (hperm.map _).nodup_iff.mpr hnames
  have hempty : Sorted [] := .nil
  -- two sorted lists with the same members are the same list
  refine ((insertMembers_perm [] hnodup).trans hperm).eq_of_pairwise ?_
    (hempty.insertMembers members) hsorted
  intro a b _ _ hab hba
  exact absurd hba (String.lt_asymm hab)

/-- A member found is one of the members. -/
theorem mem_of_lookup (h : lookup name members = some v) : (name, v) ∈ members := by
  induction members with
  | nil => cases h
  | cons m members ih =>
    obtain ⟨k, w⟩ := m
    rw [lookup] at h
    split at h
    next heq =>
      cases h
      subst heq
      exact List.mem_cons_self
    · exact List.mem_cons_of_mem _ (ih h)

/-! ## What fits -/

/-- The value can be what a reader gives that may open brackets as deep as the nesting. -/
inductive Fits : Nat → Json → Prop
  | null (nesting : Nat) : Fits nesting .null
  | bool (nesting : Nat) (b : Bool) : Fits nesting (.bool b)
  | int (nesting : Nat) {i : Int} (hlow : -0x8000000000000000 ≤ i) (hhigh : i < Text.wordLimit) :
    Fits nesting (.int i)
  | float (nesting : Nat) (x : Binary64) : Fits nesting (.float x)
  | str (nesting : Nat) (s : String) : Fits nesting (.str s)
  | arr {nesting : Nat} {items : List Json} (hitems : ∀ v ∈ items, Fits nesting v) :
    Fits (nesting + 1) (.arr items)
  | obj {nesting : Nat} {members : List (String × Json)}
    (hmembers : ∀ m ∈ members, Fits nesting m.2) (hsorted : Sorted members) :
    Fits (nesting + 1) (.obj members)

/-- What fits a nesting fits a deeper one. -/
theorem Fits.mono {nesting : Nat} (h : Fits nesting v) {deeper : Nat} (hle : nesting ≤ deeper) :
    Fits deeper v := by
  induction h generalizing deeper with
  | null => exact .null _
  | bool _ b => exact .bool _ b
  | int _ hlow hhigh => exact .int _ hlow hhigh
  | float _ x => exact .float _ x
  | str _ s => exact .str _ s
  | arr _ ih =>
    obtain ⟨deeper, rfl⟩ := Nat.exists_eq_add_of_lt hle
    exact .arr fun v hv => ih v hv (Nat.le_add_right _ _)
  | obj _ hsorted ih =>
    obtain ⟨deeper, rfl⟩ := Nat.exists_eq_add_of_lt hle
    exact .obj (fun m hm => ih m hm (Nat.le_add_right _ _)) hsorted

end ClusterOutput.Json
