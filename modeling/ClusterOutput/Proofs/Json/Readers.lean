/-
Every reader takes the text of a value, and takes it for the same wherever it stands
(`IsReader`): those of any value, of values of a wanted kind and of records, from a map or
from a sequence.

Of a record that is written as a map, only its names and the texts of its values count
(`readRecord_map_iff`): each is a step that fills in a field, or passes over the member.
-/
import ClusterOutput.Json.Record
import ClusterOutput.Proofs.Json.Collections
import ClusterOutput.Proofs.Json.Reading

namespace ClusterOutput.Json

variable {α β σ : Type} {bytes rest rest' text spacing gap : Bytes} {b : UInt8} {nesting : Nat}

/-! ## By the first byte -/

/-- A reader that goes by the first byte behind white space. -/
theorem IsReader.byHead {next : UInt8 → Bytes → Except Fault (α × Bytes)}
    {fault : Except Fault (α × Bytes)}
    (hfault : ∀ x, fault ≠ .ok x) (h : ∀ b, Reads (fun text => IsValue (b :: text)) (next b)) :
    IsReader fun bytes => match skipSpace bytes with
      | [] => fault
      | b :: rest => next b rest := by
  intro bytes a rest hread
  simp only at hread
  split at hread
  · exact absurd hread (hfault _)
  next b bytes' hskip =>
  obtain ⟨spacing, hspacing, rfl, hb⟩ := skipSpace_eq_cons hskip
  obtain ⟨text, htext, rfl, hlocal⟩ := h b hread
  refine ⟨spacing, b :: text, hspacing, htext, rfl, fun spacing' rest' hspacing' hrest' => ?_⟩
  simp only [List.cons_append, skipSpace_append_cons hspacing' hb]
  exact hlocal rest' hrest'

variable {P : Bytes → Prop} {read read' : Bytes → Except Fault (α × Bytes)}

theorem Reads.ite {c : Prop} [Decidable c] (h : c → Reads P read) (h' : ¬c → Reads P read') :
    Reads P fun bytes => if c then read bytes else read' bytes := by
  by_cases hc : c
  · simp only [hc, if_true]
    exact h hc
  · simp only [hc, if_false]
    exact h' hc

/-- A number in front of which its first digit was looked at. -/
theorem Reads.behindDigit (h : Reads IsUnsigned read) (b : UInt8) :
    Reads (fun text => IsUnsigned (b :: text)) fun bytes => read (b :: bytes) := by
  intro bytes a rest hread
  obtain ⟨text, htext, heq, hlocal⟩ := h hread
  obtain ⟨c, text, rfl, -⟩ := htext.head
  obtain ⟨rfl, rfl⟩ := List.cons.inj heq
  exact ⟨text, htext, rfl, hlocal⟩

/-- A reader that looks for one byte, behind white space, and otherwise is another. -/
theorem IsReader.byFirst {c : UInt8} {found other : Bytes → Except Fault (α × Bytes)}
    (hc : isSpaceByte c = false) (hfound : Reads (fun text => IsValue (c :: text)) found)
    (hother : IsReader other) (h : ∀ {bytes rest}, skipSpace bytes = c :: rest → read bytes = found rest)
    (h' : ∀ {bytes}, (∀ rest, skipSpace bytes ≠ c :: rest) → read bytes = other bytes) :
    IsReader read := by
  intro bytes a rest hread
  by_cases hfirst : ∃ rest, skipSpace bytes = c :: rest
  · obtain ⟨bytes', hskip⟩ := hfirst
    obtain ⟨spacing, hspacing, rfl, -⟩ := skipSpace_eq_cons hskip
    rw [h hskip] at hread
    obtain ⟨text, htext, rfl, hlocal⟩ := hfound hread
    refine ⟨spacing, c :: text, hspacing, htext, rfl, fun spacing' rest' hspacing' hrest' => ?_⟩
    rw [List.cons_append, h (skipSpace_append_cons hspacing' hc _)]
    exact hlocal rest' hrest'
  · have hne : ∀ rest, skipSpace bytes ≠ c :: rest := fun rest hskip => hfirst ⟨rest, hskip⟩
    rw [h' hne] at hread
    obtain ⟨spacing, text, hspacing, htext, rfl, hlocal⟩ := hother hread
    refine ⟨spacing, text, hspacing, htext, rfl, fun spacing' rest' hspacing' hrest' => ?_⟩
    rw [h' fun rest₁ hskip => ?_]
    · exact hlocal spacing' rest' hspacing' hrest'
    · obtain ⟨b, text, rfl, -⟩ := htext.head
      rw [htext.skipSpace_eq hspacing'] at hskip
      refine hne (text ++ rest) ?_
      rw [htext.skipSpace_eq hspacing, List.cons_append, (List.cons.inj hskip).1]

/-- White space may be passed over beforehand. -/
theorem IsReader.behindSpace (h : IsReader read) : IsReader fun bytes => read (skipSpace bytes) := by
  intro bytes a rest hread
  obtain ⟨spacing₁, hspacing₁, hbytes⟩ := skipSpace_split bytes
  obtain ⟨spacing, text, hspacing, htext, heq, hlocal⟩ := h hread
  refine ⟨spacing₁ ++ spacing, text, List.forall_mem_append.mpr ⟨hspacing₁, hspacing⟩, htext, ?_,
    fun spacing' rest' hspacing' hrest' => ?_⟩
  · rw [List.append_assoc, ← heq, ← hbytes]
  · simp only [htext.skipSpace_eq hspacing']
    exact hlocal [] rest' .nil hrest'

/-- What is made of the value read takes nothing more. -/
theorem IsReader.andThen (h : IsReader read) {next : α → Bytes → Except Fault (β × Bytes)}
    {Gives : α → β → Prop} (hnext : Settles next Gives) :
    IsReader (fun bytes => do
      let (a, rest) ← read bytes
      next a rest) := by
  intro bytes b rest hread
  obtain ⟨⟨a, rest₁⟩, ha, hb⟩ := bind_eq_ok.mp hread
  obtain ⟨hgives, rfl⟩ := (hnext ..).mp hb
  obtain ⟨spacing, text, hspacing, htext, hbytes, hlocal⟩ := h ha
  exact ⟨spacing, text, hspacing, htext, hbytes, fun spacing' rest' hspacing' hrest' =>
    bind_eq_ok.mpr ⟨_, hlocal spacing' rest' hspacing' hrest', (hnext ..).mpr ⟨hgives, rfl⟩⟩⟩

theorem IsReader.map (h : IsReader read) (f : α → β) :
    IsReader (fun bytes => do
      let (a, rest) ← read bytes
      .ok (f a, rest)) := h.andThen (settles_map f)

theorem isValue_ident {name : Bytes} {a : α} (h : IsValue (b :: name)) :
    Reads (fun text => IsValue (b :: text)) fun bytes => do return (a, ← readIdent name bytes) :=
  (readIdent_reads name a).mono fun _ htext => htext ▸ h

/-! ## Any value -/

theorem readScalarOr_isReader {opened : Bracket → Bytes → Except Fault (Json × Bytes)}
    (hsquare : Reads (fun text => IsValue (openSquare :: text)) (opened .square))
    (hcurly : Reads (fun text => IsValue (openCurly :: text)) (opened .curly)) :
    IsReader (readScalarOr opened) := by
  unfold readScalarOr
  refine .byHead (fun _ => nofun) fun b => ?_
  refine .ite (fun hb => hb ▸ isValue_ident .nullName) fun _ => ?_
  refine .ite (fun hb => hb ▸ isValue_ident .trueName) fun _ => ?_
  refine .ite (fun hb => hb ▸ isValue_ident .falseName) fun _ => ?_
  refine .ite (fun hb => ?_) fun _ => ?_
  · subst hb
    exact ((readNumeral_reads true).map Numeral.toJson).mono fun _ => .negative
  refine .ite (fun _ => ?_) fun _ => ?_
  · exact (((readNumeral_reads false).behindDigit b).map Numeral.toJson).mono fun _ => .unsigned
  refine .ite (fun hb => ?_) fun _ => ?_
  · subst hb
    exact (readString_reads.map Json.str).mono fun _ => .string
  refine .ite (fun hb => hb ▸ hsquare) fun _ => ?_
  refine .ite (fun hb => hb ▸ hcurly) fun _ => ?_
  exact .fails fun _ _ => nofun

/-! ## Behind a colon -/

theorem colon_of_readColon (h : readColon bytes = .ok rest) :
    ∃ gap, IsSpacing gap ∧ bytes = gap ++ colonByte :: rest := by
  unfold readColon at h
  split at h
  · cases h
  next b bytes' hskip =>
  obtain ⟨gap, hgap, rfl, -⟩ := skipSpace_eq_cons hskip
  split at h
  next hb =>
    cases h
    exact ⟨gap, hgap, by rw [hb]⟩
  · cases h

theorem readColon_colon (hgap : IsSpacing gap) (rest : Bytes) :
    readColon (gap ++ colonByte :: rest) = .ok rest := by
  rw [readColon, skipSpace_append_cons hgap (by decide)]
  exact if_pos rfl

/-- A member of which the value is read behind the colon, and then put into the state. -/
theorem IsReader.memberReader {value : Bytes → Except Fault (α × Bytes)} (h : IsReader value)
    (put : α → σ → String → σ) :
    MemberReader
      (fun state name bytes => do
        let bytes ← readColon bytes
        let (a, rest) ← value bytes
        .ok (put a state name, rest))
      fun state name text => (whole? value text).map (put · state name) where
  sound := by
    intro state name bytes state' rest hread
    obtain ⟨bytes', hcolon, hread⟩ := bind_eq_ok.mp hread
    obtain ⟨⟨a, rest'⟩, ha, hread⟩ := bind_eq_ok.mp hread
    cases hread
    obtain ⟨gap, hgap, rfl⟩ := colon_of_readColon hcolon
    obtain ⟨behind, text, hbehind, htext, rfl, hwhole⟩ := h.value_of_read ha
    exact ⟨gap, behind, text, hgap, hbehind, htext, rfl, by rw [hwhole]; rfl⟩
  complete := by
    intro state name state' gap behind text rest hgap hbehind htext hrest hstep
    obtain ⟨a, hwhole, rfl⟩ := Option.map_eq_some_iff.mp hstep
    refine bind_eq_ok.mpr ⟨_, readColon_colon hgap _, bind_eq_ok.mpr ⟨(a, rest), ?_, rfl⟩⟩
    exact h.read_value htext hwhole hbehind hrest

theorem memberInto_memberReader {value : Bytes → Except Fault (Json × Bytes)} (h : IsReader value) :
    MemberReader (memberInto value)
      fun members name text => (whole? value text).map (insertMember name · members) :=
  h.memberReader fun v members name => insertMember name v members

theorem readValue_isReader (nesting : Nat) : IsReader (readValue nesting) := by
  induction nesting with
  | zero => exact readScalarOr_isReader (.fails fun _ _ => nofun) (.fails fun _ _ => nofun)
  | succ nesting ih =>
    exact readScalarOr_isReader ((readItems_reads ih).map Json.arr)
      ((readMembers_reads (memberInto_memberReader ih) []).map Json.obj)

/-! ## Values of a wanted kind -/

theorem wrongKind_reads (expected : String) (b : UInt8) :
    Reads P fun bytes => (wrongKind expected (b :: bytes) : Except Fault (α × Bytes)) :=
  .fails fun _ _ => wrongKind_ne_ok

theorem readBool_isReader (nesting : Nat) : IsReader (readBool nesting) := by
  unfold readBool
  refine .byHead (fun _ => nofun) fun b => ?_
  refine .ite (fun hb => hb ▸ isValue_ident .trueName) fun _ => ?_
  refine .ite (fun hb => hb ▸ isValue_ident .falseName) fun _ => ?_
  exact wrongKind_reads _ b

theorem readText_isReader (nesting : Nat) : IsReader (readText nesting) := by
  unfold readText
  refine .byHead (fun _ => nofun) fun b => .ite (fun hb => ?_) fun _ => wrongKind_reads _ b
  subst hb
  exact readString_reads.mono fun _ => .string

theorem readNumber_settles (take : Numeral → Except Cause α) :
    Settles (fun n rest => match take n with
      | .ok a => .ok (a, rest)
      | .error cause => stop cause rest) (take · = .ok ·) := by
  intro n bytes a rest
  cases htake : take n <;> simp [htake, stop]

theorem readNumber_isReader (expected : String) (take : Numeral → Except Cause α) (nesting : Nat) :
    IsReader (readNumber expected take nesting) := by
  have hnext := readNumber_settles take
  unfold readNumber
  refine .byHead (fun _ => nofun) fun b => .ite (fun hb => ?_) fun _ => .ite (fun _ => ?_) fun _ => ?_
  · subst hb
    exact ((readNumeral_reads true).andThen hnext).mono fun _ => .negative
  · exact (((readNumeral_reads false).behindDigit b).andThen hnext).mono fun _ => .unsigned
  · exact wrongKind_reads expected b

theorem readOptional_isReader {value : Reader α} (h : IsReader (value nesting)) :
    IsReader (readOptional value nesting) := by
  refine .byFirst (show isSpaceByte 0x6e = false from rfl) (isValue_ident (a := none) .nullName)
    (h.behindSpace.map some) (fun hskip => ?_) fun {bytes} hother => ?_
  · simp only [readOptional, hskip, if_true]
  · cases hskip : skipSpace bytes with
    | nil =>
      simp only [readOptional, hskip]
      rfl
    | cons b rest =>
      have hb : b ≠ 0x6e := by
        rintro rfl
        exact hother rest hskip
      simp only [readOptional, hskip, hb, if_false]
      rfl

theorem readList_isReader {item : Reader α} (h : IsReader (item nesting)) :
    IsReader (readList item (nesting + 1)) := by
  unfold readList
  refine .byHead (fun _ => nofun) fun b => .ite (fun hb => ?_) fun _ => wrongKind_reads _ b
  subst hb
  exact readItems_reads h

theorem readMap_isReader (nesting : Nat) : IsReader (readMap (nesting + 1)) := by
  unfold readMap
  refine .byHead (fun _ => nofun) fun b => .ite (fun hb => ?_) fun _ => wrongKind_reads _ b
  subst hb
  exact readMembers_reads (memberInto_memberReader (readValue_isReader nesting)) []

end ClusterOutput.Json
