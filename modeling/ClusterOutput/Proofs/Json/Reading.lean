/-
What is read fits: a value that `readValue` gives has the nesting it was allowed, whole
numbers of 64 bits and sorted members (`readValue_fits`), whatever the bytes were.

The loops over items, members and fields carry an invariant from one turn to the next.
-/
import ClusterOutput.Json.Record
import ClusterOutput.Proofs.Json.Values
import ClusterOutput.Proofs.Json.Words
import ClusterOutput.Proofs.Result
import Mathlib.Logic.Basic

namespace ClusterOutput.Json

variable {α σ : Type} {bytes rest : Bytes} {nesting : Nat} {v : Json}

/-! ## Numbers -/

/-- A whole number has 64 bits; any other is a float. -/
def Numeral.IsInRange : Numeral → Prop
  | .int i => -0x8000000000000000 ≤ i ∧ i < Text.wordLimit
  | .float _ => True

variable {negative : Bool} {significand taken dropped : Nat} {power : Int} {n : Numeral}

theorem dropDigits_significand :
    (dropDigits significand taken dropped bytes).significand = significand := by
  fun_induction dropDigits significand taken dropped bytes with
  | case1 => rfl
  | case2 _ _ _ _ ih => exact ih
  | case3 => rfl

theorem takeDigits_significand_lt (h : significand < Text.wordLimit) :
    (takeDigits significand taken bytes).significand < Text.wordLimit := by
  fun_induction takeDigits significand taken bytes with
  | case1 => exact h
  | case2 => exact h
  | case3 _ _ _ _ _ _ hlt ih => exact ih hlt
  | case4 =>
    rw [dropDigits_significand]
    exact h

theorem numeralOf_inRange (h : numeralOf negative significand power bytes = .ok (n, rest)) :
    n.IsInRange := by
  unfold numeralOf at h
  split at h
  · cases h
    trivial
  · cases h

theorem readExponent_inRange (h : readExponent negative significand power bytes = .ok (n, rest)) :
    n.IsInRange := by
  unfold readExponent at h
  simp only at h
  split at h
  · cases h
  split at h
  · cases h
  split at h
  · exact numeralOf_inRange h
  rcases ite_eq_iff.mp h with ⟨-, h⟩ | ⟨-, h⟩
  · cases h
  · cases h
    trivial

theorem readFraction_inRange (h : readFraction negative significand power bytes = .ok (n, rest)) :
    n.IsInRange := by
  unfold readFraction at h
  simp only at h
  split at h
  · split at h <;> cases h
  unfold readAfterFraction at h
  split at h
  · exact numeralOf_inRange h
  split at h
  · exact readExponent_inRange h
  · exact numeralOf_inRange h

theorem wholeNumeral_inRange (negative : Bool) (h : significand < Text.wordLimit) :
    (wholeNumeral negative significand).IsInRange := by
  unfold wholeNumeral
  cases negative with
  | false =>
    show -0x8000000000000000 ≤ (significand : Int) ∧ (significand : Int) < Text.wordLimit
    omega
  | true =>
    rw [if_pos rfl]
    split
    next hsmall =>
      have hlimit : (0 : Int) < Text.wordLimit := by decide
      show -0x8000000000000000 ≤ -(significand : Int) ∧ -(significand : Int) < Text.wordLimit
      omega
    · trivial

theorem readAfterWhole_inRange (hlt : significand < Text.wordLimit)
    (h : readAfterWhole negative significand dropped bytes = .ok (n, rest)) : n.IsInRange := by
  have hplain : ∀ {n bytes rest}, (if dropped = 0 then .ok (wholeNumeral negative significand, bytes)
      else numeralOf negative significand dropped bytes) = .ok (n, rest) → n.IsInRange := by
    intro n bytes rest h
    split at h
    · cases h
      exact wholeNumeral_inRange negative hlt
    · exact numeralOf_inRange h
  unfold readAfterWhole at h
  simp only at h
  split at h
  · exact hplain h
  split at h
  · exact readFraction_inRange h
  split at h
  · exact readExponent_inRange h
  · exact hplain h

theorem digitOf?_lt {b : UInt8} {d : Nat} (h : digitOf? b = some d) : d < 10 := by
  unfold digitOf? at h
  split at h
  next hb =>
    simp only [Bool.and_eq_true, decide_eq_true_eq, UInt8.le_iff_toNat_le] at hb
    have hhigh : b.toNat ≤ 0x39 := hb.2
    obtain rfl := Option.some.inj h
    omega
  · cases h

theorem readNumeral_inRange (h : readNumeral negative bytes = .ok (n, rest)) : n.IsInRange := by
  unfold readNumeral at h
  split at h
  · cases h
  split at h
  · split at h
    · split at h
      · cases h
      · exact readAfterWhole_inRange (by decide) h
    · exact readAfterWhole_inRange (by decide) h
  split at h
  · cases h
  next d hd =>
    have hlow : d < Text.wordLimit := Nat.lt_trans (digitOf?_lt hd) (by decide)
    exact readAfterWhole_inRange (takeDigits_significand_lt hlow) h

theorem Numeral.IsInRange.fits (h : n.IsInRange) : Fits nesting n.toJson := by
  cases n with
  | int i => exact .int _ h.1 h.2
  | float x => exact .float _ x

/-! ## Sequences and maps -/

/-- What holds of what an item reader gives holds of all items. -/
theorem readItems_forall {P : α → Prop} {item : Bytes → Except Fault (α × Bytes)}
    (hitem : ∀ {bytes a rest}, item bytes = .ok (a, rest) → P a) {turns : Bytes} {first : Bool}
    {as : List α} (h : readItems item turns first bytes = .ok (as, rest)) : ∀ a ∈ as, P a := by
  induction turns generalizing first bytes as rest with
  | nil => cases h
  | cons _ turns ih =>
    rw [readItems, bind_eq_ok] at h
    obtain ⟨next, -, h⟩ := h
    cases next with
    | close rest' =>
      cases h
      exact List.forall_mem_nil _
    | item bytes' =>
      simp only [bind_eq_ok] at h
      obtain ⟨⟨a, rest'⟩, ha, ⟨as', rest''⟩, has, h⟩ := h
      cases h
      exact List.forall_mem_cons.mpr ⟨hitem ha, ih has⟩

/-- What every member keeps, all keep. -/
theorem readMembers_invariant {P : σ → Prop}
    {member : σ → String → Bytes → Except Fault (σ × Bytes)}
    (hmember : ∀ {state name bytes state' rest}, member state name bytes = .ok (state', rest) →
      P state → P state')
    {turns : Bytes} {first : Bool} {state state' : σ}
    (h : readMembers member turns first state bytes = .ok (state', rest)) (hstate : P state) :
    P state' := by
  induction turns generalizing first state bytes with
  | nil => cases h
  | cons _ turns ih =>
    rw [readMembers, bind_eq_ok] at h
    obtain ⟨next, -, h⟩ := h
    cases next with
    | close rest' =>
      cases h
      exact hstate
    | name bytes' =>
      simp only [bind_eq_ok] at h
      obtain ⟨⟨name, rest'⟩, -, ⟨next, rest''⟩, hnext, h⟩ := h
      exact ih h (hmember hnext hstate)

/-- Members that were read so far, with values that fit. -/
def FitMembers (nesting : Nat) (members : List (String × Json)) : Prop :=
  (∀ m ∈ members, Fits nesting m.2) ∧ Sorted members

theorem memberInto_fits {value : Bytes → Except Fault (Json × Bytes)}
    (hvalue : ∀ {bytes v rest}, value bytes = .ok (v, rest) → Fits nesting v)
    {members members' : List (String × Json)} {name : String}
    (h : memberInto value members name bytes = .ok (members', rest))
    (hmembers : FitMembers nesting members) : FitMembers nesting members' := by
  simp only [memberInto, bind_eq_ok] at h
  obtain ⟨bytes', -, ⟨v, rest'⟩, hv, h⟩ := h
  cases h
  refine ⟨fun m hm => ?_, hmembers.2.insertMember name v⟩
  rcases mem_insertMember hm with rfl | hm
  · exact hvalue hv
  · exact hmembers.1 m hm

/-! ## Any value -/

/-- Without a bracket a value is a scalar, and `null` is the only one that begins like its name. -/
theorem readScalarOr_cases {opened : Bracket → Bytes → Except Fault (Json × Bytes)}
    (h : readScalarOr opened bytes = .ok (v, rest)) :
    (v = .null ∧ ∃ rest', skipSpace bytes = 0x6e :: rest') ∨ (v ≠ .null ∧ Fits 0 v) ∨
      ∃ bracket bytes', opened bracket bytes' = .ok (v, rest) := by
  have hnumeral : ∀ n : Numeral, n.toJson ≠ .null := by
    intro n hn
    cases n <;> cases hn
  unfold readScalarOr at h
  split at h
  · cases h
  next b rest' hskip =>
  split at h
  next hb =>
    obtain ⟨_, -, h⟩ := bind_eq_ok.mp h
    cases h
    exact .inl ⟨rfl, rest', by rw [hskip, hb]⟩
  split at h
  · obtain ⟨_, -, h⟩ := bind_eq_ok.mp h
    cases h
    exact .inr (.inl ⟨by simp, .bool 0 true⟩)
  split at h
  · obtain ⟨_, -, h⟩ := bind_eq_ok.mp h
    cases h
    exact .inr (.inl ⟨by simp, .bool 0 false⟩)
  split at h
  · obtain ⟨⟨n, rest'⟩, hn, h⟩ := bind_eq_ok.mp h
    cases h
    exact .inr (.inl ⟨hnumeral n, (readNumeral_inRange hn).fits⟩)
  split at h
  · obtain ⟨⟨n, rest'⟩, hn, h⟩ := bind_eq_ok.mp h
    cases h
    exact .inr (.inl ⟨hnumeral n, (readNumeral_inRange hn).fits⟩)
  split at h
  · obtain ⟨⟨s, rest'⟩, -, h⟩ := bind_eq_ok.mp h
    cases h
    exact .inr (.inl ⟨by simp, .str 0 s⟩)
  split at h
  · exact .inr (.inr ⟨_, _, h⟩)
  split at h
  · exact .inr (.inr ⟨_, _, h⟩)
  · cases h

theorem readScalarOr_fits {opened : Bracket → Bytes → Except Fault (Json × Bytes)}
    (hopened : ∀ {bracket bytes v rest}, opened bracket bytes = .ok (v, rest) → Fits nesting v)
    (h : readScalarOr opened bytes = .ok (v, rest)) : Fits nesting v := by
  rcases readScalarOr_cases h with ⟨rfl, -⟩ | ⟨-, hfits⟩ | ⟨bracket, bytes', h⟩
  · exact .null nesting
  · exact hfits.mono (Nat.zero_le nesting)
  · exact hopened h

/-- **What is read fits.** -/
theorem readValue_fits (h : readValue nesting bytes = .ok (v, rest)) : Fits nesting v := by
  -- what is within a bracket is read with one less
  induction nesting generalizing bytes v rest with
  | zero =>
    refine readScalarOr_fits ?_ h
    intro bracket bytes v rest h
    cases h
  | succ nesting ih =>
    refine readScalarOr_fits ?_ h
    intro bracket bytes v rest h
    cases bracket with
    | square =>
      obtain ⟨⟨items, rest'⟩, hitems, h⟩ := bind_eq_ok.mp h
      cases h
      exact .arr (readItems_forall ih hitems)
    | curly =>
      obtain ⟨⟨members, rest'⟩, hmembers, h⟩ := bind_eq_ok.mp h
      cases h
      obtain ⟨hfit, hsorted⟩ := readMembers_invariant (P := FitMembers nesting)
        (memberInto_fits ih) hmembers ⟨List.forall_mem_nil _, .nil⟩
      exact .obj hfit hsorted

/-- Only its name is read as `null`. -/
theorem readValue_null (h : readValue nesting bytes = .ok (.null, rest)) :
    ∃ rest', skipSpace bytes = 0x6e :: rest' := by
  cases nesting with
  | zero =>
    rcases readScalarOr_cases h with ⟨-, hnull⟩ | ⟨hne, -⟩ | ⟨_, _, h⟩
    · exact hnull
    · exact absurd rfl hne
    · cases h
  | succ nesting =>
    rcases readScalarOr_cases h with ⟨-, hnull⟩ | ⟨hne, -⟩ | ⟨bracket, _, h⟩
    · exact hnull
    · exact absurd rfl hne
    · cases bracket <;> (obtain ⟨_, -, h⟩ := bind_eq_ok.mp h; cases h)

/-! ## Values of a wanted kind -/

theorem wrongKind_ne_ok {expected : String} {a : α} : wrongKind expected bytes ≠ .ok a := by
  intro h
  unfold wrongKind at h
  simp only at h
  split at h
  · cases h
  repeat' split at h
  all_goals first | cases h | obtain ⟨_, -, h⟩ := bind_eq_ok.mp h; cases h

/-- A number read is what is taken of a numeral in range. -/
theorem readNumber_ok {expected : String} {take : Numeral → Except Cause α} {a : α}
    (h : readNumber expected take nesting bytes = .ok (a, rest)) :
    ∃ n : Numeral, n.IsInRange ∧ take n = .ok a := by
  unfold readNumber at h
  extract_lets taken at h
  have htaken : ∀ {numeral : Except Fault (Numeral × Bytes)},
      (∀ {n rest}, numeral = .ok (n, rest) → n.IsInRange) → taken numeral = .ok (a, rest) →
      ∃ n : Numeral, n.IsInRange ∧ take n = .ok a := by
    intro numeral hnumeral h
    obtain ⟨⟨n, rest'⟩, hn, h⟩ := bind_eq_ok.mp h
    refine ⟨n, hnumeral hn, ?_⟩
    simp only at h
    split at h
    next heq =>
      cases h
      exact heq
    · cases h
  split at h
  · cases h
  split at h
  · exact htaken readNumeral_inRange h
  split at h
  · exact htaken readNumeral_inRange h
  · exact absurd h wrongKind_ne_ok

theorem readUnsigned_lt {expected : String} {n : Nat}
    (h : readUnsigned expected nesting bytes = .ok (n, rest)) : n < Text.wordLimit := by
  obtain ⟨numeral, hrange, htake⟩ := readNumber_ok h
  split at htake
  next m =>
    cases htake
    exact Int.ofNat_lt.mp hrange.2
  · cases htake
  · cases htake

theorem readSigned_range {i : Int} (h : readSigned nesting bytes = .ok (i, rest)) :
    -0x8000000000000000 ≤ i ∧ i < 0x8000000000000000 := by
  obtain ⟨numeral, hrange, htake⟩ := readNumber_ok h
  split at htake
  next j =>
    split at htake
    next hlt =>
      cases htake
      exact ⟨hrange.1, hlt⟩
    · cases htake
  · cases htake

/-- A value that may be missing is not `null` where it is there. -/
theorem readOptional_fits (h : readOptional readValue nesting bytes = .ok (some v, rest)) :
    Fits nesting v ∧ v ≠ .null := by
  unfold readOptional at h
  split at h
  next b rest' hskip =>
    split at h
    · obtain ⟨_, -, h⟩ := bind_eq_ok.mp h
      cases h
    next hb =>
      obtain ⟨⟨v', rest''⟩, hv, h⟩ := bind_eq_ok.mp h
      cases h
      refine ⟨readValue_fits hv, ?_⟩
      -- `null` would begin with the byte that was looked at
      rintro rfl
      obtain ⟨_, hnull⟩ := readValue_null hv
      rw [skipSpace_cons (not_space_of_skipSpace hskip)] at hnull
      exact hb (List.cons.inj hnull).1
  next hskip =>
    obtain ⟨⟨v', rest'⟩, hv, h⟩ := bind_eq_ok.mp h
    cases nesting <;> cases hv

theorem readList_forall {P : α → Prop} {item : Reader α}
    (hitem : ∀ {bytes a rest}, item nesting bytes = .ok (a, rest) → P a) {as : List α}
    (h : readList item (nesting + 1) bytes = .ok (as, rest)) : ∀ a ∈ as, P a := by
  unfold readList at h
  split at h
  · cases h
  split at h
  · exact readItems_forall hitem h
  · exact absurd h wrongKind_ne_ok

theorem readMap_fits {members : List (String × Json)}
    (h : readMap (nesting + 1) bytes = .ok (members, rest)) : FitMembers nesting members := by
  unfold readMap at h
  split at h
  · cases h
  split at h
  · exact readMembers_invariant (memberInto_fits readValue_fits) h ⟨List.forall_mem_nil _, .nil⟩
  · exact absurd h wrongKind_ne_ok

/-! ## Records -/

/-- What is true of a draft stays so when the field is filled in. -/
def Field.Keeps (field : Field σ) (nesting : Nat) (P : σ → Prop) : Prop :=
  ∀ ⦃bytes fill rest draft⦄, field.read nesting bytes = .ok (fill, rest) → P draft → P (fill draft)

theorem Field.of_keeps {P : σ → Prop} {name : String} {required : Bool} {read : Reader α}
    {get : σ → Option α} {put : α → σ → σ}
    (h : ∀ ⦃bytes a rest draft⦄, read nesting bytes = .ok (a, rest) → P draft → P (put a draft)) :
    (Field.of name required read get put).Keeps nesting P := by
  intro bytes fill rest draft hread hdraft
  obtain ⟨⟨a, rest'⟩, ha, hfill⟩ := bind_eq_ok.mp hread
  cases hfill
  exact h ha hdraft

variable {P : σ → Prop} {layout : Layout σ} {draft draft' : σ}

theorem Layout.member_invariant (hfields : ∀ field ∈ layout.fields, field.Keeps nesting P)
    {name : String} (h : layout.member nesting draft name bytes = .ok (draft', rest))
    (hdraft : P draft) : P draft' := by
  unfold Layout.member at h
  split at h
  · split at h
    · cases h
    · obtain ⟨_, -, h⟩ := bind_eq_ok.mp h
      obtain ⟨_, -, h⟩ := bind_eq_ok.mp h
      cases h
      exact hdraft
  next field hfield =>
    split at h
    · cases h
    · obtain ⟨_, -, h⟩ := bind_eq_ok.mp h
      obtain ⟨⟨fill, rest'⟩, hfill, h⟩ := bind_eq_ok.mp h
      cases h
      exact hfields field (List.mem_of_find?_eq_some hfield) hfill hdraft

theorem Layout.fillItems_invariant {fields : List (Field σ)}
    (hfields : ∀ field ∈ fields, field.Keeps nesting P) {index : Nat}
    (h : layout.fillItems nesting index draft fields bytes = .ok (draft', rest))
    (hdraft : P draft) : P draft' := by
  induction fields generalizing index draft bytes with
  | nil =>
    unfold Layout.fillItems at h
    split at h
    · cases h
    split at h
    · cases h
      exact hdraft
    split at h
    · split at h
      · cases h
      · split at h <;> cases h
    · cases h
  | cons field fields ih =>
    rw [List.forall_mem_cons] at hfields
    obtain ⟨next, -, h⟩ := bind_eq_ok.mp h
    cases next with
    | close rest' =>
      simp only at h
      split at h
      · cases h
        exact hdraft
      · cases h
    | item bytes' =>
      obtain ⟨⟨fill, rest'⟩, hfill, h⟩ := bind_eq_ok.mp h
      exact ih hfields.2 h (hfields.1 hfill hdraft)

theorem settled_eq_ok {bracket : Bracket} {r : Except Fault α} {a : α} :
    settled bracket r = .ok a ↔ r = .ok a := by
  cases r <;> simp [settled]

/-- What every field keeps is true of every draft, from a map or from a sequence. -/
theorem readRecord_invariant (hfields : ∀ field ∈ layout.fields, field.Keeps nesting P)
    (hblank : P layout.blank) (h : readRecord layout (nesting + 1) bytes = .ok (draft, rest)) :
    P draft := by
  unfold readRecord at h
  split at h
  · cases h
  split at h
  · exact Layout.fillItems_invariant hfields (settled_eq_ok.mp h) hblank
  split at h
  · obtain ⟨⟨draft', rest'⟩, hmembers, h⟩ := bind_eq_ok.mp (settled_eq_ok.mp h)
    simp only at h
    split at h
    · cases h
    · cases h
      exact readMembers_invariant (Layout.member_invariant hfields) hmembers hblank
  · exact absurd h wrongKind_ne_ok

/-! ## Whole texts -/

/-- What a text decodes to is what its reader gives, with all the nesting that a text may have. -/
theorem decode_ok {reader : Reader α} {text : Bytes} {a : α} (h : decode reader text = .ok a) :
    ∃ rest, reader nestingLimit text = .ok (a, rest) := by
  unfold decode at h
  split at h
  · cases h
  next a' rest hread =>
    split at h
    · cases h
      exact ⟨rest, hread⟩
    · cases h

/-- What is true of every draft is true of what the last is completed to. -/
theorem decode_invariant {complete : σ → α} {text : Bytes} {a : α}
    (hfields : ∀ field ∈ layout.fields, field.Keeps 126 P) (hblank : P layout.blank)
    (h : decode (readAs layout complete) text = .ok a) : ∃ draft, P draft ∧ complete draft = a := by
  obtain ⟨rest, h⟩ := decode_ok h
  obtain ⟨⟨draft, rest'⟩, hdraft, h⟩ := bind_eq_ok.mp h
  cases h
  exact ⟨draft, readRecord_invariant hfields hblank hdraft, rfl⟩

end ClusterOutput.Json
