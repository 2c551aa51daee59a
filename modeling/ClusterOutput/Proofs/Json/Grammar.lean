/-
The syntax of JSON text (`IsValue`), apart from anything that reads it. Strings are any
bytes but controls, with escapes; numbers have no range; and brackets may be nested as
deep as one likes.

Items and members are kept with the white space that stands around them, and the text of
a sequence or a map is put in front of what follows it (`itemsThen`, `membersThen`).
-/
import ClusterOutput.Json.Read
import ClusterOutput.Proofs.Json.Words
import Mathlib.Data.List.TakeWhile

namespace ClusterOutput.Json

variable {bytes rest text spacing digits : Bytes} {b : UInt8}

/-! ## White space -/

/-- Nothing but white space. -/
def IsSpacing (bytes : Bytes) : Prop := ∀ b ∈ bytes, isSpaceByte b = true

instance (bytes : Bytes) : Decidable (IsSpacing bytes) :=
  inferInstanceAs (Decidable (∀ b ∈ bytes, isSpaceByte b = true))

theorem IsSpacing.nil : IsSpacing [] := List.forall_mem_nil _

theorem skipSpace_append (h : IsSpacing spacing) (bytes : Bytes) :
    skipSpace (spacing ++ bytes) = skipSpace bytes := List.dropWhile_append_of_pos h

theorem skipSpace_split (bytes : Bytes) :
    ∃ spacing, IsSpacing spacing ∧ bytes = spacing ++ skipSpace bytes :=
  ⟨bytes.takeWhile isSpaceByte, fun _ hb => List.mem_takeWhile_imp hb,
    List.takeWhile_append_dropWhile.symm⟩

/-- White space in front of a byte that is none. -/
theorem skipSpace_eq_cons (h : skipSpace bytes = b :: rest) :
    ∃ spacing, IsSpacing spacing ∧ bytes = spacing ++ b :: rest ∧ isSpaceByte b = false := by
  obtain ⟨spacing, hspacing, hbytes⟩ := skipSpace_split bytes
  exact ⟨spacing, hspacing, h ▸ hbytes, not_space_of_skipSpace h⟩

theorem skipSpace_append_cons (hspacing : IsSpacing spacing) (hb : isSpaceByte b = false)
    (rest : Bytes) : skipSpace (spacing ++ b :: rest) = b :: rest := by
  rw [skipSpace_append hspacing, skipSpace_cons hb]

/-- Behind white space bytes have one beginning. -/
theorem spacing_unique {spacing' rest' : Bytes} {b' : UInt8} (hspacing : IsSpacing spacing)
    (hspacing' : IsSpacing spacing') (hb : isSpaceByte b = false) (hb' : isSpaceByte b' = false)
    (heq : spacing ++ b :: rest = spacing' ++ b' :: rest') : b = b' ∧ rest = rest' := by
  have hskip := congrArg skipSpace heq
  rw [skipSpace_append_cons hspacing hb, skipSpace_append_cons hspacing' hb'] at hskip
  exact List.cons.inj hskip

theorem isSpaceByte_cases (h : isSpaceByte b = true) : b = 0x20 ∨ b = 0x0a ∨ b = 0x09 ∨ b = 0x0d := by
  simpa [isSpaceByte, or_assoc] using h

theorem EndsNumber.behind_spacing (hspacing : IsSpacing spacing) (h : EndsNumber bytes) :
    EndsNumber (spacing ++ bytes) := by
  cases spacing with
  | nil => exact h
  | cons b spacing =>
    refine .cons ?_ _
    rcases isSpaceByte_cases (hspacing b List.mem_cons_self) with rfl | rfl | rfl | rfl <;> decide

/-- What was read as a name is the name. -/
theorem ident_of_readIdent {name : Bytes} (h : readIdent name bytes = .ok rest) :
    bytes = name ++ rest := by
  induction name generalizing bytes with
  | nil => exact Except.ok.inj h
  | cons b name ih =>
    cases bytes with
    | nil => cases h
    | cons b' bytes =>
      rw [readIdent] at h
      split at h
      next hb => rw [hb, ih h, List.cons_append]
      · cases h

/-! ## Words -/

/-- Nothing but decimal digits. -/
def AreDigits (bytes : Bytes) : Prop := ∀ b ∈ bytes, isDigit b = true

/-- The digits of a number in front of its point: no zero stands ahead of others. -/
inductive IsWhole : Bytes → Prop
  | zero : IsWhole [0x30]
  | digits {b : UInt8} {bytes : Bytes} (hb : isDigit b = true) (hzero : b ≠ 0x30)
    (hbytes : AreDigits bytes) : IsWhole (b :: bytes)

inductive IsFraction : Bytes → Prop
  | none : IsFraction []
  | digits {b : UInt8} {bytes : Bytes} (hb : isDigit b = true) (hbytes : AreDigits bytes) :
    IsFraction (0x2e :: b :: bytes)

inductive IsExponent : Bytes → Prop
  | none : IsExponent []
  | digits {mark b : UInt8} {sign bytes : Bytes} (hmark : isExponentMark mark = true)
    (hsign : sign = [] ∨ sign = [0x2b] ∨ sign = [0x2d]) (hb : isDigit b = true)
    (hbytes : AreDigits bytes) : IsExponent (mark :: (sign ++ b :: bytes))

/-- The bytes do not begin with a digit. -/
def NoDigit (bytes : Bytes) : Prop := ∀ b ∈ bytes.head?, isDigit b = false

theorem EndsNumber.noDigit (h : EndsNumber bytes) : NoDigit bytes := fun b hb => (h b hb).1

theorem NoDigit.nil : NoDigit [] := fun b hb => absurd hb (Option.not_mem_none b)

theorem NoDigit.cons (hb : isDigit b = false) (bytes : Bytes) : NoDigit (b :: bytes) := by
  rintro _ ⟨⟩
  exact hb

theorem dropWhile_digits (hdigits : AreDigits digits) (hrest : NoDigit rest) :
    (digits ++ rest).dropWhile isDigit = rest := by
  rw [List.dropWhile_append_of_pos hdigits]
  cases rest with
  | nil => rfl
  | cons b rest => exact List.dropWhile_cons_of_neg (Bool.eq_false_iff.mp (hrest b rfl))

/-- A run of digits up to the next byte that is none. -/
theorem digits_split (bytes : Bytes) : ∃ digits, AreDigits digits ∧
    bytes = digits ++ bytes.dropWhile isDigit ∧ NoDigit (bytes.dropWhile isDigit) := by
  refine ⟨bytes.takeWhile isDigit, fun _ hb => List.mem_takeWhile_imp hb,
    List.takeWhile_append_dropWhile.symm, fun b hb => ?_⟩
  have hhead := List.head?_dropWhile_not isDigit bytes
  rwa [Option.mem_def.mp hb] at hhead

theorem exponentMark_cases (h : isExponentMark b = true) : b = 0x65 ∨ b = 0x45 := by
  simpa [isExponentMark] using h

theorem ne_point (h : isExponentMark b = true) : b ≠ 0x2e := by
  rintro rfl
  exact absurd h (by decide)

theorem IsExponent.noDigit (h : IsExponent text) (hrest : NoDigit rest) : NoDigit (text ++ rest) := by
  cases h with
  | none => exact hrest
  | digits hmark =>
    refine .cons ?_ _
    rcases exponentMark_cases hmark with rfl | rfl <;> rfl

theorem IsFraction.noDigit (h : IsFraction text) (hrest : NoDigit rest) : NoDigit (text ++ rest) := by
  cases h with
  | none => exact hrest
  | digits => exact .cons rfl _

/-- A number behind its minus sign, where it has one. -/
inductive IsUnsigned : Bytes → Prop
  | parts {whole fraction exponent : Bytes} (hwhole : IsWhole whole) (hfraction : IsFraction fraction)
    (hexponent : IsExponent exponent) : IsUnsigned (whole ++ (fraction ++ exponent))

/-- A string behind its opening quote, with its closing one. -/
inductive IsQuoted : Bytes → Prop
  | close : IsQuoted [quoteByte]
  | plain {b : UInt8} {bytes : Bytes} (hb : isPlainByte b = true) (hbytes : IsQuoted bytes) :
    IsQuoted (b :: bytes)
  | short {b : UInt8} {bytes : Bytes} (hb : (shortEscape? b).isSome = true)
    (hbytes : IsQuoted bytes) : IsQuoted (backslashByte :: b :: bytes)
  | hex {h₁ h₂ h₃ h₄ : UInt8} {bytes : Bytes} (h : (hexValue? h₁ h₂ h₃ h₄).isSome = true)
    (hbytes : IsQuoted bytes) :
    IsQuoted (backslashByte :: 0x75 :: h₁ :: h₂ :: h₃ :: h₄ :: bytes)

/-! ## Sequences and maps -/

/-- The text of an item, with the white space around it. -/
structure ItemText where
  before : Bytes
  text : Bytes
  after : Bytes

structure ItemText.IsSpaced (i : ItemText) : Prop where
  before : IsSpacing i.before
  after : IsSpacing i.after

/-- The text of a member: its name behind the opening quote, its value, and the white space around
the name, the colon and the value. -/
structure MemberText where
  before : Bytes
  quoted : Bytes
  gap : Bytes
  behind : Bytes
  text : Bytes
  after : Bytes

structure MemberText.IsSpaced (m : MemberText) : Prop where
  before : IsSpacing m.before
  gap : IsSpacing m.gap
  behind : IsSpacing m.behind
  after : IsSpacing m.after

instance (m : MemberText) : Decidable m.IsSpaced :=
  decidable_of_iff (IsSpacing m.before ∧ IsSpacing m.gap ∧ IsSpacing m.behind ∧ IsSpacing m.after)
    ⟨fun ⟨hbefore, hgap, hbehind, hafter⟩ => ⟨hbefore, hgap, hbehind, hafter⟩,
      fun ⟨hbefore, hgap, hbehind, hafter⟩ => ⟨hbefore, hgap, hbehind, hafter⟩⟩

/-- An item in front of what follows. -/
def ItemText.andThen (i : ItemText) (rest : Bytes) : Bytes := i.before ++ (i.text ++ (i.after ++ rest))

/-- What stands behind the name of a member, in front of what follows. -/
def MemberText.valueThen (m : MemberText) (rest : Bytes) : Bytes :=
  m.gap ++ colonByte :: (m.behind ++ (m.text ++ (m.after ++ rest)))

/-- A member in front of what follows. -/
def MemberText.andThen (m : MemberText) (rest : Bytes) : Bytes :=
  m.before ++ quoteByte :: (m.quoted ++ m.valueThen rest)

/-- Further items and the bracket, in front of what follows. -/
def moreItemsThen : List ItemText → Bytes → Bytes
  | [], rest => closeSquare :: rest
  | i :: items, rest => commaByte :: i.andThen (moreItemsThen items rest)

/-- A sequence behind its bracket, in front of what follows. -/
def itemsThen (gap : Bytes) : List ItemText → Bytes → Bytes
  | [], rest => gap ++ closeSquare :: rest
  | i :: items, rest => i.andThen (moreItemsThen items rest)

/-- Further members and the bracket, in front of what follows. -/
def moreMembersThen : List MemberText → Bytes → Bytes
  | [], rest => closeCurly :: rest
  | m :: members, rest => commaByte :: m.andThen (moreMembersThen members rest)

/-- A map behind its bracket, in front of what follows. -/
def membersThen (gap : Bytes) : List MemberText → Bytes → Bytes
  | [], rest => gap ++ closeCurly :: rest
  | m :: members, rest => m.andThen (moreMembersThen members rest)

theorem moreItemsThen_append (items : List ItemText) (bytes rest : Bytes) :
    moreItemsThen items bytes ++ rest = moreItemsThen items (bytes ++ rest) := by
  induction items with
  | nil => rfl
  | cons i items ih => simp only [moreItemsThen, ItemText.andThen, List.cons_append,
      List.append_assoc, ih]

theorem itemsThen_append (gap : Bytes) (items : List ItemText) (rest : Bytes) :
    itemsThen gap items [] ++ rest = itemsThen gap items rest := by
  cases items with
  | nil => simp [itemsThen]
  | cons i items => simp [itemsThen, ItemText.andThen, moreItemsThen_append]

theorem moreMembersThen_append (members : List MemberText) (bytes rest : Bytes) :
    moreMembersThen members bytes ++ rest = moreMembersThen members (bytes ++ rest) := by
  induction members with
  | nil => rfl
  | cons m members ih => simp only [moreMembersThen, MemberText.andThen, MemberText.valueThen,
      List.cons_append, List.append_assoc, ih]

theorem membersThen_append (gap : Bytes) (members : List MemberText) (rest : Bytes) :
    membersThen gap members [] ++ rest = membersThen gap members rest := by
  cases members with
  | nil => simp [membersThen]
  | cons m members => simp [membersThen, MemberText.andThen, MemberText.valueThen,
      moreMembersThen_append]

/-! ## Values -/

/-- The bytes are the text of a value. -/
inductive IsValue : Bytes → Prop
  | nullName : IsValue (0x6e :: nullTail)
  | trueName : IsValue (0x74 :: trueTail)
  | falseName : IsValue (0x66 :: falseTail)
  | unsigned {text : Bytes} (h : IsUnsigned text) : IsValue text
  | negative {text : Bytes} (h : IsUnsigned text) : IsValue (0x2d :: text)
  | string {text : Bytes} (h : IsQuoted text) : IsValue (quoteByte :: text)
  | sequence {gap : Bytes} {items : List ItemText} (hgap : IsSpacing gap)
    (hspaced : ∀ i ∈ items, i.IsSpaced) (hitems : ∀ i ∈ items, IsValue i.text) :
    IsValue (openSquare :: itemsThen gap items [])
  | map {gap : Bytes} {members : List MemberText} (hgap : IsSpacing gap)
    (hspaced : ∀ m ∈ members, m.IsSpaced) (hnames : ∀ m ∈ members, IsQuoted m.quoted)
    (hmembers : ∀ m ∈ members, IsValue m.text) : IsValue (openCurly :: membersThen gap members [])

theorem IsUnsigned.head (h : IsUnsigned text) : ∃ b bytes, text = b :: bytes ∧ isDigit b = true := by
  obtain ⟨hwhole, -, -⟩ := h
  cases hwhole with
  | zero => exact ⟨_, _, rfl, rfl⟩
  | digits hb => exact ⟨_, _, rfl, hb⟩

theorem isSpaceByte_digit (h : isDigit b = true) : isSpaceByte b = false := by
  rw [Bool.eq_false_iff]
  intro hspace
  rcases isSpaceByte_cases hspace with rfl | rfl | rfl | rfl <;> exact absurd h (by decide)

/-- A value begins with no white space and no closing bracket. -/
theorem IsValue.head (h : IsValue text) :
    ∃ b bytes, text = b :: bytes ∧ isSpaceByte b = false ∧ b ≠ closeSquare := by
  cases h with
  | unsigned h =>
    obtain ⟨b, bytes, rfl, hb⟩ := h.head
    refine ⟨b, bytes, rfl, isSpaceByte_digit hb, ?_⟩
    rintro rfl
    exact absurd hb (by decide)
  | nullName | trueName | falseName | negative | string | sequence | map =>
    exact ⟨_, _, rfl, by decide, by decide⟩

theorem IsValue.skipSpace_eq (h : IsValue text) (hspacing : IsSpacing spacing) (rest : Bytes) :
    skipSpace (spacing ++ (text ++ rest)) = text ++ rest := by
  obtain ⟨b, bytes, rfl, hb, -⟩ := h.head
  exact skipSpace_append_cons hspacing hb _

/-! ## What ends a number -/

theorem moreItemsThen_ends (items : List ItemText) (rest : Bytes) :
    EndsNumber (moreItemsThen items rest) := by
  cases items <;> exact .cons (by decide) _

theorem moreMembersThen_ends (members : List MemberText) (rest : Bytes) :
    EndsNumber (moreMembersThen members rest) := by
  cases members <;> exact .cons (by decide) _

end ClusterOutput.Json
