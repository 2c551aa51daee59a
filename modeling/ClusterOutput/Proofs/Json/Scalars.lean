/-
Which texts stand for `null`, for a whole number and for a string: `null` is its name
alone (`whole?_null`), and whole numbers are the decimal texts of 64 bits, with a minus
sign below zero (`whole?_int`). With a point, an exponent or more digits a number is a
float, and so is zero with a minus sign.
-/
import ClusterOutput.Proofs.Json.Readers
import ClusterOutput.Proofs.Json.Rereading

namespace ClusterOutput.Json

open Utf8 (encodeChars)

variable {bytes rest text : Bytes} {b : UInt8} {negative : Bool}
  {significand taken dropped d n nesting : Nat} {power i : Int} {numeral : Numeral}

/-! ## Floats -/

theorem numeralOf_float (h : numeralOf negative significand power bytes = .ok (numeral, rest)) :
    ∃ x, numeral = .float x := by
  unfold numeralOf at h
  split at h
  next x _ =>
    cases h
    exact ⟨x, rfl⟩
  · cases h

theorem readExponent_float (h : readExponent negative significand power bytes = .ok (numeral, rest)) :
    ∃ x, numeral = .float x := by
  rw [readExponent_eq] at h
  unfold readUnsignedExponent at h
  split at h
  · cases h
  split at h
  · cases h
  split at h
  · exact numeralOf_float h
  split at h
  · cases h
  · cases h
    exact ⟨_, rfl⟩

theorem readFraction_float (h : readFraction negative significand power bytes = .ok (numeral, rest)) :
    ∃ x, numeral = .float x := by
  unfold readFraction at h
  simp only at h
  split at h
  · split at h <;> cases h
  unfold readAfterFraction at h
  split at h
  · exact numeralOf_float h
  split at h
  · exact readExponent_float h
  · exact numeralOf_float h

/-! ## Whole numbers -/

/-- Only a whole part by itself is a whole number, and only if no digit of it was dropped. -/
theorem readAfterWhole_int (h : readAfterWhole negative significand dropped bytes = .ok (.int i, rest)) :
    dropped = 0 ∧ rest = bytes ∧ wholeNumeral negative significand = .int i := by
  have hplain : plainNumeral negative significand dropped bytes = .ok (.int i, rest) →
      dropped = 0 ∧ rest = bytes ∧ wholeNumeral negative significand = .int i := by
    intro h
    unfold plainNumeral at h
    split at h
    next hdropped =>
      obtain ⟨hwhole, hrest⟩ := Prod.mk.inj (Except.ok.inj h)
      exact ⟨hdropped, hrest.symm, hwhole⟩
    · obtain ⟨x, hx⟩ := numeralOf_float h
      cases hx
  cases bytes with
  | nil => exact hplain h
  | cons b bytes =>
    rw [readAfterWhole] at h
    split at h
    · obtain ⟨x, hx⟩ := readFraction_float h
      cases hx
    split at h
    · obtain ⟨x, hx⟩ := readExponent_float h
      cases hx
    · exact hplain h

theorem digitByte_of_digitOf? (h : digitOf? b = some d) : b = digitByte d := by
  unfold digitOf? at h
  split at h
  next hb =>
    obtain rfl := Option.some.inj h
    simp only [Bool.and_eq_true, decide_eq_true_eq, UInt8.le_iff_toNat_le] at hb
    have hlow : 0x30 ≤ b.toNat := hb.1
    rw [digitByte, Nat.add_sub_cancel' hlow]
    exact UInt8.ofNat_toNat.symm
  · cases h

/-- Behind a digit, the text of a number goes on with the next. -/
theorem digits_succ (hpos : 0 < n) (hd : d < 10) :
    encodeChars (Text.digits (n * 10 + d)) = encodeChars (Text.digits n) ++ [digitByte d] := by
  have hsplit : Text.digits (n * 10 + d) = Text.digits n ++ [d.digitChar] := by
    rw [Text.digits, Nat.toDigits_eq_if (by decide), if_neg (by omega)]
    rw [show (n * 10 + d) / 10 = n by omega, show (n * 10 + d) % 10 = d by omega]
    rfl
  rw [hsplit, Utf8.encodeChars_append]
  exact congrArg (_ ++ ·) ((List.append_nil _).trans (encodeChar_digitChar d hd))

/-- Digits that were all taken are those of the number they gave. -/
theorem takeDigits_digits (hpos : 0 < n) (hdropped : (takeDigits n taken bytes).dropped = 0) :
    encodeChars (Text.digits n) ++ bytes =
      encodeChars (Text.digits (takeDigits n taken bytes).significand) ++
        (takeDigits n taken bytes).rest := by
  fun_induction takeDigits n taken bytes with
  | case1 | case2 => rfl
  | case3 n taken b bytes d hd hlt ih =>
    rw [← ih (by omega) hdropped, digits_succ hpos (digitOf?_lt hd), List.append_assoc,
      digitByte_of_digitOf? hd]
    rfl
  | case4 =>
    exact absurd hdropped (Nat.ne_of_gt le_dropDigits_dropped)

/-- **A number that was read as a whole one was written with its digits.** -/
theorem readNumeral_int (h : readNumeral negative bytes = .ok (.int i, rest)) :
    ∃ n < Text.wordLimit, bytes = encodeChars (Text.digits n) ++ rest ∧
      wholeNumeral negative n = .int i := by
  unfold readNumeral at h
  split at h
  · cases h
  next b bytes =>
  split at h
  next hb =>
    have hafter : readAfterWhole negative 0 0 bytes = .ok (.int i, rest) := by
      split at h
      · split at h
        · cases h
        · exact h
      · exact h
    obtain ⟨-, rfl, hwhole⟩ := readAfterWhole_int hafter
    exact ⟨0, by decide, by rw [hb]; rfl, hwhole⟩
  next hb =>
  split at h
  · cases h
  next d hd =>
    have hlt := digitOf?_lt hd
    have hpos : 0 < d := by
      refine Nat.pos_of_ne_zero ?_
      rintro rfl
      exact hb (digitByte_of_digitOf? hd)
    obtain ⟨hdropped, rfl, hwhole⟩ := readAfterWhole_int h
    refine ⟨_, takeDigits_significand_lt (Nat.lt_trans hlt (by decide)), ?_, hwhole⟩
    rw [← takeDigits_digits hpos hdropped, digitByte_of_digitOf? hd, Text.digits,
      Nat.toDigits_of_lt_base hlt]
    exact congrArg (· ++ _) ((List.append_nil _).trans (encodeChar_digitChar d hlt)).symm

/-! ## Scalars -/

/-- The bytes are the text of a scalar, in front of `rest`. -/
inductive IsScalarText (rest : Bytes) : Bytes → Json → Prop
  | null : IsScalarText rest (0x6e :: (nullTail ++ rest)) .null
  | bool (bytes : Bytes) (b : Bool) : IsScalarText rest bytes (.bool b)
  | negative {bytes : Bytes} {n : Numeral} (h : readNumeral true bytes = .ok (n, rest)) :
    IsScalarText rest (0x2d :: bytes) n.toJson
  | unsigned {bytes : Bytes} {n : Numeral} (h : readNumeral false bytes = .ok (n, rest)) :
    IsScalarText rest bytes n.toJson
  | string {bytes : Bytes} {s : String} (h : readString bytes = .ok (s, rest)) :
    IsScalarText rest (quoteByte :: bytes) (.str s)

variable {v : Json}

theorem isScalarText_of_readScalarOr {opened : Bracket → Bytes → Except Fault (Json × Bytes)}
    (hskip : skipSpace bytes = bytes) (h : readScalarOr opened bytes = .ok (v, rest)) :
    IsScalarText rest bytes v ∨ ∃ bracket bytes', opened bracket bytes' = .ok (v, rest) := by
  unfold readScalarOr at h
  rw [hskip] at h
  split at h
  · cases h
  next b bytes =>
  split at h
  next hb =>
    obtain ⟨rest', hident, h⟩ := bind_eq_ok.mp h
    cases h
    rw [hb, ident_of_readIdent hident]
    exact .inl .null
  split at h
  · obtain ⟨_, -, h⟩ := bind_eq_ok.mp h
    cases h
    exact .inl (.bool _ true)
  split at h
  · obtain ⟨_, -, h⟩ := bind_eq_ok.mp h
    cases h
    exact .inl (.bool _ false)
  split at h
  next hb =>
    obtain ⟨⟨n, rest'⟩, hn, h⟩ := bind_eq_ok.mp h
    cases h
    exact .inl (hb ▸ .negative hn)
  split at h
  · obtain ⟨⟨n, rest'⟩, hn, h⟩ := bind_eq_ok.mp h
    cases h
    exact .inl (.unsigned hn)
  split at h
  next hb =>
    obtain ⟨⟨s, rest'⟩, hs, h⟩ := bind_eq_ok.mp h
    cases h
    exact .inl (hb ▸ .string hs)
  split at h
  · exact .inr ⟨_, _, h⟩
  split at h
  · exact .inr ⟨_, _, h⟩
  · cases h

/-- The value is no sequence and no map. -/
def IsScalar : Json → Prop
  | .arr _ => False
  | .obj _ => False
  | _ => True

theorem isScalarText_of_whole? (htext : IsValue text) (hv : IsScalar v)
    (h : whole? (readValue nesting) text = some v) : IsScalarText [] text v := by
  have hskip := htext.skipSpace_eq .nil []
  rw [List.append_nil, List.nil_append] at hskip
  rw [whole?_eq_some] at h
  cases nesting with
  | zero =>
    rcases isScalarText_of_readScalarOr hskip h with h | ⟨_, _, h⟩
    · exact h
    · cases h
  | succ nesting =>
    rcases isScalarText_of_readScalarOr hskip h with h | ⟨bracket, _, h⟩
    · exact h
    · cases bracket with
      | square =>
        obtain ⟨⟨_, _⟩, -, h⟩ := bind_eq_ok.mp h
        cases h
        cases hv
      | curly =>
        obtain ⟨⟨_, _⟩, -, h⟩ := bind_eq_ok.mp h
        cases h
        cases hv

/-- What is written without a float is read by itself. -/
theorem whole?_write (hfits : Fits nesting v) (hv : v.isFloatless = true) :
    whole? (readValue nesting) (encodeChars v.write) = some v := by
  rw [whole?_eq_some, write_eq_spell 0]
  refine readValue_takes hfits hv Style.plain 0 ?_ .nil
  exact (congrArg skipSpace (List.append_nil _)).symm.trans (skipSpace_spell hv [])

theorem toJson_eq_int {n : Numeral} : n.toJson = .int i ↔ n = .int i := by
  cases n <;> simp [Numeral.toJson]

/-- **The name `null` alone is read as `null`.** -/
theorem whole?_null (htext : IsValue text) :
    whole? (readValue nesting) text = some .null ↔ text = encodeChars nullChars := by
  constructor
  · intro h
    generalize hv : Json.null = v at h
    have hscalar : IsScalar v := hv ▸ trivial
    cases isScalarText_of_whole? htext hscalar h with
    | null => rfl
    | @negative _ n | @unsigned _ n => cases n <;> cases hv
    | _ => cases hv
  · rintro rfl
    have hwrite : Json.null.write = nullChars := by rw [write]
    rw [← hwrite]
    exact whole?_write (.null nesting) rfl

theorem intChars_of_wholeNumeral {n : Nat} (h : wholeNumeral true n = .int i) :
    intChars i = '-' :: Text.digits n := by
  unfold wholeNumeral at h
  rw [if_pos rfl] at h
  split at h
  next hn =>
    cases h
    obtain ⟨m, rfl⟩ := Nat.exists_eq_succ_of_ne_zero (Nat.ne_of_gt hn.1)
    rfl
  · cases h

/-- **The decimal text of a number of 64 bits alone is read as a whole number.** -/
theorem whole?_int (htext : IsValue text) : whole? (readValue nesting) text = some (.int i) ↔
    -0x8000000000000000 ≤ i ∧ i < Text.wordLimit ∧ text = encodeChars (intChars i) := by
  constructor
  · intro h
    obtain ⟨hlow, hhigh⟩ : -0x8000000000000000 ≤ i ∧ i < Text.wordLimit := by
      cases readValue_fits (whole?_eq_some.mp h) with
      | int _ hlow hhigh => exact ⟨hlow, hhigh⟩
    refine ⟨hlow, hhigh, ?_⟩
    generalize hv : Json.int i = v at h
    have hscalar : IsScalar v := hv ▸ trivial
    cases isScalarText_of_whole? htext hscalar h with
    | negative hread =>
      rw [toJson_eq_int.mp hv.symm] at hread
      obtain ⟨n, -, rfl, hwhole⟩ := readNumeral_int hread
      rw [intChars_of_wholeNumeral hwhole, List.append_nil]
      rfl
    | unsigned hread =>
      rw [toJson_eq_int.mp hv.symm] at hread
      obtain ⟨n, -, rfl, hwhole⟩ := readNumeral_int hread
      cases hwhole
      exact List.append_nil _
    | _ => cases hv
  · rintro ⟨hlow, hhigh, rfl⟩
    have hwrite : (Json.int i).write = intChars i := by rw [write]
    rw [← hwrite]
    exact whole?_write (.int nesting hlow hhigh) rfl

/-- Zero with a minus sign is a float, and so is one with a point. -/
example : ["0", "-0", "1", "1.0"].map
    (fun text => (whole? (readValue 0) (Utf8.encode text)).map isFloatless) =
      [some true, some false, some true, some false] := by decide +kernel

theorem whole?_count (htext : IsValue text) : whole? (readValue nesting) text = some (.int n) ↔
    n < Text.wordLimit ∧ text = encodeChars (Text.digits n) := by
  rw [whole?_int htext]
  constructor
  · rintro ⟨-, hn, hdigits⟩
    exact ⟨Int.ofNat_lt.mp hn, hdigits⟩
  · rintro ⟨hn, hdigits⟩
    exact ⟨by omega, Int.ofNat_lt.mpr hn, hdigits⟩

theorem isValue_int (hlow : -0x8000000000000000 ≤ i) (hhigh : i < Text.wordLimit) :
    IsValue (encodeChars (intChars i)) := by
  rw [← List.append_nil (encodeChars (intChars i))]
  rcases intChars_read hlow hhigh .nil with ⟨bytes, heq, hread⟩ | ⟨b, bytes, -, heq, hread⟩
  · obtain ⟨text, htext, hbytes, -⟩ := readNumeral_reads true hread
    rw [heq, hbytes, List.append_nil]
    exact .negative htext
  · obtain ⟨text, htext, hbytes, -⟩ := readNumeral_reads false hread
    rw [heq, hbytes, List.append_nil]
    exact .unsigned htext

/-- **A string alone is read as what its quotes enclose.** -/
theorem whole?_str (htext : IsValue text) {s : String} :
    whole? (readValue nesting) text = some (.str s) ↔
      ∃ quoted, text = quoteByte :: quoted ∧ whole? readString quoted = some s := by
  constructor
  · intro h
    generalize hv : Json.str s = v at h
    have hscalar : IsScalar v := hv ▸ trivial
    cases isScalarText_of_whole? htext hscalar h with
    | string hread =>
      cases hv
      exact ⟨_, rfl, whole?_eq_some.mpr hread⟩
    | @negative _ n | @unsigned _ n => cases n <;> cases hv
    | _ => cases hv
  · rintro ⟨quoted, rfl, hread⟩
    have hstring : ∀ opened, readScalarOr opened (quoteByte :: quoted) = .ok (.str s, []) := by
      intro opened
      unfold readScalarOr
      rw [skipSpace_cons (by decide)]
      exact bind_eq_ok.mpr ⟨(s, []), whole?_eq_some.mp hread, rfl⟩
    rw [whole?_eq_some]
    cases nesting with
    | zero => exact hstring _
    | succ nesting => exact hstring _

theorem isValue_str {quoted : Bytes} {s : String} (h : whole? readString quoted = some s) :
    IsValue (quoteByte :: quoted) := by
  obtain ⟨text, htext, hbytes, -⟩ := readString_reads (whole?_eq_some.mp h)
  rw [hbytes, List.append_nil]
  exact .string htext

end ClusterOutput.Json
