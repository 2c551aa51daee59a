/-
The words of JSON text are read as what they were written for: names, whole numbers of
64 bits (`readNumeral_digits`) and strings (`readString_writeString`).

A number ends where no digit, point or exponent mark follows. Of a string each
character is read by itself, as it is or by its escape.
-/
import ClusterOutput.Json.Lexeme
import ClusterOutput.Json.Write
import ClusterOutput.Proofs.Text.Utf8

namespace ClusterOutput.Json

open Utf8 (encodeChar encodeChars)

variable {cs : List Char} {bytes rest : Bytes} {b : UInt8}

/-! ## White space and names -/

/-- A space or a newline. -/
def isSpacing (c : Char) : Bool := c == ' ' || c == '\n'

theorem skipSpace_spacing (h : ∀ c ∈ cs, isSpacing c = true) (bytes : Bytes) :
    skipSpace (encodeChars cs ++ bytes) = skipSpace bytes := by
  induction cs with
  | nil => rfl
  | cons c cs ih =>
    rw [List.forall_mem_cons] at h
    have hc : c = ' ' ∨ c = '\n' := by simpa [isSpacing] using h.1
    rcases hc with rfl | rfl
    · exact ih h.2
    · exact ih h.2

theorem skipSpace_cons (h : isSpaceByte b = false) (bytes : Bytes) :
    skipSpace (b :: bytes) = b :: bytes := by
  simp [skipSpace, h]

theorem not_space_of_skipSpace (h : skipSpace bytes = b :: rest) : isSpaceByte b = false := by
  induction bytes with
  | nil => cases h
  | cons b' bytes ih =>
    rw [skipSpace, List.dropWhile_cons] at h
    split at h
    · exact ih h
    next hb =>
      cases h
      exact Bool.eq_false_iff.mpr hb

theorem readIdent_append (name rest : Bytes) : readIdent name (name ++ rest) = .ok rest := by
  induction name with
  | nil => rfl
  | cons b name ih =>
    rw [List.cons_append, readIdent, if_pos rfl]
    exact ih

/-! ## Whole numbers -/

/-- A number does not go on with these bytes. -/
def EndsNumber (bytes : Bytes) : Prop :=
  ∀ b ∈ bytes.head?, isDigit b = false ∧ b ≠ 0x2e ∧ isExponentMark b = false

theorem EndsNumber.nil : EndsNumber [] := by
  intro b hb
  cases hb

theorem EndsNumber.cons (h : isDigit b = false ∧ b ≠ 0x2e ∧ isExponentMark b = false)
    (bytes : Bytes) : EndsNumber (b :: bytes) := by
  intro b' hb'
  obtain rfl := Option.some.inj hb'
  exact h

/-- The byte of a decimal digit. -/
def digitByte (d : Nat) : UInt8 := (0x30 + d).toUInt8

theorem encodeChar_digitChar : ∀ d < 10, encodeChar d.digitChar = [digitByte d] := by decide

theorem digitOf?_digitByte : ∀ d < 10, digitOf? (digitByte d) = some d := by decide

theorem isDigit_digitByte : ∀ d < 10, isDigit (digitByte d) = true := by decide

theorem digitOf?_eq_none (h : isDigit b = false) : digitOf? b = none :=
  if_neg (Bool.eq_false_iff.mp h)

theorem takeDigits_end (hrest : EndsNumber rest) (n taken : Nat) :
    takeDigits n taken rest = ⟨n, taken, 0, rest⟩ := by
  cases rest with
  | nil => rfl
  | cons b rest =>
    rw [takeDigits, digitOf?_eq_none (hrest b rfl).1]

theorem takeDigits_digit {n d : Nat} (hd : d < 10) (hn : n * 10 + d < Text.wordLimit) (taken : Nat)
    (bytes : Bytes) :
    takeDigits n taken (digitByte d :: bytes) = takeDigits (n * 10 + d) (taken + 1) bytes := by
  rw [takeDigits, digitOf?_digitByte d hd]
  exact if_pos hn

/-- The digits of a number behind its first, which is not zero. Taken after it, they give the
number. -/
theorem digits_take {n : Nat} (hpos : 0 < n) (hlt : n < Text.wordLimit) :
    ∃ d ds, 0 < d ∧ d < 10 ∧ Text.digits n = d.digitChar :: ds ∧
      ∀ taken bytes, takeDigits d taken (encodeChars ds ++ bytes) =
        takeDigits n (taken + ds.length) bytes := by
  induction n using Nat.strongRecOn with
  | ind n ih =>
    rw [Text.digits, Nat.toDigits_eq_if (by decide)]
    split
    next hlow => exact ⟨n, [], hpos, hlow, rfl, fun _ _ => rfl⟩
    next hlow =>
      -- the last digit is taken after those of the tenth part
      obtain ⟨d, ds, hd, hd', heq, htake⟩ := ih (n / 10) (by omega) (by omega) (by omega)
      refine ⟨d, ds ++ [(n % 10).digitChar], hd, hd', ?_, fun taken bytes => ?_⟩
      · rw [← List.cons_append, ← heq]
        rfl
      · have hmod : n % 10 < 10 := Nat.mod_lt n (by decide)
        have hn : n / 10 * 10 + n % 10 = n := by omega
        have hbytes : encodeChars (ds ++ [(n % 10).digitChar]) ++ bytes =
            encodeChars ds ++ digitByte (n % 10) :: bytes := by
          simp [encodeChars, encodeChar_digitChar _ hmod]
        rw [hbytes, htake, takeDigits_digit hmod (by omega), hn, List.length_append]
        rfl

theorem readAfterWhole_end (hrest : EndsNumber rest) (negative : Bool) (n : Nat) :
    readAfterWhole negative n 0 rest = .ok (wholeNumeral negative n, rest) := by
  cases rest with
  | nil => rfl
  | cons b rest =>
    obtain ⟨-, hpoint, hmark⟩ := hrest b rfl
    rw [readAfterWhole]
    simp only [hpoint, hmark, Bool.false_eq_true, if_false, if_true]

/-- **A whole number is read as it was written.** -/
theorem readNumeral_digits {n : Nat} (hn : n < Text.wordLimit) (hrest : EndsNumber rest)
    (negative : Bool) :
    readNumeral negative (encodeChars (Text.digits n) ++ rest) =
      .ok (wholeNumeral negative n, rest) := by
  by_cases hzero : n = 0
  · subst hzero
    show readNumeral negative (0x30 :: rest) = _
    rw [readNumeral.eq_def]
    cases rest with
    | nil => rfl
    | cons b rest =>
      obtain ⟨hdigit, -, -⟩ := hrest b rfl
      simp only [hdigit, Bool.false_eq_true, if_false, if_true]
      exact readAfterWhole_end hrest negative 0
  · obtain ⟨d, ds, hpos, hd, heq, htake⟩ := digits_take (Nat.pos_of_ne_zero hzero) hn
    have hne : digitByte d ≠ 0x30 := by
      have : ∀ d < 10, 0 < d → digitByte d ≠ 0x30 := by decide
      exact this d hd hpos
    have hbytes : encodeChars (d.digitChar :: ds) = digitByte d :: encodeChars ds :=
      congrArg (· ++ encodeChars ds) (encodeChar_digitChar d hd)
    rw [heq, hbytes, List.cons_append, readNumeral.eq_def]
    simp only [hne, digitOf?_digitByte d hd, htake, takeDigits_end hrest, if_false]
    exact readAfterWhole_end hrest negative n

/-- The text of a number begins with a digit. -/
theorem digits_head (n : Nat) : ∃ d < 10, ∃ cs, Text.digits n = d.digitChar :: cs := by
  induction n using Nat.strongRecOn with
  | ind n ih =>
    rw [Text.digits, Nat.toDigits_eq_if (by decide)]
    split
    next hlow => exact ⟨n, hlow, [], rfl⟩
    next hlow =>
      obtain ⟨d, hd, cs, heq⟩ := ih (n / 10) (by omega)
      exact ⟨d, hd, cs ++ [(n % 10).digitChar], congrArg (· ++ _) heq⟩

theorem encodeChars_digits (n : Nat) :
    ∃ d < 10, ∃ bytes, encodeChars (Text.digits n) = digitByte d :: bytes := by
  obtain ⟨d, hd, cs, heq⟩ := digits_head n
  refine ⟨d, hd, encodeChars cs, ?_⟩
  rw [heq, encodeChars, List.flatMap_cons, encodeChar_digitChar d hd]
  rfl

/-! ## Strings -/

/-- A byte that stands in a string for itself. -/
def isPlainByte (b : UInt8) : Bool := b != quoteByte && b != backslashByte && 0x20 ≤ b

theorem readStringBytes_plain {plain : Bytes} (h : ∀ b ∈ plain, isPlainByte b = true)
    (acc bytes : Bytes) :
    readStringBytes acc (plain ++ bytes) = readStringBytes (plain.reverse ++ acc) bytes := by
  induction plain generalizing acc with
  | nil => rfl
  | cons b plain ih =>
    rw [List.forall_mem_cons] at h
    obtain ⟨hb, hplain⟩ := h
    simp only [isPlainByte, Bool.and_eq_true, bne_iff_ne, decide_eq_true_eq] at hb
    obtain ⟨⟨hquote, hbackslash⟩, hcontrol⟩ := hb
    rw [List.cons_append, readStringBytes.eq_def]
    simp only [hquote, hbackslash, UInt8.not_lt.mpr hcontrol, if_false]
    rw [ih hplain, List.reverse_cons, List.append_assoc]
    rfl

theorem isPlainByte_of_le (h : 0x80 ≤ b.toNat) : isPlainByte b = true := by
  have hne : ∀ c : UInt8, c.toNat < 0x80 → b ≠ c := by
    rintro c hc rfl
    omega
  simp only [isPlainByte, Bool.and_eq_true, bne_iff_ne, decide_eq_true_eq]
  refine ⟨⟨hne _ (by decide), hne _ (by decide)⟩, ?_⟩
  rw [UInt8.le_iff_toNat_le]
  exact Nat.le_trans (by decide) h

/-- The byte of a hexadecimal digit. -/
def hexByte (d : Nat) : UInt8 := d.digitChar.toNat.toUInt8

/-- The four digits of a control character. -/
theorem hexValue?_control : ∀ n < 0x20,
    encodeChars [Nat.digitChar (n / 16), Nat.digitChar (n % 16)] =
      [hexByte (n / 16), hexByte (n % 16)] ∧
    hexValue? 0x30 0x30 (hexByte (n / 16)) (hexByte (n % 16)) = some n := by
  decide

theorem readStringBytes_short {e b : UInt8} (he : e ≠ 0x75) (h : shortEscape? e = some b)
    (acc bytes : Bytes) :
    readStringBytes acc (backslashByte :: e :: bytes) = readStringBytes (b :: acc) bytes := by
  rw [readStringBytes.eq_def]
  simp only [show backslashByte ≠ quoteByte by decide, he, h, if_false, if_true]

theorem readStringBytes_control {c : Char} (hc : c.toNat < 0x20) (acc bytes : Bytes) :
    readStringBytes acc
      (encodeChars ['\\', 'u', '0', '0', Nat.digitChar (c.toNat / 16),
        Nat.digitChar (c.toNat % 16)] ++ bytes) =
      readStringBytes ((encodeChar c).reverse ++ acc) bytes := by
  obtain ⟨hdigits, hvalue⟩ := hexValue?_control c.toNat hc
  have hlow : isLowSurrogate c.toNat = false := by
    simp only [isLowSurrogate, Bool.and_eq_false_imp, decide_eq_true_eq, decide_eq_false_iff_not]
    omega
  have hhigh : isHighSurrogate c.toNat = false := by
    simp only [isHighSurrogate, Bool.and_eq_false_imp, decide_eq_true_eq, decide_eq_false_iff_not]
    omega
  have hbytes : encodeChars ['\\', 'u', '0', '0', Nat.digitChar (c.toNat / 16),
      Nat.digitChar (c.toNat % 16)] = backslashByte :: 0x75 :: 0x30 :: 0x30 ::
        [hexByte (c.toNat / 16), hexByte (c.toNat % 16)] :=
    congrArg ([backslashByte, 0x75, 0x30, 0x30] ++ ·) hdigits
  rw [hbytes, List.cons_append, readStringBytes.eq_def]
  simp only [List.cons_append, List.nil_append, hvalue, hlow, hhigh, Bool.false_eq_true, if_false,
    if_true, show backslashByte ≠ quoteByte by decide, pushChar, Char.ofNat_toNat]

/-- A character is read from its escape, or from itself. -/
theorem readStringBytes_escapeChar (c : Char) (acc bytes : Bytes) :
    readStringBytes acc (encodeChars (escapeChar c) ++ bytes) =
      readStringBytes ((encodeChar c).reverse ++ acc) bytes := by
  unfold escapeChar
  split
  next h =>
    rcases h with rfl | rfl
    · exact readStringBytes_short (by decide) rfl acc bytes
    · exact readStringBytes_short (by decide) rfl acc bytes
  next hspecial =>
  split
  next h =>
    subst h
    exact readStringBytes_short (by decide) rfl acc bytes
  split
  next h =>
    subst h
    exact readStringBytes_short (by decide) rfl acc bytes
  split
  next h =>
    subst h
    exact readStringBytes_short (by decide) rfl acc bytes
  split
  next h =>
    subst h
    exact readStringBytes_short (by decide) rfl acc bytes
  split
  next h =>
    subst h
    exact readStringBytes_short (by decide) rfl acc bytes
  split
  next hcontrol => exact readStringBytes_control hcontrol acc bytes
  next hcontrol =>
    have hplain : ∀ b ∈ encodeChar c, isPlainByte b = true := by
      by_cases hascii : c.toNat < 0x80
      · rw [Utf8.encodeChar_ascii hascii, List.forall_mem_singleton]
        have hbyte : ∀ n < 0x80, ¬n < 0x20 → n ≠ '"'.toNat → n ≠ '\\'.toNat →
            isPlainByte n.toUInt8 = true := by
          decide
        have hne : ∀ d : Char, c ≠ d → c.toNat ≠ d.toNat := fun d hd heq => hd (Char.toNat_inj.mp heq)
        exact hbyte _ hascii hcontrol (hne _ fun h => hspecial (.inl h))
          (hne _ fun h => hspecial (.inr h))
      · exact fun b hb => isPlainByte_of_le (Utf8.le_of_mem_encodeChar hascii b hb)
    have hself : encodeChars [c] = encodeChar c := List.append_nil _
    rw [hself]
    exact readStringBytes_plain hplain acc bytes

theorem readStringBytes_escaped (cs : List Char) (acc bytes : Bytes) :
    readStringBytes acc (encodeChars (cs.flatMap escapeChar) ++ bytes) =
      readStringBytes ((encodeChars cs).reverse ++ acc) bytes := by
  induction cs generalizing acc with
  | nil => rfl
  | cons c cs ih =>
    have hbytes : encodeChars ((c :: cs).flatMap escapeChar) =
        encodeChars (escapeChar c) ++ encodeChars (cs.flatMap escapeChar) := by
      simp [encodeChars]
    have hreverse : (encodeChars (c :: cs)).reverse =
        (encodeChars cs).reverse ++ (encodeChar c).reverse := by
      simp [encodeChars]
    rw [hbytes, List.append_assoc, readStringBytes_escapeChar, ih, hreverse, List.append_assoc]

/-- The text of a string begins with a quote. -/
theorem encodeChars_writeString (s : String) (bytes : Bytes) :
    encodeChars (writeString s) ++ bytes =
      quoteByte :: (encodeChars (s.toList.flatMap escapeChar) ++ quoteByte :: bytes) := by
  simp [writeString, encodeChars, show encodeChar '"' = [quoteByte] from rfl]

/-- **A string is read as it was written**, behind its opening quote. -/
theorem readString_writeString (s : String) (rest : Bytes) :
    readString (encodeChars (s.toList.flatMap escapeChar) ++ quoteByte :: rest) = .ok (s, rest) := by
  have hend : readStringBytes (encodeChars s.toList).reverse (quoteByte :: rest) =
      .ok ((encodeChars s.toList).reverse, rest) := by
    rw [readStringBytes.eq_def]
    exact if_pos rfl
  have hdecode : Utf8.decode? (encodeChars s.toList) = some s := Utf8.decode?_encode s
  rw [readString, readStringBytes_escaped, List.append_nil, hend]
  simp only [List.reverse_reverse, hdecode]

end ClusterOutput.Json
