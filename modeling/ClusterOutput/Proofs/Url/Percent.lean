/-
Percent encoding loses nothing: where `%` itself is encoded, the text stands for
the bytes that it was made of (`decodeText_encodeText`). An encoded text is ASCII,
and holds no character that its place encodes but `%`. Encoded parameters are read
as the query that they are (`parseTail_form`, `encodeChars_chars`).
-/
import ClusterOutput.Proofs.Text.Utf8
import ClusterOutput.Url.Form
import ClusterOutput.Url.Parse
import Mathlib.Data.List.TakeWhile

namespace ClusterOutput.Url

variable {escaped : UInt8 → Bool} {cs : List Char}

/-! ## Bytes -/

/-- What holds of all pairs of digits holds of all bytes. -/
theorem forall_byte {P : UInt8 → Prop} (h : ∀ i < 16, ∀ j < 16, P (i * 16 + j).toUInt8)
    (b : UInt8) : P b := by
  have hlt := b.toNat_lt
  have hb := h (b.toNat / 16) (by omega) (b.toNat % 16) (by omega)
  rwa [show b.toNat / 16 * 16 + b.toNat % 16 = b.toNat by omega,
    show b.toNat.toUInt8 = b from UInt8.ofNat_toNat] at hb

/-- What holds of all code points below a bound holds of all characters below it. -/
theorem forall_char {P : Char → Prop} {bound : Nat} (h : ∀ n < bound, P (Char.ofNat n)) {c : Char}
    (hc : c.toNat < bound) : P c := by
  have hall := h c.toNat hc
  rwa [Char.ofNat_toNat] at hall

theorem upperHex_lt : ∀ n < 16, (upperHex n).toNat < 0x80 := by decide

theorem hexDigit?_upperHex : ∀ n < 16, hexDigit? (upperHex n).toNat.toUInt8 = some n := by decide

/-- A byte within an encoded text. -/
def byteChars (escaped : UInt8 → Bool) (b : UInt8) : List Char :=
  if isControlByte b || escaped b then percentByte b else [Char.ofNat b.toNat]

theorem encodeBytes_cons (escaped : UInt8 → Bool) (b : UInt8) (bytes : Bytes) :
    encodeBytes escaped (b :: bytes) = byteChars escaped b ++ encodeBytes escaped bytes := rfl

/-- A byte that is not a control is an ASCII character. -/
theorem toNat_ofByte {b : UInt8} (h : isControlByte b = false) :
    0x1f < b.toNat ∧ b.toNat < 0x7f ∧ (Char.ofNat b.toNat).toNat = b.toNat := by
  simp only [isControlByte, Bool.or_eq_false_iff, decide_eq_false_iff_not, UInt8.lt_iff_toNat_lt,
    UInt8.le_iff_toNat_le] at h
  have hlow : ¬b.toNat < 0x20 := h.1
  have hhigh : ¬0x7f ≤ b.toNat := h.2
  have hchar : ∀ n < 0x7f, (Char.ofNat n).toNat = n := by decide
  exact ⟨by omega, by omega, hchar _ (by omega)⟩

/-- What holds of the characters that are kept, of `%` and of the digits behind it holds of all
characters of an encoded text. -/
theorem forall_encodeText {P : Char → Prop} {cs : List Char}
    (hkept : ∀ b ∈ Utf8.encodeChars cs, isControlByte b = false → escaped b = false →
      P (Char.ofNat b.toNat))
    (hpercent : P '%') (hhex : ∀ n < 16, P (upperHex n)) : ∀ c ∈ encodeText escaped cs, P c := by
  intro c hc
  simp only [encodeText, encodeBytes, List.mem_flatMap] at hc
  obtain ⟨b, hb, hc⟩ := hc
  split at hc
  next =>
    have hlt := b.toNat_lt
    simp only [percentByte, List.mem_cons, List.not_mem_nil, or_false] at hc
    rcases hc with rfl | rfl | rfl
    · exact hpercent
    · exact hhex _ (by omega)
    · exact hhex _ (by omega)
  next hplain =>
    simp only [Bool.or_eq_true, not_or, Bool.not_eq_true] at hplain
    obtain rfl := List.mem_singleton.mp hc
    exact hkept b hb hplain.1 hplain.2

/-- No slash comes from anything but a slash. -/
theorem slash_not_mem_encodeText (h : '/' ∉ cs) : '/' ∉ encodeText escaped cs := by
  have hchars : ∀ c ∈ encodeText escaped cs, c ≠ '/' := by
    refine forall_encodeText (fun b hb hplain _ => ?_) (by decide) (by decide)
    rintro heq
    refine h (heq ▸ Utf8.mem_of_mem_encodeChars ?_ hb)
    obtain ⟨-, hlt, -⟩ := toNat_ofByte hplain
    omega
  exact fun hslash => hchars _ hslash rfl

theorem encodeText_ne_nil (h : cs ≠ []) : encodeText escaped cs ≠ [] := by
  obtain ⟨c, cs, rfl⟩ := List.exists_cons_of_ne_nil h
  obtain ⟨b, bytes, hb⟩ := List.exists_cons_of_ne_nil (Utf8.encodeChar_ne_nil c)
  have hbyte : byteChars escaped b ≠ [] := by
    unfold byteChars
    split <;> simp [percentByte]
  rw [encodeText, Utf8.encodeChars, List.flatMap_cons, hb, List.cons_append, encodeBytes_cons]
  exact List.append_ne_nil_of_left_ne_nil hbyte _

/-! ## Decoding what was encoded -/

theorem decodeBytes_plain {b : UInt8} (h : b ≠ 0x25) (bytes : Bytes) :
    decodeBytes (b :: bytes) = b :: decodeBytes bytes := by
  match bytes with
  | [] => rfl
  | [_] => rfl
  | _ :: _ :: _ => rw [decodeBytes, if_neg h]

theorem decodeBytes_eq_self {bytes : Bytes} (h : 0x25 ∉ bytes) : decodeBytes bytes = bytes := by
  induction bytes with
  | nil => rfl
  | cons b bytes ih =>
    rw [List.mem_cons, not_or] at h
    rw [decodeBytes_plain (Ne.symm h.1), ih h.2]

theorem decodeText_plain {cs : List Char} (h : '%' ∉ cs) : decodeText cs = Utf8.encodeChars cs :=
  decodeBytes_eq_self fun hmem => h (Utf8.mem_of_mem_encodeChars (by decide) hmem)

theorem decodeBytes_byteChars (hescaped : escaped 0x25 = true) (b : UInt8) (bytes : Bytes) :
    decodeBytes (Utf8.encodeChars (byteChars escaped b) ++ bytes) = b :: decodeBytes bytes := by
  have hb := b.toNat_lt
  unfold byteChars
  split
  next =>
    have hhigh : b.toNat / 16 < 16 := by omega
    have hlow : b.toNat % 16 < 16 := by omega
    have hascii : ∀ c ∈ percentByte b, c.toNat < 0x80 := by
      simp only [percentByte, List.forall_mem_cons]
      exact ⟨by decide, upperHex_lt _ hhigh, upperHex_lt _ hlow, List.forall_mem_nil _⟩
    have hvalue : b.toNat / 16 * 16 + b.toNat % 16 = b.toNat := by omega
    rw [Utf8.encodeChars_ascii hascii]
    simp only [percentByte, List.map_cons, List.map_nil, List.cons_append, List.nil_append]
    rw [decodeBytes, if_pos (by decide), hexDigit?_upperHex _ hhigh, hexDigit?_upperHex _ hlow]
    simp only [hvalue]
    rw [show b.toNat.toUInt8 = b from UInt8.ofNat_toNat]
  next hplain =>
    simp only [Bool.or_eq_true, not_or, Bool.not_eq_true] at hplain
    obtain ⟨-, hlt, hchar⟩ := toNat_ofByte hplain.1
    have hne : b ≠ 0x25 := by
      rintro rfl
      rw [hescaped] at hplain
      cases hplain.2
    rw [Utf8.encodeChars_ascii (by simp; omega), List.map_singleton, hchar,
      show b.toNat.toUInt8 = b from UInt8.ofNat_toNat]
    exact decodeBytes_plain hne bytes

theorem decodeText_encodeText (hescaped : escaped 0x25 = true) (cs : List Char) :
    decodeText (encodeText escaped cs) = Utf8.encodeChars cs := by
  unfold decodeText encodeText
  induction Utf8.encodeChars cs with
  | nil => rfl
  | cons b bytes ih =>
    rw [encodeBytes_cons, Utf8.encodeChars, List.flatMap_append]
    exact (decodeBytes_byteChars hescaped b _).trans (congrArg (b :: ·) ih)

/-! ## Text that has nothing to encode -/

/-- What is seen of ASCII is encoded only where the place asks for it. -/
theorem kept_of_visible {c : Char} (hlow : 0x20 < c.toNat) (hhigh : c.toNat < 0x7f)
    (hplace : escaped c.toNat.toUInt8 = false) :
    c.toNat < 0x80 ∧ (isControlByte c.toNat.toUInt8 || escaped c.toNat.toUInt8) = false := by
  refine ⟨by omega, ?_⟩
  have hn := Utf8.toNat_toUInt8 (n := c.toNat) (by omega)
  simp only [hplace, Bool.or_false, isControlByte, Bool.or_eq_false_iff, decide_eq_false_iff_not,
    UInt8.lt_iff_toNat_lt, UInt8.le_iff_toNat_le, hn]
  exact ⟨Nat.not_lt.mpr (Nat.le_of_lt hlow), Nat.not_le.mpr hhigh⟩

/-- A text of characters that are kept stays as it is. -/
theorem encodeText_kept (h : ∀ c ∈ cs, c.toNat < 0x80 ∧
      (isControlByte c.toNat.toUInt8 || escaped c.toNat.toUInt8) = false) :
    encodeText escaped cs = cs := by
  rw [encodeText, Utf8.encodeChars_ascii fun c hc => (h c hc).1]
  induction cs with
  | nil => rfl
  | cons c cs ih =>
    obtain ⟨hlt, hkept⟩ := h c List.mem_cons_self
    have hc : byteChars escaped c.toNat.toUInt8 = [c] := by
      rw [byteChars, if_neg (by simp [hkept]), Utf8.toNat_toUInt8 (by omega), Char.ofNat_toNat]
    rw [List.map_cons, encodeBytes_cons, hc, ih fun d hd => h d (List.mem_cons_of_mem _ hd)]
    rfl

/-! ## Queries of parameters -/

/-- The character is kept in a query. -/
def isFormChar (c : Char) : Bool :=
  0x20 < c.toNat && c.toNat < 0x7f && !inSpecialQuery c.toNat.toUInt8 && c != '#'

theorem formByte_chars (b : UInt8) : ∀ c ∈ formByte b, isFormChar c = true := by
  have hall : ∀ b, (formByte b).all isFormChar = true := forall_byte (by decide +kernel)
  exact List.all_eq_true.mp (hall b)

theorem formPair_chars (p : String × String) : ∀ c ∈ formPair p, isFormChar c = true := by
  have htext (s : String) : ∀ c ∈ formText s, isFormChar c = true := by
    intro c hc
    obtain ⟨b, -, hc⟩ := List.mem_flatMap.mp hc
    exact formByte_chars b c hc
  rw [formPair, List.forall_mem_append, List.forall_mem_cons]
  exact ⟨htext p.1, by decide, htext p.2⟩

theorem encodeChars_chars (params : Params) : ∀ c ∈ params.encodeChars, isFormChar c = true := by
  induction params with
  | nil => exact List.forall_mem_nil _
  | cons p params ih =>
    cases params with
    | nil => exact formPair_chars p
    | cons q params =>
      rw [Params.encodeChars, List.forall_mem_append, List.forall_mem_cons]
      · exact ⟨formPair_chars p, by decide, ih⟩
      · simp

/-- Text that is kept in a query is read as the query that it is, and no fragment. -/
theorem parseTail_form {kind : SchemeKind} {q : List Char} (hq : ∀ c ∈ q, isFormChar c = true) :
    parseTail kind ('?' :: q) = (some q, none) := by
  have hchars := hq
  simp only [isFormChar, Bool.and_eq_true, decide_eq_true_eq, Bool.not_eq_true', bne_iff_ne] at hchars
  have hhash : ∀ c ∈ q, (c != '#') = true := fun c hc => bne_iff_ne.mpr (hchars c hc).2
  -- what the special schemes keep in a query, the others do
  have hplace : ∀ b : UInt8, inSpecialQuery b = false → inQuery b = false :=
    forall_byte (by decide +kernel)
  have hkept : encodeText (if kind = .other then inQuery else inSpecialQuery) q = q := by
    refine encodeText_kept fun c hc => ?_
    obtain ⟨⟨⟨hlow, hhigh⟩, hspecial⟩, -⟩ := hchars c hc
    refine kept_of_visible hlow hhigh ?_
    split
    · exact hplace _ hspecial
    · exact hspecial
  have hquery : q.takeWhile (· != '#') = q := List.takeWhile_eq_self_iff.mpr hhash
  have hfragment : ('?' :: q).dropWhile (· != '#') = [] :=
    List.dropWhile_eq_nil_iff.mpr (List.forall_mem_cons.mpr ⟨rfl, hhash⟩)
  have hrest : ('?' :: q).dropWhile (fun c => c != '?' && c != '#') = '?' :: q := rfl
  simp only [parseTail, hrest, hquery, hfragment, hkept]

end ClusterOutput.Url
