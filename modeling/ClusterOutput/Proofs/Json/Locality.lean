/-
The words of JSON text are read for the same whatever follows them (`Reads`): what was
read of a string is a string with its closing quote (`readString_reads`), and what was
read of a number is a whole number (`readNumeral_reads`).

A number that a digit, a point or an exponent mark followed would go on; all that is
asked of what follows is that it does not (`EndsNumber`).
-/
import ClusterOutput.Proofs.Json.Grammar
import ClusterOutput.Proofs.Result

namespace ClusterOutput.Json

variable {α β : Type} {bytes rest text digits : Bytes} {b : UInt8} {P Q : Bytes → Prop}

/-- What the reader takes is a `P`, and it takes that for the same whatever follows. -/
def Reads (P : Bytes → Prop) (read : Bytes → Except Fault (α × Bytes)) : Prop :=
  ∀ ⦃bytes a rest⦄, read bytes = .ok (a, rest) → ∃ text, P text ∧ bytes = text ++ rest ∧
    ∀ rest', EndsNumber rest' → read (text ++ rest') = .ok (a, rest')

variable {read : Bytes → Except Fault (α × Bytes)}

theorem Reads.mono (h : Reads P read) (hP : ∀ text, P text → Q text) : Reads Q read := by
  intro bytes a rest hread
  obtain ⟨text, htext, hbytes, hlocal⟩ := h hread
  exact ⟨text, hP text htext, hbytes, hlocal⟩

theorem Reads.fails (h : ∀ bytes x, read bytes ≠ .ok x) : Reads P read :=
  fun bytes a rest hread => absurd hread (h bytes (a, rest))

/-- What is made of a value takes no bytes, and no bytes make a difference to it. -/
def Settles (next : α → Bytes → Except Fault (β × Bytes)) (Gives : α → β → Prop) : Prop :=
  ∀ a bytes b rest, next a bytes = .ok (b, rest) ↔ Gives a b ∧ bytes = rest

theorem settles_map (f : α → β) : Settles (fun a rest => .ok (f a, rest)) (f · = ·) := by
  intro a bytes b rest
  rw [Except.ok.injEq, Prod.mk.injEq]

/-- What is made of the value read takes nothing more. -/
theorem Reads.andThen (h : Reads P read) {next : α → Bytes → Except Fault (β × Bytes)}
    {Gives : α → β → Prop} (hnext : Settles next Gives) :
    Reads P (fun bytes => do
      let (a, rest) ← read bytes
      next a rest) := by
  intro bytes b rest hread
  obtain ⟨⟨a, rest₁⟩, ha, hb⟩ := bind_eq_ok.mp hread
  obtain ⟨hgives, rfl⟩ := (hnext ..).mp hb
  obtain ⟨text, htext, hbytes, hlocal⟩ := h ha
  exact ⟨text, htext, hbytes, fun rest' hrest =>
    bind_eq_ok.mpr ⟨_, hlocal rest' hrest, (hnext ..).mpr ⟨hgives, rfl⟩⟩⟩

theorem Reads.map (h : Reads P read) (f : α → β) :
    Reads P (fun bytes => do
      let (a, rest) ← read bytes
      .ok (f a, rest)) := h.andThen (settles_map f)

theorem readIdent_reads (name : Bytes) (a : α) :
    Reads (· = name) fun bytes => do return (a, ← readIdent name bytes) := by
  intro bytes a' rest hread
  obtain ⟨rest', hident, h⟩ := bind_eq_ok.mp hread
  cases h
  exact ⟨name, rfl, ident_of_readIdent hident,
    fun rest' _ => bind_eq_ok.mpr ⟨_, readIdent_append name rest', rfl⟩⟩

/-! ## Strings -/

theorem readStringBytes_hex {h₁ h₂ h₃ h₄ : UInt8} {n : Nat} (h : hexValue? h₁ h₂ h₃ h₄ = some n)
    (hlow : ¬isLowSurrogate n = true) (hhigh : ¬isHighSurrogate n = true) (acc bytes : Bytes) :
    readStringBytes acc (backslashByte :: 0x75 :: h₁ :: h₂ :: h₃ :: h₄ :: bytes) =
      readStringBytes (pushChar n acc) bytes := by
  rw [readStringBytes.eq_def]
  simp only [show backslashByte ≠ quoteByte by decide, h, Bool.eq_false_iff.mpr hlow,
    Bool.eq_false_iff.mpr hhigh, Bool.false_eq_true, if_false, if_true]

theorem readStringBytes_surrogates {h₁ h₂ h₃ h₄ l₁ l₂ l₃ l₄ : UInt8} {n m : Nat}
    (h : hexValue? h₁ h₂ h₃ h₄ = some n) (hlow : ¬isLowSurrogate n = true)
    (hhigh : isHighSurrogate n = true) (hl : hexValue? l₁ l₂ l₃ l₄ = some m)
    (hm : isLowSurrogate m = true) (acc bytes : Bytes) :
    readStringBytes acc (backslashByte :: 0x75 :: h₁ :: h₂ :: h₃ :: h₄ :: backslashByte :: 0x75 ::
      l₁ :: l₂ :: l₃ :: l₄ :: bytes) =
      readStringBytes (pushChar ((n - 0xd800) * 0x400 + (m - 0xdc00) + 0x10000) acc) bytes := by
  rw [readStringBytes.eq_def]
  simp only [show backslashByte ≠ quoteByte by decide, h, Bool.eq_false_iff.mpr hlow, hhigh,
    hl, hm, Bool.false_eq_true, if_false, if_true]

theorem readStringBytes_reads {acc acc' : Bytes} (h : readStringBytes acc bytes = .ok (acc', rest)) :
    ∃ text, IsQuoted text ∧ bytes = text ++ rest ∧
      ∀ rest', readStringBytes acc (text ++ rest') = .ok (acc', rest') := by
  fun_induction readStringBytes acc bytes with
  | case2 =>
    cases h
    refine ⟨[quoteByte], .close, rfl, fun rest' => ?_⟩
    rw [List.singleton_append, readStringBytes.eq_def]
    exact if_pos rfl
  | case9 acc _ _ _ _ n hn hlow hhigh _ _ _ _ _ m hm hm' _ ih =>
    obtain ⟨text, htext, rfl, hlocal⟩ := ih h
    refine ⟨_, .hex (Option.isSome_of_eq_some hn) (.hex (Option.isSome_of_eq_some hm) htext), rfl,
      fun rest' => ?_⟩
    exact (readStringBytes_surrogates hn hlow hhigh hm hm' acc _).trans (hlocal rest')
  | case14 acc _ _ _ _ _ n hn hlow hhigh _ ih =>
    obtain ⟨text, htext, rfl, hlocal⟩ := ih h
    refine ⟨_, .hex (Option.isSome_of_eq_some hn) htext, rfl, fun rest' => ?_⟩
    exact (readStringBytes_hex hn hlow hhigh acc _).trans (hlocal rest')
  | case16 acc _ _ hu _ hshort _ ih =>
    obtain ⟨text, htext, rfl, hlocal⟩ := ih h
    refine ⟨_, .short (Option.isSome_of_eq_some hshort) htext, rfl, fun rest' => ?_⟩
    exact (readStringBytes_short hu hshort acc _).trans (hlocal rest')
  | case19 acc b _ hquote hbackslash hcontrol ih =>
    obtain ⟨text, htext, rfl, hlocal⟩ := ih h
    have hb : isPlainByte b = true := by
      simp only [isPlainByte, Bool.and_eq_true, bne_iff_ne, decide_eq_true_eq]
      exact ⟨⟨hquote, hbackslash⟩, UInt8.not_lt.mp hcontrol⟩
    refine ⟨b :: text, .plain hb htext, rfl, fun rest' => ?_⟩
    rw [← hlocal rest']
    exact readStringBytes_plain (List.forall_mem_singleton.mpr hb) acc (text ++ rest')
  | _ => cases h

theorem readString_reads : Reads IsQuoted readString := by
  intro bytes s rest h
  unfold readString at h
  split at h
  · cases h
  next acc rest' hbytes =>
  split at h
  next s' hs =>
    cases h
    obtain ⟨text, htext, heq, hlocal⟩ := readStringBytes_reads hbytes
    refine ⟨text, htext, heq, fun rest' _ => ?_⟩
    rw [readString, hlocal]
    simp only [hs]
  · cases h

/-! ## Numbers -/

variable {significand taken dropped d n : Nat} {power : Int} {negative : Bool}

theorem digitOf?_eq_some (h : isDigit b = true) : ∃ d, digitOf? b = some d :=
  ⟨_, if_pos h⟩

theorem isDigit_of_digitOf? (h : digitOf? b = some d) : isDigit b = true := by
  by_contra hb
  rw [digitOf?_eq_none (Bool.eq_false_iff.mpr hb)] at h
  cases h

theorem dropDigits_append (hdigits : AreDigits digits) (hrest : NoDigit rest)
    (significand taken dropped : Nat) :
    dropDigits significand taken dropped (digits ++ rest) =
      ⟨significand, taken, dropped + digits.length, rest⟩ := by
  induction digits generalizing dropped with
  | nil =>
    cases rest with
    | nil => rfl
    | cons b rest =>
      rw [List.nil_append, dropDigits, if_neg (Bool.eq_false_iff.mp (hrest b rfl))]
      rfl
  | cons b digits ih =>
    rw [AreDigits, List.forall_mem_cons] at hdigits
    rw [List.cons_append, dropDigits, if_pos hdigits.1, ih hdigits.2, List.length_cons]
    congr 1
    omega

/-- What is taken of a run of digits does not depend on what follows it. -/
theorem takeDigits_append (hdigits : AreDigits digits) (hrest : NoDigit rest)
    (significand taken : Nat) :
    takeDigits significand taken (digits ++ rest) =
      { takeDigits significand taken digits with rest := rest } := by
  induction digits generalizing significand taken with
  | nil =>
    cases rest with
    | nil => rfl
    | cons b rest =>
      simp only [List.nil_append, takeDigits, digitOf?_eq_none (hrest b rfl)]
  | cons b digits ih =>
    rw [AreDigits, List.forall_mem_cons] at hdigits
    obtain ⟨d, hd⟩ := digitOf?_eq_some hdigits.1
    have hdropped := dropDigits_append hdigits.2 .nil significand taken 1
    rw [List.append_nil] at hdropped
    rw [List.cons_append, takeDigits, takeDigits]
    simp only [hd]
    split
    · exact ih hdigits.2 _ _
    · rw [dropDigits_append hdigits.2 hrest, hdropped]

theorem dropDigits_taken : (dropDigits significand taken dropped bytes).taken = taken := by
  fun_induction dropDigits significand taken dropped bytes with
  | case1 | case3 => rfl
  | case2 _ _ _ _ ih => exact ih

theorem le_dropDigits_dropped :
    dropped ≤ (dropDigits significand taken dropped bytes).dropped := by
  fun_induction dropDigits significand taken dropped bytes with
  | case1 | case3 => exact Nat.le_refl _
  | case2 _ _ _ _ ih => exact Nat.le_of_succ_le ih

theorem le_takeDigits_taken : taken ≤ (takeDigits significand taken bytes).taken := by
  fun_induction takeDigits significand taken bytes with
  | case1 | case2 => exact Nat.le_refl _
  | case3 _ _ _ _ _ _ _ ih => exact Nat.le_of_succ_le ih
  | case4 => rw [dropDigits_taken]

/-- Of a digit something is left: it is taken or dropped. -/
theorem takeDigits_pos (hb : isDigit b = true) (significand : Nat) (bytes : Bytes) :
    ¬((takeDigits significand 0 (b :: bytes)).taken = 0 ∧
      (takeDigits significand 0 (b :: bytes)).dropped = 0) := by
  obtain ⟨d, hd⟩ := digitOf?_eq_some hb
  rw [takeDigits]
  simp only [hd]
  split
  · intro h
    exact absurd h.1 (Nat.ne_of_gt le_takeDigits_taken)
  · intro h
    exact absurd h.2 (Nat.ne_of_gt le_dropDigits_dropped)

theorem numeralOf_ok {n : Numeral} (h : numeralOf negative significand power bytes = .ok (n, rest)) :
    rest = bytes ∧ ∀ rest', numeralOf negative significand power rest' = .ok (n, rest') := by
  unfold numeralOf at h ⊢
  split at h
  next x hx =>
    cases h
    exact ⟨rfl, fun rest' => rfl⟩
  · cases h

theorem readPower_end (hrest : NoDigit rest) (power : Nat) :
    readPower power rest = (some power, rest) := by
  cases rest with
  | nil => rfl
  | cons b rest => rw [readPower, digitOf?_eq_none (hrest b rfl)]

/-- A power ends with its digits, or with the one that was too much. -/
theorem readPower_eq {power : Nat} {e : Option Nat} (h : readPower power bytes = (e, rest)) :
    ∃ digits, AreDigits digits ∧ bytes = digits ++ rest ∧
      ∀ rest', (e ≠ none → NoDigit rest') → readPower power (digits ++ rest') = (e, rest') := by
  fun_induction readPower power bytes with
  | case1 power =>
    cases h
    refine ⟨[], List.forall_mem_nil _, rfl, fun rest' hrest => ?_⟩
    exact readPower_end (hrest (Option.some_ne_none _)) power
  | case2 power =>
    cases h
    refine ⟨[], List.forall_mem_nil _, rfl, fun rest' hrest => ?_⟩
    exact readPower_end (hrest (Option.some_ne_none _)) power
  | case3 power b _ d hd hlt ih =>
    obtain ⟨digits, hdigits, rfl, hlocal⟩ := ih h
    refine ⟨b :: digits, List.forall_mem_cons.mpr ⟨isDigit_of_digitOf? hd, hdigits⟩, rfl,
      fun rest' hrest => ?_⟩
    rw [List.cons_append, readPower, hd]
    exact (if_pos hlt).trans (hlocal rest' hrest)
  | case4 power b _ d hd hlt =>
    cases h
    refine ⟨[b], List.forall_mem_singleton.mpr (isDigit_of_digitOf? hd), rfl, fun rest' _ => ?_⟩
    rw [List.singleton_append, readPower, hd]
    exact if_neg hlt

/-- An exponent behind its sign, which was a minus sign if `down` holds. -/
def readUnsignedExponent (down negative : Bool) (significand : Nat) (power : Int) (bytes : Bytes) :
    Reading Numeral :=
  match bytes with
  | [] => stop .eofValue []
  | b :: rest =>
    match digitOf? b with
    | none => stop .invalidNumber rest
    | some d =>
      match readPower d rest with
      | (some e, rest) =>
        numeralOf negative significand (if down then power - (e : Int) else power + (e : Int)) rest
      | (none, rest) =>
        if significand ≠ 0 ∧ down = false then stop .numberOutOfRange rest
        else .ok (.float (.zero negative), rest.dropWhile isDigit)

/-- Whether a minus sign comes first, and what is behind a sign. -/
def splitSign (bytes : Bytes) : Bool × Bytes :=
  match bytes with
  | b :: rest => if b = 0x2b then (false, rest) else if b = 0x2d then (true, rest) else (false, bytes)
  | [] => (false, [])

theorem readExponent_eq (negative : Bool) (significand : Nat) (power : Int) (bytes : Bytes) :
    readExponent negative significand power bytes =
      readUnsignedExponent (splitSign bytes).1 negative significand power (splitSign bytes).2 := rfl

theorem splitSign_eq (bytes : Bytes) :
    ∃ sign, (sign = [] ∨ sign = [0x2b] ∨ sign = [0x2d]) ∧ bytes = sign ++ (splitSign bytes).2 ∧
      ∀ b rest, isDigit b = true → splitSign (sign ++ b :: rest) = ((splitSign bytes).1, b :: rest) := by
  have hunsigned : ∀ b rest, b ≠ 0x2b → b ≠ 0x2d → splitSign (b :: rest) = (false, b :: rest) := by
    intro b rest hplus hminus
    rw [splitSign, if_neg hplus, if_neg hminus]
  have hdigit : ∀ b rest, isDigit b = true → splitSign (b :: rest) = (false, b :: rest) := by
    intro b rest hb
    refine hunsigned b rest ?_ ?_ <;> (rintro rfl; exact absurd hb (by decide))
  cases bytes with
  | nil => exact ⟨[], .inl rfl, rfl, hdigit⟩
  | cons b bytes =>
    by_cases hplus : b = 0x2b
    · subst hplus
      exact ⟨[0x2b], .inr (.inl rfl), rfl, fun _ _ _ => rfl⟩
    by_cases hminus : b = 0x2d
    · subst hminus
      exact ⟨[0x2d], .inr (.inr rfl), rfl, fun _ _ _ => rfl⟩
    · rw [hunsigned b bytes hplus hminus]
      exact ⟨[], .inl rfl, rfl, hdigit⟩

theorem readUnsignedExponent_reads (down negative : Bool) (significand : Nat) (power : Int) :
    Reads (fun text => ∃ b digits, isDigit b = true ∧ AreDigits digits ∧ text = b :: digits)
      (readUnsignedExponent down negative significand power) := by
  intro bytes n rest h
  unfold readUnsignedExponent at h
  split at h
  · cases h
  next b bytes =>
  split at h
  · cases h
  next d hd =>
  have hb := isDigit_of_digitOf? hd
  split at h
  next e bytes' hpower =>
    obtain ⟨digits, hdigits, rfl, hlocal⟩ := readPower_eq hpower
    obtain ⟨rfl, hnumeral⟩ := numeralOf_ok h
    refine ⟨b :: digits, ⟨b, digits, hb, hdigits, rfl⟩, rfl, fun rest' hrest => ?_⟩
    rw [List.cons_append, readUnsignedExponent]
    simp only [hd, hlocal rest' fun _ => hrest.noDigit]
    exact hnumeral rest'
  next bytes' hpower =>
    obtain ⟨digits, hdigits, rfl, hlocal⟩ := readPower_eq hpower
    split at h
    · cases h
    next hsmall =>
      cases h
      -- the digits behind the one that was too much are dropped
      obtain ⟨more, hmore, hsplit, -⟩ := digits_split bytes'
      refine ⟨b :: (digits ++ more), ⟨b, _, hb, List.forall_mem_append.mpr ⟨hdigits, hmore⟩, rfl⟩, ?_,
        fun rest' hrest => ?_⟩
      · rw [List.cons_append, List.append_assoc, ← hsplit]
      · rw [List.cons_append, List.append_assoc, readUnsignedExponent]
        simp only [hd, hlocal (more ++ rest') fun h => absurd rfl h, hsmall, if_false,
          dropWhile_digits hmore hrest.noDigit]

theorem readExponent_reads (negative : Bool) (significand : Nat) (power : Int) :
    Reads (fun text => ∀ mark, isExponentMark mark = true → IsExponent (mark :: text))
      (readExponent negative significand power) := by
  intro bytes n rest h
  rw [readExponent_eq] at h
  obtain ⟨sign, hsign, hsplit, hdigit⟩ := splitSign_eq bytes
  obtain ⟨_, ⟨b, digits, hb, hdigits, rfl⟩, heq, hlocal⟩ := readUnsignedExponent_reads _ _ _ _ h
  refine ⟨sign ++ b :: digits, fun mark hmark => .digits hmark hsign hb hdigits, ?_,
    fun rest' hrest => ?_⟩
  · rw [List.append_assoc, ← heq, ← hsplit]
  · rw [List.append_assoc, List.cons_append, readExponent_eq, hdigit b _ hb]
    exact hlocal rest' hrest

theorem readAfterFraction_reads (negative : Bool) (significand : Nat) (power : Int) :
    Reads IsExponent (readAfterFraction negative significand power) := by
  -- without an exponent the number ends where the next byte is no mark
  have hplain : ∀ rest', EndsNumber rest' → readAfterFraction negative significand power rest' =
      numeralOf negative significand power rest' := by
    intro rest' hrest
    cases rest' with
    | nil => rfl
    | cons c rest' => simp [readAfterFraction, (hrest c rfl).2.2]
  intro bytes n rest h
  cases bytes with
  | nil =>
    obtain ⟨rfl, hnumeral⟩ := numeralOf_ok h
    exact ⟨[], .none, rfl, fun rest' hrest => (hplain rest' hrest).trans (hnumeral rest')⟩
  | cons b bytes =>
    rw [readAfterFraction] at h
    split at h
    next hmark =>
      obtain ⟨power', hpower, rfl, hlocal⟩ := readExponent_reads _ _ _ h
      refine ⟨b :: power', hpower b hmark, rfl, fun rest' hrest => ?_⟩
      rw [List.cons_append, readAfterFraction, if_pos hmark]
      exact hlocal rest' hrest
    · obtain ⟨rfl, hnumeral⟩ := numeralOf_ok h
      exact ⟨[], .none, rfl, fun rest' hrest => (hplain rest' hrest).trans (hnumeral rest')⟩

theorem readFraction_reads (negative : Bool) (significand : Nat) (power : Int) :
    Reads (fun text => ∃ fraction exponent, IsFraction (0x2e :: fraction) ∧ IsExponent exponent ∧
      text = fraction ++ exponent) (readFraction negative significand power) := by
  intro bytes n rest h
  obtain ⟨digits, hdigits, hsplit, hnoDigit⟩ := digits_split bytes
  rw [hsplit] at h
  cases digits with
  | nil =>
    rw [readFraction, takeDigits_append hdigits hnoDigit, takeDigits] at h
    simp only [and_self, if_true] at h
    split at h <;> cases h
  | cons b digits =>
    rw [AreDigits, List.forall_mem_cons] at hdigits
    have hfraction : ∀ rest', NoDigit rest' → readFraction negative significand power
        (b :: digits ++ rest') = readAfterFraction negative
          (takeDigits significand 0 (b :: digits)).significand
          (power - (takeDigits significand 0 (b :: digits)).taken) rest' := by
      intro rest' hrest
      rw [readFraction, takeDigits_append (List.forall_mem_cons.mpr hdigits) hrest]
      exact if_neg (takeDigits_pos hdigits.1 significand digits)
    rw [hfraction _ hnoDigit] at h
    obtain ⟨exponent, hexponent, heq, hlocal⟩ := readAfterFraction_reads _ _ _ h
    refine ⟨b :: digits ++ exponent, ⟨_, exponent, .digits hdigits.1 hdigits.2, hexponent, rfl⟩, ?_,
      fun rest' hrest => ?_⟩
    · rw [List.append_assoc, ← heq, ← hsplit]
    · rw [List.append_assoc, hfraction _ (hexponent.noDigit hrest.noDigit)]
      exact hlocal rest' hrest

/-- The whole part of a number by itself. -/
def plainNumeral (negative : Bool) (significand dropped : Nat) (bytes : Bytes) : Reading Numeral :=
  if dropped = 0 then .ok (wholeNumeral negative significand, bytes)
  else numeralOf negative significand dropped bytes

theorem plainNumeral_ok {n : Numeral}
    (h : plainNumeral negative significand dropped bytes = .ok (n, rest)) :
    rest = bytes ∧ ∀ rest', plainNumeral negative significand dropped rest' = .ok (n, rest') := by
  unfold plainNumeral at h ⊢
  split at h
  next hdropped =>
    cases h
    exact ⟨rfl, fun _ => if_pos hdropped⟩
  next hdropped =>
    obtain ⟨hrest, hall⟩ := numeralOf_ok h
    exact ⟨hrest, fun rest' => (if_neg hdropped).trans (hall rest')⟩

theorem readAfterWhole_ends (hrest : EndsNumber rest) (negative : Bool) (significand dropped : Nat) :
    readAfterWhole negative significand dropped rest =
      plainNumeral negative significand dropped rest := by
  cases rest with
  | nil => rfl
  | cons b rest =>
    obtain ⟨-, hpoint, hmark⟩ := hrest b rfl
    rw [readAfterWhole]
    simp only [hpoint, hmark, Bool.false_eq_true, if_false, plainNumeral]

theorem readAfterWhole_reads (negative : Bool) (significand dropped : Nat) :
    Reads (fun text => ∃ fraction exponent, IsFraction fraction ∧ IsExponent exponent ∧
      text = fraction ++ exponent) (readAfterWhole negative significand dropped) := by
  have hplain : ∀ {bytes n rest}, plainNumeral negative significand dropped bytes = .ok (n, rest) →
      ∃ text, (∃ fraction exponent, IsFraction fraction ∧ IsExponent exponent ∧
        text = fraction ++ exponent) ∧ bytes = text ++ rest ∧ ∀ rest', EndsNumber rest' →
          readAfterWhole negative significand dropped (text ++ rest') = .ok (n, rest') := by
    intro bytes n rest h
    obtain ⟨rfl, hall⟩ := plainNumeral_ok h
    refine ⟨[], ⟨[], [], .none, .none, rfl⟩, rfl, fun rest' hrest => ?_⟩
    rw [List.nil_append, readAfterWhole_ends hrest, hall]
  intro bytes n rest h
  cases bytes with
  | nil => exact hplain h
  | cons b bytes =>
    rw [readAfterWhole] at h
    split at h
    next hb =>
      obtain ⟨_, ⟨fraction, exponent, hfraction, hexponent, rfl⟩, rfl, hlocal⟩ :=
        readFraction_reads _ _ _ h
      refine ⟨0x2e :: (fraction ++ exponent), ⟨_, exponent, hfraction, hexponent, rfl⟩, by rw [hb]; rfl,
        fun rest' hrest => hlocal rest' hrest⟩
    split at h
    next hpoint hmark =>
      obtain ⟨power, hpower, rfl, hlocal⟩ := readExponent_reads _ _ _ h
      refine ⟨b :: power, ⟨[], b :: power, .none, hpower b hmark, rfl⟩, rfl, fun rest' hrest => ?_⟩
      rw [List.cons_append, readAfterWhole]
      simp only [hpoint, hmark, if_false, if_true]
      exact hlocal rest' hrest
    · exact hplain h

/-- A zero is the whole part, or digits from another one on are. -/
theorem readNumeral_reads (negative : Bool) : Reads IsUnsigned (readNumeral negative) := by
  have hzero : ∀ rest', NoDigit rest' →
      readNumeral negative (0x30 :: rest') = readAfterWhole negative 0 0 rest' := by
    intro rest' hrest
    cases rest' with
    | nil => rfl
    | cons c rest' => simp [readNumeral, hrest c rfl]
  have hdigits : ∀ {b d digits}, b ≠ 0x30 → digitOf? b = some d → AreDigits digits →
      ∀ rest', NoDigit rest' → readNumeral negative (b :: (digits ++ rest')) =
        readAfterWhole negative (takeDigits d 1 digits).significand (takeDigits d 1 digits).dropped
          rest' := by
    intro b d digits hb hd hdigits rest' hrest
    rw [readNumeral.eq_def]
    simp only [hb, hd, if_false, takeDigits_append hdigits hrest]
  intro bytes n rest h
  cases bytes with
  | nil => cases h
  | cons b bytes =>
    by_cases hb : b = 0x30
    · subst hb
      have hnoDigit : NoDigit bytes := by
        intro c hc
        obtain ⟨bytes', rfl⟩ := List.head?_eq_some_iff.mp (Option.mem_def.mp hc)
        rw [readNumeral.eq_def] at h
        simp only [if_true] at h
        split at h
        · cases h
        next hc => exact Bool.eq_false_iff.mpr hc
      rw [hzero _ hnoDigit] at h
      obtain ⟨_, ⟨fraction, exponent, hfraction, hexponent, rfl⟩, rfl, hlocal⟩ :=
        readAfterWhole_reads _ _ _ h
      refine ⟨0x30 :: (fraction ++ exponent), .parts .zero hfraction hexponent, rfl,
        fun rest' hrest => ?_⟩
      rw [List.cons_append, List.append_assoc,
        hzero _ (hfraction.noDigit (hexponent.noDigit hrest.noDigit)), ← List.append_assoc]
      exact hlocal rest' hrest
    · cases hd : digitOf? b with
      | none =>
        rw [readNumeral.eq_def] at h
        simp only [hb, hd, if_false] at h
        cases h
      | some d =>
        obtain ⟨digits, hrun, hsplit, hnoDigit⟩ := digits_split bytes
        rw [hsplit, hdigits hb hd hrun _ hnoDigit] at h
        obtain ⟨_, ⟨fraction, exponent, hfraction, hexponent, rfl⟩, heq, hlocal⟩ :=
          readAfterWhole_reads _ _ _ h
        refine ⟨b :: digits ++ (fraction ++ exponent),
          .parts (.digits (isDigit_of_digitOf? hd) hb hrun) hfraction hexponent, ?_,
          fun rest' hrest => ?_⟩
        · rw [List.append_assoc, ← heq, List.cons_append, ← hsplit]
        · rw [List.append_assoc, List.append_assoc, List.cons_append,
            hdigits hb hd hrun _ (hfraction.noDigit (hexponent.noDigit hrest.noDigit)),
            ← List.append_assoc]
          exact hlocal rest' hrest

end ClusterOutput.Json
