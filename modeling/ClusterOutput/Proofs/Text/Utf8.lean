/-
What is encoded is decoded to itself. The bytes of a character are one of the
four forms, and the decoder goes through each of them, from its first byte, whose
value says how many follow and from where to where the second may lie.
-/
import ClusterOutput.Text.Utf8

namespace ClusterOutput.Utf8

/-! ## Bytes as numbers -/

theorem toNat_toUInt8 {n : Nat} (h : n < 256) : n.toUInt8.toNat = n := by
  simp only [Nat.toUInt8, UInt8.toNat_ofNat']
  omega

theorem start_toUInt8 {n : Nat} (h : n < 256) :
    start n.toUInt8 =
      if n < 0x80 then .done (Char.ofNat n)
      else if n < 0xc2 then .bad
      else if n ≤ 0xdf then .more ⟨1, 0x80, 0xbf, n - 0xc0⟩
      else if n = 0xe0 then .more ⟨2, 0xa0, 0xbf, 0⟩
      else if n = 0xed then .more ⟨2, 0x80, 0x9f, 0xd⟩
      else if n ≤ 0xef then .more ⟨2, 0x80, 0xbf, n - 0xe0⟩
      else if n = 0xf0 then .more ⟨3, 0x90, 0xbf, 0⟩
      else if n ≤ 0xf3 then .more ⟨3, 0x80, 0xbf, n - 0xf0⟩
      else if n = 0xf4 then .more ⟨3, 0x80, 0x8f, 4⟩
      else .bad := by
  simp only [start, UInt8.lt_iff_toNat_lt, UInt8.le_iff_toNat_le, ← UInt8.toNat_inj, toNat_toUInt8 h]
  rfl

theorem step_toUInt8 {p : Partial} {n : Nat} (hlow : p.low.toNat ≤ n) (hhigh : n ≤ p.high.toNat) :
    p.step n.toUInt8 =
      if p.owed ≤ 1 then .done (Char.ofNat (p.bits * 64 + (n - 0x80)))
      else .more ⟨p.owed - 1, 0x80, 0xbf, p.bits * 64 + (n - 0x80)⟩ := by
  have h : n < 256 := Nat.lt_of_le_of_lt hhigh p.high.toNat_lt
  simp only [Partial.step, UInt8.le_iff_toNat_le, toNat_toUInt8 h, hlow, hhigh, and_self, if_true]

/-! ## One character -/

/-- A byte that ends a character. -/
theorem decodeFrom_done {p : Option Partial} {b : UInt8} {c : Char} (h : step p b = .done c)
    (bytes : Bytes) : decodeFrom p (b :: bytes) = (decodeFrom none bytes).map (c :: ·) := by
  cases p <;> simp only [decodeFrom, h]

/-- A byte that leaves a character unfinished. -/
theorem decodeFrom_more {p : Option Partial} {b : UInt8} {q : Partial} (h : step p b = .more q)
    (bytes : Bytes) : decodeFrom p (b :: bytes) = decodeFrom (some q) bytes := by
  cases p <;> simp only [decodeFrom, h]

/-- The byte that ends a character when one is owed. -/
theorem decodeFrom_last {bits n : Nat} (h : n < 64) (bytes : Bytes) :
    decodeFrom (some ⟨1, 0x80, 0xbf, bits⟩) ((0x80 + n).toUInt8 :: bytes) =
      (decodeFrom none bytes).map (Char.ofNat (bits * 64 + n) :: ·) := by
  refine decodeFrom_done ?_ bytes
  have hlow : (0x80 : UInt8).toNat ≤ 0x80 + n := Nat.le_add_right _ _
  have hhigh : 0x80 + n ≤ (0xbf : UInt8).toNat := by
    show 0x80 + n ≤ 0xbf
    omega
  rw [step, step_toUInt8 hlow hhigh, Nat.add_sub_cancel_left]
  rfl

/-- A byte behind which more are owed. -/
theorem decodeFrom_next {low high : UInt8} {owed bits n : Nat} (hlow : low.toNat ≤ 0x80 + n)
    (hhigh : 0x80 + n ≤ high.toNat) (bytes : Bytes) :
    decodeFrom (some ⟨owed + 2, low, high, bits⟩) ((0x80 + n).toUInt8 :: bytes) =
      decodeFrom (some ⟨owed + 1, 0x80, 0xbf, bits * 64 + n⟩) bytes := by
  refine decodeFrom_more ?_ bytes
  rw [step, step_toUInt8 hlow hhigh, Nat.add_sub_cancel_left, if_neg (by simp)]
  rfl

/-- The first of three bytes. Overlong forms and surrogates are kept out by the range of the
second. -/
theorem start_three {n : Nat} (hlow : 0x800 ≤ n) (hhigh : n < 0x10000)
    (hvalid : n < 0xd800 ∨ 0xdfff < n) :
    ∃ low high, start (0xe0 + n / 4096).toUInt8 = .more ⟨2, low, high, n / 4096⟩ ∧
      low.toNat ≤ 0x80 + n / 64 % 64 ∧ 0x80 + n / 64 % 64 ≤ high.toNat := by
  rw [start_toUInt8 (by omega), if_neg (by omega), if_neg (by omega), if_neg (by omega)]
  by_cases h₀ : n / 4096 = 0
  · rw [if_pos (by omega), h₀]
    refine ⟨0xa0, 0xbf, rfl, ?_, ?_⟩
    · show 0xa0 ≤ _
      omega
    · show _ ≤ 0xbf
      omega
  rw [if_neg (by omega)]
  by_cases hd : n / 4096 = 0xd
  · rw [if_pos (by omega), hd]
    refine ⟨0x80, 0x9f, rfl, Nat.le_add_right _ _, ?_⟩
    show _ ≤ 0x9f
    omega
  rw [if_neg (by omega), if_pos (by omega), Nat.add_sub_cancel_left]
  refine ⟨0x80, 0xbf, rfl, Nat.le_add_right _ _, ?_⟩
  show _ ≤ 0xbf
  omega

/-- The first of four bytes. Overlong forms and what is no character are kept out by the range of
the second. -/
theorem start_four {n : Nat} (hlow : 0x10000 ≤ n) (hhigh : n < 0x110000) :
    ∃ low high, start (0xf0 + n / 262144).toUInt8 = .more ⟨3, low, high, n / 262144⟩ ∧
      low.toNat ≤ 0x80 + n / 4096 % 64 ∧ 0x80 + n / 4096 % 64 ≤ high.toNat := by
  rw [start_toUInt8 (by omega), if_neg (by omega), if_neg (by omega), if_neg (by omega),
    if_neg (by omega), if_neg (by omega), if_neg (by omega)]
  by_cases h₀ : n / 262144 = 0
  · rw [if_pos (by omega), h₀]
    refine ⟨0x90, 0xbf, rfl, ?_, ?_⟩
    · show 0x90 ≤ _
      omega
    · show _ ≤ 0xbf
      omega
  rw [if_neg (by omega)]
  by_cases h₄ : n / 262144 = 4
  · rw [if_neg (by omega), if_pos (by omega), h₄]
    refine ⟨0x80, 0x8f, rfl, Nat.le_add_right _ _, ?_⟩
    show _ ≤ 0x8f
    omega
  rw [if_pos (by omega), Nat.add_sub_cancel_left]
  refine ⟨0x80, 0xbf, rfl, Nat.le_add_right _ _, ?_⟩
  show _ ≤ 0xbf
  omega

theorem decodeFrom_encodeChar (c : Char) (bytes : Bytes) :
    decodeFrom none (encodeChar c ++ bytes) = (decodeFrom none bytes).map (c :: ·) := by
  suffices h : decodeFrom none (encodeChar c ++ bytes) =
      (decodeFrom none bytes).map (Char.ofNat c.toNat :: ·) by
    rwa [Char.ofNat_toNat] at h
  have hvalid : c.toNat < 0xd800 ∨ 0xdfff < c.toNat ∧ c.toNat < 0x110000 := c.valid
  unfold encodeChar
  generalize c.toNat = n at hvalid ⊢
  simp only []
  split
  next h₁ =>
    refine decodeFrom_done ?_ bytes
    rw [step, start_toUInt8 (by omega), if_pos h₁]
  split
  next h₁ h₂ =>
    have hfirst : start (0xc0 + n / 64).toUInt8 = .more ⟨1, 0x80, 0xbf, n / 64⟩ := by
      rw [start_toUInt8 (by omega), if_neg (by omega), if_neg (by omega), if_pos (by omega),
        Nat.add_sub_cancel_left]
    have hn : n / 64 * 64 + n % 64 = n := by omega
    simp only [List.cons_append, List.nil_append]
    rw [decodeFrom_more (p := none) hfirst, decodeFrom_last (by omega), hn]
  split
  next h₁ h₂ h₃ =>
    obtain ⟨low, high, hfirst, hlow, hhigh⟩ := start_three (by omega) h₃ (by omega)
    have hn : (n / 4096 * 64 + n / 64 % 64) * 64 + n % 64 = n := by omega
    simp only [List.cons_append, List.nil_append]
    rw [decodeFrom_more (p := none) hfirst, decodeFrom_next hlow hhigh, decodeFrom_last (by omega), hn]
  next h₁ h₂ h₃ =>
    obtain ⟨low, high, hfirst, hlow, hhigh⟩ := start_four (n := n) (by omega) (by omega)
    have hn : ((n / 262144 * 64 + n / 4096 % 64) * 64 + n / 64 % 64) * 64 + n % 64 = n := by omega
    have hmiddle : 0x80 + n / 64 % 64 ≤ (0xbf : UInt8).toNat := by
      show _ ≤ 0xbf
      omega
    simp only [List.cons_append, List.nil_append]
    rw [decodeFrom_more (p := none) hfirst, decodeFrom_next hlow hhigh,
      decodeFrom_next (Nat.le_add_right _ _) hmiddle, decodeFrom_last (by omega), hn]

/-! ## Bytes of ASCII -/

theorem encodeChar_ascii {c : Char} (h : c.toNat < 0x80) : encodeChar c = [c.toNat.toUInt8] :=
  if_pos h

theorem le_of_mem_encodeChar {c : Char} (h : ¬c.toNat < 0x80) :
    ∀ b ∈ encodeChar c, 0x80 ≤ b.toNat := by
  have hlt : c.toNat < 0x110000 := by
    rcases c.valid with h | h
    · exact Nat.lt_trans h (by decide)
    · exact h.2
  unfold encodeChar
  generalize c.toNat = n at h hlt ⊢
  have hbyte : ∀ m, 0x80 ≤ m → m < 256 → 0x80 ≤ m.toUInt8.toNat := by
    intro m hlow hhigh
    rwa [toNat_toUInt8 hhigh]
  simp only [h, if_false]
  split
  · simp only [List.forall_mem_cons]
    exact ⟨hbyte _ (by omega) (by omega), hbyte _ (by omega) (by omega), List.forall_mem_nil _⟩
  split
  · simp only [List.forall_mem_cons]
    exact ⟨hbyte _ (by omega) (by omega), hbyte _ (by omega) (by omega),
      hbyte _ (by omega) (by omega), List.forall_mem_nil _⟩
  · simp only [List.forall_mem_cons]
    exact ⟨hbyte _ (by omega) (by omega), hbyte _ (by omega) (by omega),
      hbyte _ (by omega) (by omega), hbyte _ (by omega) (by omega), List.forall_mem_nil _⟩

theorem encodeChar_ne_nil (c : Char) : encodeChar c ≠ [] := by
  simp only [encodeChar]
  split
  · simp
  split
  · simp
  split <;> simp

/-- A byte of ASCII stands for its character alone. -/
theorem mem_of_mem_encodeChars {b : UInt8} {cs : List Char} (hb : b.toNat < 0x80)
    (h : b ∈ encodeChars cs) : Char.ofNat b.toNat ∈ cs := by
  obtain ⟨c, hc, h⟩ := List.mem_flatMap.mp h
  by_cases hascii : c.toNat < 0x80
  · rw [encodeChar_ascii hascii, List.mem_singleton] at h
    rwa [h, toNat_toUInt8 (by omega), Char.ofNat_toNat]
  · exact absurd (le_of_mem_encodeChar hascii b h) (by omega)

/-! ## A text -/

theorem encodeChars_append (cs cs' : List Char) :
    encodeChars (cs ++ cs') = encodeChars cs ++ encodeChars cs' :=
  List.flatMap_append

theorem decodeChars?_encodeChars (cs : List Char) : decodeChars? (encodeChars cs) = some cs := by
  unfold decodeChars?
  induction cs with
  | nil => rfl
  | cons c cs ih =>
    rw [encodeChars, List.flatMap_cons, decodeFrom_encodeChar]
    exact congrArg (Option.map (c :: ·)) ih

theorem decode?_encode (s : String) : decode? (encode s) = some s := by
  rw [decode?, encode, decodeChars?_encodeChars, Option.map_some, String.ofList_toList]

/-- Forgiving decoding forgives nothing where all is well-formed. -/
theorem decodeLossyFrom_eq {p : Option Partial} {bytes : Bytes} {cs : List Char}
    (h : decodeFrom p bytes = some cs) : decodeLossyFrom p bytes = cs := by
  induction bytes generalizing p cs with
  | nil => cases p <;> cases h; rfl
  | cons b bytes ih =>
    cases hstep : step p b with
    | done c =>
      rw [decodeFrom_done hstep, Option.map_eq_some_iff] at h
      obtain ⟨rest, hrest, rfl⟩ := h
      cases p <;> simp only [step] at hstep <;> simp only [decodeLossyFrom, hstep, ih hrest]
    | more q =>
      rw [decodeFrom_more hstep] at h
      cases p <;> simp only [step] at hstep <;> simp only [decodeLossyFrom, hstep, ih h]
    | bad => cases p <;> simp only [decodeFrom, hstep] at h <;> cases h

theorem decodeLossy_encode (s : String) : decodeLossy (encode s) = s := by
  rw [decodeLossy, encode, decodeLossyFrom_eq (decodeChars?_encodeChars s.toList),
    String.ofList_toList]

theorem encode_injective {s t : String} (h : encode s = encode t) : s = t := by
  have hdecoded := congrArg decode? h
  rw [decode?_encode, decode?_encode] at hdecoded
  exact Option.some.inj hdecoded

/-- A text of ASCII characters has a byte for each. -/
theorem encodeChars_ascii {cs : List Char} (h : ∀ c ∈ cs, c.toNat < 0x80) :
    encodeChars cs = cs.map fun c => c.toNat.toUInt8 := by
  induction cs with
  | nil => rfl
  | cons c cs ih =>
    rw [encodeChars, List.flatMap_cons, encodeChar_ascii (h c List.mem_cons_self)]
    exact congrArg (c.toNat.toUInt8 :: ·) (ih fun d hd => h d (List.mem_cons_of_mem _ hd))

end ClusterOutput.Utf8
