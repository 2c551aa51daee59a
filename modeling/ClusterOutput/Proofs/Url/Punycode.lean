/-
Punycode can be read back: what a label is encoded as is decoded to the label
(`decode?_encode`).

The encoder walks over all pairs of a code point and a place, and the decoder
follows it by the gaps that were written. Whenever a gap was written, what the
decoder has is the label without the code points that the walk has not come to
(`InStep`).
-/
import ClusterOutput.Url.Punycode
import Mathlib.Data.List.TakeWhile
import Mathlib.Tactic.Ring

namespace ClusterOutput.Url.Punycode

/-! ## Gaps -/

theorem digitValue?_digit {v : Nat} (h : v < 36) : digitValue? (digit v) = some v := by
  have hall : ∀ v < 36, digitValue? (digit v) = some v := by decide
  exact hall v h

theorem threshold_pos (k bias : Nat) : 1 ≤ threshold k bias := by
  unfold threshold
  omega

theorem threshold_le (k bias : Nat) : threshold k bias ≤ 26 := by
  unfold threshold
  omega

theorem gapDigits_ne_nil (bias k gap : Nat) : gapDigits bias k gap ≠ [] := by
  rw [gapDigits]
  split <;> simp

theorem mem_gapDigits {bias k gap : Nat} {c : Char} (h : c ∈ gapDigits bias k gap) :
    ∃ v < 36, c = digit v := by
  induction k, gap using gapDigits.induct bias with
  | case1 k gap t hlast =>
    have hle : threshold k bias ≤ 26 := threshold_le k bias
    rw [gapDigits, if_pos hlast, List.mem_singleton] at h
    exact ⟨gap, by omega, h⟩
  | case2 k gap t hmore ih =>
    have hpos := threshold_pos k bias
    have hle := threshold_le k bias
    rw [gapDigits, if_neg hmore, List.mem_cons] at h
    rcases h with rfl | h
    · have hmod := Nat.mod_lt (gap - threshold k bias) (show 0 < 36 - threshold k bias by omega)
      exact ⟨_, by omega, rfl⟩
    · exact ih h

/-- The digits of a gap are read as the gap, whatever stands behind them. -/
theorem readGap_gapDigits (bias k weight sum gap : Nat) (rest : List Char) :
    readGap bias k weight sum (gapDigits bias k gap ++ rest) = some (sum + gap * weight, rest) := by
  induction k, gap using gapDigits.induct bias generalizing weight sum with
  | case1 k gap t hlast =>
    have hlow : threshold k bias ≤ 26 := threshold_le k bias
    rw [gapDigits, if_pos hlast, List.singleton_append, readGap, digitValue?_digit (by omega)]
    exact if_pos hlast
  | case2 k gap t hmore ih =>
    have hpos := threshold_pos k bias
    have hle := threshold_le k bias
    have hdigit : t + (gap - t) % (36 - t) < 36 := by
      have hmod := Nat.mod_lt (gap - t) (show 0 < 36 - t by omega)
      omega
    rw [gapDigits, if_neg hmore, List.cons_append, readGap, digitValue?_digit hdigit]
    simp only
    rw [if_neg (by omega), ih]
    have hsplit : (gap - t) % (36 - t) + (36 - t) * ((gap - t) / (36 - t)) = gap - t :=
      Nat.mod_add_div _ _
    have hgap : t + (gap - t) % (36 - t) + (36 - t) * ((gap - t) / (36 - t)) = gap := by omega
    have hsum : sum + (t + (gap - t) % (36 - t)) * weight +
        (gap - t) / (36 - t) * (weight * (36 - t)) = sum + gap * weight := by
      conv_rhs => rw [← hgap]
      ring
    rw [hsum]

/-! ## The decoder -/

/-- What a decoder has, and where it is: behind `place` in the round of `point`. -/
structure Reader where
  label : List Nat
  point : Nat
  place : Nat
  bias : Nat
  isFirst : Bool

namespace Reader

variable {r r' r'' : Reader} {k : Nat} {text : List Char}

/-- Inserts what the gaps of a text describe. -/
def run (r : Reader) (turns : Nat) (text : List Char) : Option (List Nat) :=
  insertGaps r.label r.point r.place r.bias r.isFirst turns text

/-- Inserts a point at a place, behind a gap. -/
def insert (r : Reader) (gap point place : Nat) : Reader where
  label := r.label.take place ++ point :: r.label.drop place
  point := point
  place := place + 1
  bias := adapt gap (r.label.length + 1) r.isFirst
  isFirst := false

/-- A number that is a character. -/
def IsPoint (n : Nat) : Prop := n ≤ 0x10ffff ∧ ¬(0xd800 ≤ n ∧ n ≤ 0xdfff)

/-- The gap leads the decoder to this point at this place. -/
structure Leads (r : Reader) (gap point place : Nat) : Prop where
  valid : IsPoint point
  ahead : r.point ≤ point
  within : place ≤ r.label.length
  position : r.point * (r.label.length + 1) + r.place + gap = point * (r.label.length + 1) + place

theorem run_gapDigits {gap point place : Nat} (h : r.Leads gap point place) (turns : Nat)
    (rest : List Char) :
    r.run (turns + 1) (gapDigits r.bias 36 gap ++ rest) = (r.insert gap point place).run turns rest := by
  obtain ⟨d, ds, hd⟩ := List.exists_cons_of_ne_nil (gapDigits_ne_nil r.bias 36 gap)
  have hread := readGap_gapDigits r.bias 36 1 0 gap rest
  obtain ⟨⟨hmax, hsurrogate⟩, hahead, hwithin, hposition⟩ := h
  have hsteps : r.place + gap = (point - r.point) * (r.label.length + 1) + place := by
    rw [Nat.sub_mul]
    have := Nat.mul_le_mul_right (r.label.length + 1) hahead
    omega
  have hdiv : (r.place + gap) / (r.label.length + 1) = point - r.point := by
    rw [hsteps, Nat.add_comm, Nat.add_mul_div_right _ _ (by omega),
      Nat.div_eq_of_lt (by omega), Nat.zero_add]
  have hmod : (r.place + gap) % (r.label.length + 1) = place := by
    rw [hsteps, Nat.add_comm, Nat.add_mul_mod_self_right, Nat.mod_eq_of_lt (by omega)]
  rw [hd, List.cons_append] at hread ⊢
  rw [run, insertGaps, hread]
  swap
  · exact List.cons_ne_nil _ _
  simp only [Nat.zero_add, Nat.mul_one, hdiv, hmod, Nat.add_sub_cancel' hahead]
  rw [if_neg (by omega)]
  rfl

/-- A decoder reads a text of some gaps and comes to another state. -/
inductive Reads (r : Reader) : Nat → List Char → Reader → Prop
  | nil : Reads r 0 [] r
  | snoc {k gap point place : Nat} {text : List Char} {r' : Reader} (h : Reads r k text r')
    (hleads : r'.Leads gap point place) :
    Reads r (k + 1) (text ++ gapDigits r'.bias 36 gap) (r'.insert gap point place)

theorem Reads.run (h : r.Reads k text r') (turns : Nat) (rest : List Char) :
    r.run (k + turns) (text ++ rest) = r'.run turns rest := by
  induction h generalizing turns rest with
  | nil => rw [Nat.zero_add, List.nil_append]
  | snoc h hleads ih =>
    rw [List.append_assoc, Nat.add_assoc, Nat.add_comm 1, ih, run_gapDigits hleads]

/-- There are no more gaps than digits. -/
theorem Reads.le_length (h : r.Reads k text r') : k ≤ text.length := by
  induction h with
  | nil => exact Nat.le_refl _
  | @snoc k gap _ _ _ r' h hleads ih =>
    have hdigits := List.length_pos_iff.mpr (gapDigits_ne_nil r'.bias 36 gap)
    rw [List.length_append]
    omega

theorem Reads.digits (h : r.Reads k text r') : ∀ c ∈ text, ∃ v < 36, c = digit v := by
  induction h with
  | nil => exact fun _ hc => nomatch hc
  | snoc h hleads ih =>
    intro c hc
    rcases List.mem_append.mp hc with hc | hc
    · exact ih c hc
    · exact mem_gapDigits hc

theorem Reads.run_all (h : r.Reads k text r') {turns : Nat} (hturns : text.length ≤ turns) :
    r.run turns text = some r'.label := by
  have hrun := h.run (turns - k) []
  rw [List.append_nil, Nat.add_sub_cancel' (Nat.le_trans h.le_length hturns)] at hrun
  rw [hrun, Reader.run]
  cases turns - k <;> rfl

end Reader

/-! ## The walk -/

open Reader

variable {r₀ r : Reader} {basic m : Nat} {w : Walk}

/-- The decoder stands where the walk stands, in the round of `m` between the points before and those
after: it has those that are at most `m` of the former, and those below `m` of the latter. -/
structure InStep (r₀ : Reader) (basic m : Nat) (before after : List Nat) (w : Walk) (r : Reader) :
    Prop where
  reads : ∃ k, r₀.Reads k w.written r
  label : r.label = before.filter (· ≤ m) ++ after.filter (· < m)
  bias : r.bias = w.bias
  isFirst : r.isFirst = (w.done == basic)
  done : r.label.length = w.done
  started : basic ≤ w.done
  ahead : r.point ≤ m
  position : r.point * (w.done + 1) + r.place + w.gap =
    m * (w.done + 1) + (before.filter (· ≤ m)).length

section

variable {before after : List Nat} {c : Nat}

/-- The walk goes past a point that stands already. -/
theorem InStep.past (h : InStep r₀ basic m before (c :: after) w r) (hlt : c < m) :
    InStep r₀ basic m (before ++ [c]) after { w with gap := w.gap + 1 } r := by
  refine { h with label := ?_, position := ?_ }
  · rw [h.label]
    simp [hlt, Nat.le_of_lt hlt]
  · have hposition := h.position
    simp only [List.filter_append, List.length_append]
    simp [Nat.le_of_lt hlt]
    omega

/-- The walk goes past a point whose round is still to come. -/
theorem InStep.future (h : InStep r₀ basic m before (c :: after) w r) (hlt : m < c) :
    InStep r₀ basic m (before ++ [c]) after w r := by
  have hle : ¬c ≤ m := Nat.not_le_of_lt hlt
  have hnot : ¬c < m := Nat.not_lt_of_lt hlt
  refine { h with label := ?_, position := ?_ }
  · rw [h.label]
    simp [hle, hnot]
  · rw [h.position]
    simp [hle]

/-- The walk writes the gap in front of a point, and the decoder inserts it. -/
theorem InStep.write (hm : IsPoint m) (h : InStep r₀ basic m before (m :: after) w r) :
    InStep r₀ basic m (before ++ [m]) after
      { written := w.written ++ gapDigits w.bias 36 w.gap, gap := 0
        bias := adapt w.gap (w.done + 1) (w.done == basic), done := w.done + 1 }
      (r.insert w.gap m (before.filter (· ≤ m)).length) := by
  have hleads : r.Leads w.gap m (before.filter (· ≤ m)).length :=
    { valid := hm, ahead := h.ahead
      within := by rw [h.label, List.length_append]; omega
      position := by rw [h.done]; exact h.position }
  obtain ⟨k, hreads⟩ := h.reads
  refine { reads := ⟨k + 1, ?_⟩, label := ?_, bias := ?_, isFirst := ?_, done := ?_, started := ?_,
           ahead := Nat.le_refl m, position := ?_ }
  · rw [← h.bias]
    exact hreads.snoc hleads
  · simp [Reader.insert, h.label]
  · show adapt w.gap (r.label.length + 1) r.isFirst = adapt w.gap (w.done + 1) (w.done == basic)
    rw [h.done, h.isFirst]
  · have hstarted := h.started
    simp [Reader.insert]
    omega
  · rw [← h.done, h.label]
    simp [Reader.insert, h.label]
    omega
  · exact Nat.le_succ_of_le h.started
  · simp [Reader.insert]

/-- A whole round keeps the decoder in step. -/
theorem InStep.pass (hm : IsPoint m) (h : InStep r₀ basic m before after w r) :
    ∃ r', InStep r₀ basic m (before ++ after) [] (w.pass basic m after) r' := by
  induction after generalizing before w r with
  | nil => exact ⟨r, by rwa [List.append_nil]⟩
  | cons c after ih =>
    rw [List.append_cons, Walk.pass]
    split
    next hlt => exact ih (h.past hlt)
    split
    next heq =>
      subst heq
      exact ih (h.write hm)
    next hlt hne => exact ih (h.future (by omega))

end

section

variable {label : List Nat}

/-- The rounds up to that of the next point of the label are left out. -/
theorem InStep.enter {n : Nat} (h : InStep r₀ basic n [] label w r) (hn : n ≤ m)
    (hnext : ∀ c ∈ label, n ≤ c → m ≤ c) :
    InStep r₀ basic m [] label { w with gap := w.gap + (m - n) * (w.done + 1) } r := by
  have hskipped : label.filter (· < n) = label.filter (· < m) := by
    refine List.filter_congr fun c hc => decide_eq_decide.mpr ?_
    have := hnext c hc
    omega
  refine { h with label := ?_, ahead := Nat.le_trans h.ahead hn, position := ?_ }
  · rw [h.label, hskipped, List.filter_nil, List.filter_nil]
  · have hposition := h.position
    have hdistance := Nat.mul_le_mul_right (w.done + 1) hn
    simp only [Nat.sub_mul, List.filter_nil, List.length_nil] at hposition ⊢
    omega

/-- After a round the next one begins. -/
theorem InStep.leave (h : InStep r₀ basic m label [] w r) :
    InStep r₀ basic (m + 1) [] label { w with gap := w.gap + 1 } r := by
  have hbelow : label.filter (· ≤ m) = label.filter (· < m + 1) :=
    List.filter_congr fun c _ => decide_eq_decide.mpr Nat.lt_succ_iff.symm
  have hlabel : r.label = label.filter (· < m + 1) := by
    rw [h.label, List.filter_nil, List.append_nil, hbelow]
  refine { h with label := hlabel, ahead := Nat.le_succ_of_le h.ahead, position := ?_ }
  have hposition := h.position
  rw [hbelow, ← hlabel, h.done] at hposition
  simp only [Nat.add_mul, Nat.one_mul, List.filter_nil, List.length_nil] at hposition ⊢
  omega

/-- The walk over all points that are to come keeps the decoder in step. -/
theorem InStep.over {ms : List Nat} {n : Nat} (h : InStep r₀ basic n [] label w r)
    (hsorted : ms.Pairwise (· < ·)) (hfrom : ∀ m ∈ ms, n ≤ m) (hvalid : ∀ m ∈ ms, IsPoint m)
    (hall : ∀ c ∈ label, n ≤ c → c ∈ ms) :
    ∃ k r', r₀.Reads k (Walk.over basic label n w ms).written r' ∧ r'.label = label := by
  -- the points that are not among `ms` are not in the label either, so that their rounds add nothing
  induction ms generalizing n w r with
  | nil =>
    obtain ⟨k, hreads⟩ := h.reads
    refine ⟨k, r, hreads, ?_⟩
    rw [h.label, List.filter_nil, List.nil_append]
    refine List.filter_eq_self.mpr fun c hc => ?_
    have hlt : ¬n ≤ c := fun hle => List.not_mem_nil (hall c hc hle)
    simpa using hlt
  | cons m ms ih =>
    obtain ⟨hnext, hsorted⟩ := List.pairwise_cons.mp hsorted
    rw [List.forall_mem_cons] at hfrom hvalid
    have hrest (c : Nat) (hc : c ∈ label) (hle : n ≤ c) : c = m ∨ c ∈ ms :=
      List.mem_cons.mp (hall c hc hle)
    have hstart := h.enter hfrom.1 fun c hc hle =>
      (hrest c hc hle).elim (fun heq => heq ▸ Nat.le_refl m) fun hmem => Nat.le_of_lt (hnext c hmem)
    obtain ⟨r', hr'⟩ := hstart.pass hvalid.1
    refine ih hr'.leave hsorted hnext hvalid.2 fun c hc hle => ?_
    have hle' : m < c := hle
    exact (hrest c hc (by omega)).resolve_left (Nat.ne_of_gt hle')

end

/-! ## Whole labels -/

theorem mem_insertAscending {x y : Nat} {l : List Nat} :
    y ∈ insertAscending x l ↔ y = x ∨ y ∈ l := by
  induction l with
  | nil => simp [insertAscending]
  | cons z l ih =>
    unfold insertAscending
    split
    · simp
    split
    next heq => simp [heq]
    · simp only [List.mem_cons, ih]
      tauto

theorem pairwise_insertAscending {x : Nat} {l : List Nat} (h : l.Pairwise (· < ·)) :
    (insertAscending x l).Pairwise (· < ·) := by
  induction l with
  | nil => simp [insertAscending]
  | cons z l ih =>
    obtain ⟨hz, hl⟩ := List.pairwise_cons.mp h
    unfold insertAscending
    split
    next hlt =>
      refine List.pairwise_cons.mpr ⟨fun y hy => ?_, h⟩
      rcases List.mem_cons.mp hy with rfl | hy
      · exact hlt
      · exact Nat.lt_trans hlt (hz y hy)
    split
    · exact h
    next hlt hne =>
      refine List.pairwise_cons.mpr ⟨fun y hy => ?_, ih hl⟩
      rcases mem_insertAscending.mp hy with rfl | hy
      · omega
      · exact hz y hy

theorem ascending_foldr (l : List Nat) :
    (l.foldr insertAscending []).Pairwise (· < ·) ∧ ∀ y, y ∈ l.foldr insertAscending [] ↔ y ∈ l := by
  induction l with
  | nil => exact ⟨List.Pairwise.nil, fun y => Iff.rfl⟩
  | cons x l ih =>
    refine ⟨pairwise_insertAscending ih.1, fun y => ?_⟩
    rw [List.foldr_cons, mem_insertAscending, ih.2, List.mem_cons]

theorem isPoint_toNat (c : Char) : IsPoint c.toNat := by
  rcases c.valid with h | ⟨hlow, hhigh⟩
  · exact ⟨by change c.val.toNat ≤ _; omega, by change ¬(_ ≤ c.val.toNat ∧ _); omega⟩
  · exact ⟨by change c.val.toNat ≤ _; omega, by change ¬(_ ∧ c.val.toNat ≤ _); omega⟩

/-- The ASCII characters of a label. -/
def basicOf (label : List Char) : List Char := label.filter (·.toNat < 0x80)

/-- The decoder before the first gap. -/
def Reader.start (label : List Char) : Reader :=
  ⟨(basicOf label).map (·.toNat), 0x80, 0, 72, true⟩

/-- What is written behind the ASCII characters leads a decoder from these to the label. -/
theorem encode_reads (label : List Char) :
    ∃ written k r', encode label =
        basicOf label ++ (if (basicOf label).isEmpty then [] else ['-']) ++ written ∧
      (Reader.start label).Reads k written r' ∧ r'.label = label.map (·.toNat) := by
  obtain ⟨hsorted, hmem⟩ := ascending_foldr ((label.map (·.toNat)).filter (0x80 ≤ ·))
  have hbasic : (basicOf label).map (·.toNat) = (label.map (·.toNat)).filter (· < 0x80) := by
    rw [List.filter_map]
    rfl
  have hstart : InStep (.start label) (basicOf label).length 0x80 [] (label.map (·.toNat))
      ⟨[], 0, 72, (basicOf label).length⟩ (.start label) :=
    { reads := ⟨0, .nil⟩, label := hbasic, bias := rfl, isFirst := by simp [Reader.start]
      done := List.length_map _, started := Nat.le_refl _, ahead := Nat.le_refl _
      position := by simp [Reader.start] }
  obtain ⟨k, r', hreads, hlabel⟩ := hstart.over hsorted
    (fun m hm => by simpa using (List.mem_filter.mp ((hmem m).mp hm)).2)
    (fun m hm => by
      obtain ⟨c, -, rfl⟩ := List.mem_map.mp (List.mem_filter.mp ((hmem m).mp hm)).1
      exact isPoint_toNat c)
    fun c hc hle => (hmem c).mpr (List.mem_filter.mpr ⟨hc, by simpa using hle⟩)
  exact ⟨_, k, r', rfl, hreads, hlabel⟩

/-- The text before the last hyphen and the text behind it. -/
def splitHyphen (text : List Char) : List Char × List Char :=
  match text.reverse.dropWhile (· != '-') with
  | [] => ([], text)
  | _ :: front => (front.reverse, text.drop (front.length + 1))

theorem decode?_eq (text : List Char) :
    decode? text =
      if (splitHyphen text).1.any (0x80 ≤ ·.toNat) then none
      else
        (insertGaps ((splitHyphen text).1.map (·.toNat)) 0x80 0 72 true text.length
          (splitHyphen text).2).map (·.map Char.ofNat) := rfl

theorem splitHyphen_encoded (basic : List Char) {written : List Char}
    (hwritten : ∀ c ∈ written, c ≠ '-') :
    splitHyphen (basic ++ (if basic.isEmpty then [] else ['-']) ++ written) = (basic, written) := by
  have hall : ∀ c ∈ written.reverse, (c != '-') = true := fun c hc => by
    simpa using hwritten c (List.mem_reverse.mp hc)
  unfold splitHyphen
  cases basic with
  | nil =>
    have hdrop : ([] ++ (if ([] : List Char).isEmpty then [] else ['-']) ++ written).reverse.dropWhile
        (· != '-') = [] := List.dropWhile_eq_nil_iff.2 hall
    rw [hdrop]
    rfl
  | cons c basic =>
    have hdrop : ((c :: basic) ++ (if (c :: basic).isEmpty then [] else ['-']) ++
        written).reverse.dropWhile (· != '-') = '-' :: (c :: basic).reverse := by
      rw [List.reverse_append, List.dropWhile_append_of_pos hall, List.reverse_append]
      rfl
    rw [hdrop]
    simp only [List.reverse_reverse, List.isEmpty_cons, Bool.false_eq_true, if_false]
    rw [List.drop_left' (by simp)]

/-- **Punycode is read back.** -/
theorem decode?_encode (label : List Char) : decode? (encode label) = some label := by
  obtain ⟨written, k, r', hencode, hreads, hlabel⟩ := encode_reads label
  have hwritten : ∀ c ∈ written, c ≠ '-' := by
    intro c hc
    obtain ⟨v, hv, rfl⟩ := hreads.digits c hc
    have hall : ∀ v < 36, digit v ≠ '-' := by decide
    exact hall v hv
  have hbasic : (basicOf label).any (0x80 ≤ ·.toNat) = false := by
    rw [List.any_eq_false]
    intro c hc
    simpa using (List.mem_filter.mp hc).2
  have hturns : written.length ≤ (encode label).length := by
    rw [hencode, List.length_append]
    exact Nat.le_add_left _ _
  have hinserted : insertGaps ((basicOf label).map (·.toNat)) 0x80 0 72 true (encode label).length
      written = some r'.label := hreads.run_all hturns
  have hsplit : splitHyphen (encode label) = (basicOf label, written) := by
    rw [hencode, splitHyphen_encoded _ hwritten]
  rw [decode?_eq, hsplit, hbasic, if_neg Bool.false_ne_true, hinserted, hlabel, Option.map_some,
    List.map_map]
  exact congrArg some (List.map_id'' (fun c => Char.ofNat_toNat c) label)

end ClusterOutput.Url.Punycode
