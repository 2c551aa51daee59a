/-
Domain names stay as they are once they are in ASCII: to bring a name into ASCII a
second time changes nothing (`toAscii_again`).

Folding is settled after one turn, since no character stands for one that stands
for another. A label in Punycode passes the check of such labels because it is
decoded to the label that was folded.
-/
import ClusterOutput.Proofs.Text.Pieces
import ClusterOutput.Proofs.Url.Punycode
import ClusterOutput.Url.Domain

namespace ClusterOutput.Url.Domain

/-! ## Folding -/

/-- A small code point that stands for itself. -/
def isSettled (p : Nat) : Bool := p < 0xd800 && foldPoint p == some [p]

theorem singles_settled : ∀ s ∈ singles, s.2.all isSettled = true := by decide +kernel

theorem capitalRuns_settled :
    ∀ r ∈ capitalRuns, ∀ i < r.2.1 + 1 - r.1, isSettled (r.1 + i + r.2.2) = true := by
  decide +kernel

theorem capitalPairs_settled :
    ∀ r ∈ capitalPairs, ∀ i < (r.2 + 2 - r.1) / 2, isSettled (r.1 + 2 * i + 1) = true := by
  decide +kernel

theorem fullWidth_settled :
    ∀ i < 0x5e, (foldPoint (0xff01 + i)).all (·.all isSettled) = true := by
  decide +kernel

/-- A character stands for itself, or for such that stand for themselves. -/
theorem foldPoint_settled {n : Nat} {points : List Nat} (h : foldPoint n = some points) :
    points = [n] ∨ points.all isSettled = true := by
  -- one case for each table: a point that the table gives is one that no table moves on
  have hfold := h
  unfold foldPoint at h
  split at h
  · exact .inr (by rw [← Option.some.inj h]; rfl)
  split at h
  · cases h
  split at h
  · exact .inr (by rw [← Option.some.inj h]; decide)
  split at h
  next m found hfound =>
    obtain rfl := Option.some.inj h
    exact .inr (singles_settled _ (List.mem_of_find?_eq_some hfound))
  by_cases hwide : within 0xff01 0xff5e n = true
  · simp only [within, Bool.and_eq_true, decide_eq_true_eq] at hwide
    have hall := fullWidth_settled (n - 0xff01) (by omega)
    rw [Nat.add_sub_cancel' hwide.1, hfold] at hall
    exact .inr hall
  simp only [hwide, Bool.false_eq_true, if_false] at h
  split at h
  next first last distance hfound =>
    have hin := List.find?_some hfound
    simp only [within, Bool.and_eq_true, decide_eq_true_eq] at hin
    have hsettled := capitalRuns_settled _ (List.mem_of_find?_eq_some hfound) (n - first) (by
      show n - first < last + 1 - first
      omega)
    simp only [Nat.add_sub_cancel' hin.1] at hsettled
    exact .inr (by rw [← Option.some.inj h]; simp [hsettled])
  split at h
  next first last hfound =>
    have hin := List.find?_some hfound
    simp only [within, Bool.and_eq_true, decide_eq_true_eq] at hin
    have hsettled := capitalPairs_settled _ (List.mem_of_find?_eq_some hfound) ((n - first) / 2) (by
      show (n - first) / 2 < (last + 2 - first) / 2
      omega)
    have hsmall : (if (n - first) % 2 = 0 then n + 1 else n) = first + 2 * ((n - first) / 2) + 1 := by
      split <;> omega
    exact .inr (by rw [← Option.some.inj h, hsmall]; simpa using hsettled)
  · exact .inl (Option.some.inj h).symm

/-- The characters stand for themselves. -/
def IsFolded (cs : List Char) : Prop := ∀ c ∈ cs, foldPoint c.toNat = some [c.toNat]

theorem toNat_ofSettled {p : Nat} (h : isSettled p = true) :
    (Char.ofNat p).toNat = p ∧ foldPoint p = some [p] := by
  simp only [isSettled, Bool.and_eq_true, decide_eq_true_eq, beq_iff_eq] at h
  refine ⟨?_, h.2⟩
  have hvalid : p.isValidChar := .inl h.1
  rw [Char.ofNat, dif_pos hvalid]
  rfl

theorem fold_eq_self {cs : List Char} (h : IsFolded cs) : fold cs = some cs := by
  induction cs with
  | nil => rfl
  | cons c cs ih =>
    rw [fold, h c List.mem_cons_self, ih fun d hd => h d (List.mem_cons_of_mem _ hd)]
    simp [Char.ofNat_toNat]

/-- Folding is done after one turn. -/
theorem isFolded_of_fold {cs folded : List Char} (h : fold cs = some folded) : IsFolded folded := by
  induction cs generalizing folded with
  | nil =>
    obtain rfl := Option.some.inj h
    exact fun c hc => nomatch hc
  | cons c cs ih =>
    rw [fold] at h
    split at h
    next points rest hpoints hrest =>
      obtain rfl := Option.some.inj h
      intro d hd
      rcases List.mem_append.mp hd with hd | hd
      · obtain ⟨p, hp, rfl⟩ := List.mem_map.mp hd
        rcases foldPoint_settled hpoints with rfl | hsettled
        · obtain rfl := List.mem_singleton.mp hp
          rw [Char.ofNat_toNat]
          exact hpoints
        · obtain ⟨hnat, hself⟩ := toNat_ofSettled (List.all_eq_true.mp hsettled p hp)
          rw [hnat]
          exact hself
      · exact ih hrest d hd
    · cases h

/-! ## Labels -/

theorem isAscii_append {cs cs' : List Char} : isAscii (cs ++ cs') = (isAscii cs && isAscii cs') :=
  List.all_append

/-- What is written of a label: small ASCII letters, digits and hyphens, and its own characters. -/
theorem encode_chars {label : List Char} (h : IsFolded label) (hdots : '.' ∉ label) :
    isAscii (Punycode.encode label) = true ∧ IsFolded (Punycode.encode label) ∧
      '.' ∉ Punycode.encode label := by
  obtain ⟨written, k, r, hencode, hreads, -⟩ := Punycode.encode_reads label
  have hall : ∀ c ∈ Punycode.encode label,
      c.toNat < 0x80 ∧ foldPoint c.toNat = some [c.toNat] ∧ c ≠ '.' := by
    intro c hc
    rw [hencode, List.mem_append, List.mem_append] at hc
    rcases hc with (hc | hc) | hc
    · obtain ⟨hmem, hascii⟩ := List.mem_filter.mp hc
      exact ⟨by simpa using hascii, h c hmem, fun heq => hdots (heq ▸ hmem)⟩
    · split at hc
      · exact nomatch hc
      · obtain rfl := List.mem_singleton.mp hc
        decide
    · obtain ⟨v, hv, rfl⟩ := hreads.digits c hc
      have hdigits : ∀ v < 36, (Punycode.digit v).toNat < 0x80 ∧
          foldPoint (Punycode.digit v).toNat = some [(Punycode.digit v).toNat] ∧
          Punycode.digit v ≠ '.' := by
        decide +kernel
      exact hdigits v hv
  refine ⟨List.all_eq_true.mpr fun c hc => by simpa using (hall c hc).1, fun c hc => (hall c hc).2.1,
    fun hdot => (hall _ hdot).2.2 rfl⟩

/-- A label in ASCII stays as it is. -/
structure IsSettledLabel (label : List Char) : Prop where
  again : labelToAscii label = some label
  ascii : isAscii label = true
  folded : IsFolded label
  no_dot : '.' ∉ label

theorem markChars_settled : isAscii markChars = true ∧
    (∀ c ∈ markChars, foldPoint c.toNat = some [c.toNat]) ∧ '.' ∉ markChars := by
  have hfolded : (markChars.all fun c => foldPoint c.toNat == some [c.toNat]) = true := by
    decide +kernel
  exact ⟨by decide, fun c hc => beq_iff_eq.mp (List.all_eq_true.mp hfolded c hc), by decide⟩

theorem labelToAscii_settled {label ascii : List Char} (hfolded : IsFolded label)
    (hdots : '.' ∉ label) (h : labelToAscii label = some ascii) : IsSettledLabel ascii := by
  have hlabel := h
  unfold labelToAscii at h
  split at h
  next code hcode =>
    -- the label is in Punycode already, and is kept
    split at h
    · cases h
    next plain hplain =>
      split at h
      · cases h
      next hcheck =>
        obtain rfl := Option.some.inj h
        have hascii : isAscii code = true := by
          simp only [Bool.or_eq_true, Bool.not_eq_true', not_or, Bool.not_eq_false] at hcheck
          exact hcheck.2
        refine ⟨hlabel, ?_, hfolded, hdots⟩
        unfold unmark? at hcode
        split at hcode
        · obtain rfl := Option.some.inj hcode
          exact hascii
        · cases hcode
  next hcode =>
    split at h
    next hascii =>
      obtain rfl := Option.some.inj h
      exact ⟨hlabel, hascii, hfolded, hdots⟩
    next hascii =>
      split at h
      next hbegins =>
        obtain rfl := Option.some.inj h
        -- the label is encoded now: the check of its code decodes it to the folded label
        obtain ⟨hencascii, hencfolded, hencdots⟩ := encode_chars hfolded hdots
        have hunmark : unmark? (markChars ++ Punycode.encode label) =
            some (Punycode.encode label) := rfl
        obtain ⟨hmarkascii, hmarkfolded, hmarkdots⟩ := markChars_settled
        refine ⟨?_, ?_, ?_, ?_⟩
        · rw [labelToAscii, hunmark]
          simp [Punycode.decode?_encode, hascii, hbegins, fold_eq_self hfolded, hencascii]
        · rw [isAscii_append, hmarkascii, hencascii]
          rfl
        · exact fun c hc => (List.mem_append.mp hc).elim (hmarkfolded c) (hencfolded c)
        · exact fun hc => (List.mem_append.mp hc).elim hmarkdots hencdots
      · cases h

/-! ## Names -/

theorem labelsToAscii_settled {labels ls : List (List Char)} (hfolded : ∀ label ∈ labels, IsFolded label)
    (hdots : ∀ label ∈ labels, '.' ∉ label) (h : labelsToAscii labels = some ls) :
    (∀ label ∈ ls, IsSettledLabel label) ∧ (labels ≠ [] → ls ≠ []) := by
  induction labels generalizing ls with
  | nil =>
    obtain rfl := Option.some.inj h
    exact ⟨fun _ hl => (nomatch hl), id⟩
  | cons label labels ih =>
    rw [labelsToAscii] at h
    split at h
    next ascii rest hascii hrest =>
      obtain rfl := Option.some.inj h
      obtain ⟨hsettled, -⟩ := ih (fun l hl => hfolded l (List.mem_cons_of_mem _ hl))
        (fun l hl => hdots l (List.mem_cons_of_mem _ hl)) hrest
      have hfirst := labelToAscii_settled (hfolded _ List.mem_cons_self) (hdots _ List.mem_cons_self)
        hascii
      exact ⟨List.forall_mem_cons.mpr ⟨hfirst, hsettled⟩, fun _ => List.cons_ne_nil _ _⟩
    · cases h

theorem labelsToAscii_again {ls : List (List Char)} (h : ∀ label ∈ ls, IsSettledLabel label) :
    labelsToAscii ls = some ls := by
  induction ls with
  | nil => rfl
  | cons label ls ih =>
    rw [labelsToAscii, (h label List.mem_cons_self).again,
      ih fun l hl => h l (List.mem_cons_of_mem _ hl)]

theorem pieces_joinLabels {ls : List (List Char)} (hne : ls ≠ []) (hdots : ∀ label ∈ ls, '.' ∉ label) :
    Text.pieces '.' (joinLabels ls) = ls := by
  induction ls with
  | nil => exact absurd rfl hne
  | cons label ls ih =>
    have hlabel := hdots label List.mem_cons_self
    cases ls with
    | nil => exact Text.pieces_single hlabel
    | cons next ls =>
      rw [joinLabels, Text.pieces_append hlabel,
        ih (List.cons_ne_nil _ _) fun l hl => hdots l (List.mem_cons_of_mem _ hl)]
      exact List.cons_ne_nil _ _

/-- What holds of a dot and of the characters of all labels holds of the joined labels. -/
theorem forall_joinLabels {P : Char → Prop} {ls : List (List Char)} (hdot : P '.')
    (h : ∀ label ∈ ls, ∀ c ∈ label, P c) : ∀ c ∈ joinLabels ls, P c := by
  induction ls with
  | nil => exact fun _ hc => nomatch hc
  | cons label ls ih =>
    have hlabel := h label List.mem_cons_self
    cases ls with
    | nil => exact hlabel
    | cons next ls =>
      have hrest := ih fun l hl => h l (List.mem_cons_of_mem _ hl)
      intro c hc
      rw [joinLabels] at hc
      · rcases List.mem_append.mp hc with hc | hc
        · exact hlabel c hc
        · exact (List.mem_cons.mp hc).elim (fun heq => heq ▸ hdot) (hrest c)
      · exact List.cons_ne_nil _ _

/-- Labels in ASCII, joined, are a name that stays as it is. -/
theorem toAscii_joinLabels {ls : List (List Char)} (hne : ls ≠ [])
    (hsettled : ∀ label ∈ ls, IsSettledLabel label) (hallowed : (joinLabels ls).any isForbidden = false) :
    toAscii (joinLabels ls) = some (joinLabels ls) := by
  have hfolded : IsFolded (joinLabels ls) :=
    forall_joinLabels (by decide +kernel) fun label hlabel => (hsettled label hlabel).folded
  rw [toAscii, fold_eq_self hfolded]
  simp only [pieces_joinLabels hne fun label hlabel => (hsettled label hlabel).no_dot,
    labelsToAscii_again hsettled, hallowed, Bool.false_eq_true, if_false]

/-- A name in ASCII consists of such labels. -/
theorem toAscii_labels {name ascii : List Char} (h : toAscii name = some ascii) :
    ∃ ls, ls ≠ [] ∧ (∀ label ∈ ls, IsSettledLabel label) ∧ ascii = joinLabels ls ∧
      ascii.any isForbidden = false := by
  unfold toAscii at h
  split at h
  · cases h
  next folded hfold =>
    have hfolded := isFolded_of_fold hfold
    split at h
    · cases h
    next ls hls =>
      obtain ⟨hsettled, hne⟩ := labelsToAscii_settled
        (fun label hlabel c hc => hfolded c ((Text.mem_of_mem_pieces hlabel).2 c hc))
        (fun label hlabel => (Text.mem_of_mem_pieces hlabel).1) hls
      simp only at h
      split at h
      · cases h
      next hallowed =>
        obtain rfl := Option.some.inj h
        exact ⟨ls, hne (Text.pieces_ne_nil _ _), hsettled, rfl, Bool.eq_false_iff.mpr hallowed⟩

/-- **A name in ASCII stays as it is.** -/
theorem toAscii_again {name ascii : List Char} (h : toAscii name = some ascii) :
    toAscii ascii = some ascii := by
  obtain ⟨ls, hne, hsettled, rfl, hallowed⟩ := toAscii_labels h
  exact toAscii_joinLabels hne hsettled hallowed

theorem toAscii_chars {name ascii : List Char} (h : toAscii name = some ascii) :
    ∀ c ∈ ascii, c.toNat < 0x80 ∧ isForbidden c = false := by
  obtain ⟨ls, -, hsettled, rfl, hallowed⟩ := toAscii_labels h
  have hascii : ∀ c ∈ joinLabels ls, c.toNat < 0x80 :=
    forall_joinLabels (by decide) fun label hlabel c hc => by
      simpa using List.all_eq_true.mp (hsettled label hlabel).ascii c hc
  exact fun c hc => ⟨hascii c hc, by simpa using List.any_eq_false.mp hallowed c hc⟩

end ClusterOutput.Url.Domain
