/-
Answers survive being written and read again (`reencoded_read`), however lenient the
reader was with the body that they came from: the text of an answer is the one form of it
that has every member in its place.

What a reader gives is within the bounds of what is written (`IsRead`), and what is
within them is read back.
-/
import ClusterOutput.Client.Documents
import ClusterOutput.Proofs.Json.Reading
import ClusterOutput.Proofs.Json.Records

namespace ClusterOutput

open Json (Fits FitMembers Takes TakesMembers)

/-! ## Answers to an operation -/

namespace Acknowledgement

/-- What a reader of answers can give. -/
structure IsRead (a : Acknowledgement) : Prop where
  source : ∀ v, a.source = some v → Fits 126 v ∧ v ≠ .null
  version_low : -0x8000000000000000 ≤ a.version
  version_high : a.version < 0x8000000000000000

theorem isRead_of_decode {body : Bytes} {a : Acknowledgement} (h : decode body = .ok a) :
    a.IsRead := by
  have hfields : ∀ field ∈ layout.fields, field.Keeps 126 fun d => d.complete.IsRead := by
    simp only [layout, List.forall_mem_cons]
    refine ⟨?ok, ?acknowledged, ?index, ?docType, ?id, ?source, ?version, ?isFound, ?isThere,
      ?isCreated, ?result, ?matched, List.forall_mem_nil _⟩
    case source =>
      refine Json.Field.of_keeps fun _ _ _ _ hread hdraft => { hdraft with source := ?_ }
      rintro v rfl
      exact Json.readOptional_fits hread
    case version =>
      exact Json.Field.of_keeps fun _ _ _ _ hread hdraft =>
        ⟨hdraft.source, (Json.readSigned_range hread).1, (Json.readSigned_range hread).2⟩
    all_goals exact Json.Field.of_keeps fun _ _ _ _ _ hdraft => { hdraft with }
  have hblank : layout.blank.complete.IsRead :=
    ⟨fun _ hv => (by cases hv), by decide, by decide⟩
  obtain ⟨draft, hdraft, rfl⟩ := Json.decode_invariant hfields hblank h
  exact hdraft

theorem readId_takes (nesting : Nat) (s : String) : Takes (readId nesting) (.str s) s := by
  intro style level bytes rest hskip hrest
  have hread := Json.readValue_takes (.str nesting s) rfl style level hskip hrest
  exact bind_eq_ok.mpr ⟨_, hread, rfl⟩

variable {a : Acknowledgement}

theorem toJson_isFloatless (hsource : ∀ v ∈ a.source, v.isFloatless = true) :
    a.toJson.isFloatless = true := by
  rw [toJson, Json.isFloatless_obj]
  have hmatched : (Json.arr (a.matched.map .str)).isFloatless = true := by
    rw [Json.isFloatless_arr, List.forall_mem_map]
    exact fun _ _ => rfl
  intro m hm
  simp only [List.mem_append, List.mem_cons, List.not_mem_nil, or_false] at hm
  rcases hm with (((hm | hm) | hm) | hm) | hm
  · rcases hm with rfl | rfl | rfl | rfl | rfl <;> rfl
  · split at hm
    next v hv =>
      rw [List.mem_singleton.mp hm]
      exact hsource v hv
    · cases hm
  · rcases hm with rfl | rfl | rfl | rfl <;> rfl
  · split at hm
    · rw [List.mem_singleton.mp hm]
      rfl
    · cases hm
  · rw [hm]
    exact hmatched

/-- The draft that the members fill in which an answer is written with. -/
def filled (a : Acknowledgement) : Draft where
  ok := some a.ok
  acknowledged := some a.acknowledged
  index := some a.index
  docType := some a.docType
  id := some a.id
  source := a.source.map some
  version := some a.version
  isFound := some a.isFound
  isThere := some a.isThere
  isCreated := some a.isCreated
  result := a.result.map some
  matched := some a.matched

theorem filled_complete (a : Acknowledgement) : a.filled.complete = a := by
  obtain ⟨_, _, _, _, _, source, _, _, _, _, result, _⟩ := a
  cases source <;> cases result <;> rfl

/-- A source is a member where there is one. -/
theorem source_takes (h : a.IsRead) (hsource : ∀ v ∈ a.source, v.isFloatless = true)
    {draft : Draft} (hdraft : draft.source = none) :
    TakesMembers (layout.member 126) draft
      (match a.source with | some v => [("_source", v)] | none => [])
      { draft with source := a.source.map some } := by
  cases hv : a.source with
  | none =>
    have hsame : { draft with source := none } = draft := by rw [← hdraft]
    rw [Option.map_none, hsame]
    exact .nil draft
  | some v =>
    obtain ⟨hfits, hne⟩ := h.source v hv
    have hread := Json.readOptional_takes_some (Json.readValue_takes hfits (hsource v hv))
      (hsource v hv) hne
    exact .cons (Json.Layout.takes rfl hdraft hread) (.nil _)

/-- A result is a member where there is one. -/
theorem result_takes (a : Acknowledgement) {draft : Draft} (hdraft : draft.result = none) :
    TakesMembers (layout.member 126) draft
      (match a.result with | some s => [("result", .str s)] | none => [])
      { draft with result := a.result.map some } := by
  cases a.result with
  | none =>
    have hsame : { draft with result := none } = draft := by rw [← hdraft]
    rw [Option.map_none, hsame]
    exact .nil draft
  | some s =>
    have hread := Json.readOptional_takes_some (Json.readText_takes 126 s) rfl (by simp)
    exact .cons (Json.Layout.takes rfl hdraft hread) (.nil _)

/-- An answer is read from what it is written as. -/
theorem toJson_takes (h : a.IsRead) (hsource : ∀ v ∈ a.source, v.isFloatless = true) :
    Takes (Json.readAs layout Draft.complete Json.nestingLimit) a.toJson a := by
  have hmatched : Takes (Json.readList Json.readText 126) (.arr (a.matched.map .str)) a.matched :=
    Json.readList_takes (fun s _ => Json.readText_takes 125 s) fun _ _ => rfl
  have hrecord : Takes (Json.readRecord layout Json.nestingLimit) a.toJson a.filled := by
    refine Json.readRecord_takes ?_ rfl (Json.isFloatless_obj.mp (toJson_isFloatless hsource))
    simp only [List.append_assoc, List.cons_append, List.nil_append]
    refine .cons (Json.Layout.takes rfl rfl (Json.readBool_takes 126 a.ok)) ?_
    refine .cons (Json.Layout.takes rfl rfl (Json.readBool_takes 126 a.acknowledged)) ?_
    refine .cons (Json.Layout.takes rfl rfl (Json.readText_takes 126 a.index)) ?_
    refine .cons (Json.Layout.takes rfl rfl (Json.readText_takes 126 a.docType)) ?_
    refine .cons (Json.Layout.takes rfl rfl (readId_takes 126 a.id)) ?_
    refine .append (source_takes h hsource rfl) ?_
    refine .cons (Json.Layout.takes rfl rfl
      (Json.readSigned_takes 126 h.version_low h.version_high)) ?_
    refine .cons (Json.Layout.takes rfl rfl (Json.readBool_takes 126 a.isFound)) ?_
    refine .cons (Json.Layout.takes rfl rfl (Json.readBool_takes 126 a.isThere)) ?_
    refine .cons (Json.Layout.takes rfl rfl (Json.readBool_takes 126 a.isCreated)) ?_
    refine .append (result_takes a rfl) ?_
    exact .cons (Json.Layout.takes rfl rfl hmatched) (.nil _)
  have htakes : Takes (Json.readAs layout Draft.complete _) a.toJson a.filled.complete :=
    Json.readAs_takes hrecord
  rwa [filled_complete] at htakes

end Acknowledgement

/-! ## Answers to a search -/

theorem Text.readDigits_lt {limit acc n : Nat} {cs : List Char}
    (h : Text.readDigits limit acc cs = .ok n) (hacc : acc < limit) : n < limit := by
  induction cs generalizing acc with
  | nil =>
    cases h
    exact hacc
  | cons c cs ih =>
    rw [Text.readDigits] at h
    split at h
    · cases h
    split at h
    next hlt => exact ih h hlt
    · cases h

theorem Text.readWord_lt {s : String} {n : Nat} (h : Text.readWord s = .ok n) :
    n < Text.wordLimit := by
  unfold Text.readWord Text.readNumber at h
  split at h
  · cases h
  · cases h
  · cases h
  · exact Text.readDigits_lt h (by decide)
  · exact Text.readDigits_lt h (by decide)

namespace Hits

variable {h : Hits} {n nesting : Nat} {v : Json} {bytes rest : Bytes}

theorem count?_lt (hv : Fits nesting v) (hn : count? v = some n) : n < Text.wordLimit := by
  cases hv with
  | @int _ i _ hhigh =>
    cases i with
    | ofNat m =>
      obtain rfl := Option.some.inj hn
      exact Int.ofNat_lt.mp hhigh
    | negSucc m => cases hn
  | null | bool | float | str | arr | obj => cases hn

theorem totalOf_lt (hv : Fits nesting v) (hn : totalOf v = .ok n) : n < Text.wordLimit := by
  cases hv with
  | null =>
    cases hn
    decide
  | @int _ i _ hhigh =>
    cases i with
    | ofNat m =>
      cases hn
      exact Int.ofNat_lt.mp hhigh
    | negSucc m => cases hn
  | str _ s =>
    rw [totalOf] at hn
    split at hn
    next hword =>
      cases hn
      exact Text.readWord_lt hword
    · cases hn
  | bool | float | arr | obj => cases hn

theorem totalOfMembers?_lt {members : List (String × Json)}
    (hmembers : ∀ m ∈ members, Fits nesting m.2) (hn : totalOfMembers? members = some n) :
    n < Text.wordLimit := by
  unfold totalOfMembers? at hn
  split at hn
  next name v hfilter =>
    have hmem : (name, v) ∈ members.filter (·.1 == "value") := by
      rw [hfilter]
      exact List.mem_singleton_self _
    exact count?_lt (hmembers _ (List.mem_filter.mp hmem).1) hn
  · cases hn

theorem pairInto_fits {value : Bytes → Except Json.Fault (Json × Bytes)}
    (hvalue : ∀ {bytes v rest}, value bytes = .ok (v, rest) → Fits nesting v)
    {members members' : List (String × Json)} {name : String}
    (hread : pairInto value members name bytes = .ok (members', rest))
    (hmembers : ∀ m ∈ members, Fits nesting m.2) : ∀ m ∈ members', Fits nesting m.2 := by
  obtain ⟨bytes', -, hread⟩ := bind_eq_ok.mp hread
  obtain ⟨⟨v, rest'⟩, hv, hread⟩ := bind_eq_ok.mp hread
  cases hread
  exact List.forall_mem_cons.mpr ⟨hvalue hv, hmembers⟩

/-- The number of hits has 64 bits, in whatever form it came. -/
theorem readTotal_lt (hread : readTotal nesting bytes = .ok (n, rest)) : n < Text.wordLimit := by
  unfold readTotal at hread
  extract_lets plain at hread
  have hplain : plain = .ok (n, rest) → n < Text.wordLimit := by
    intro hread
    obtain ⟨⟨v, rest'⟩, hv, hread⟩ := bind_eq_ok.mp hread
    simp only at hread
    split at hread
    next htotal =>
      cases hread
      exact totalOf_lt (Json.readValue_fits hv) htotal
    · cases hread
  split at hread
  · split at hread
    · obtain ⟨⟨members, rest'⟩, hmembers, hread⟩ := bind_eq_ok.mp hread
      simp only at hread
      split at hread
      next htotal =>
        cases hread
        have hfits := Json.readMembers_invariant (pairInto_fits Json.readValue_fits) hmembers
          (List.forall_mem_nil _)
        exact totalOfMembers?_lt hfits htotal
      · cases hread
    · exact hplain hread
  · exact hplain hread

/-- What a reader of hits can give. -/
structure IsRead (h : Hits) : Prop where
  total : h.total < Text.wordLimit
  hits : ∀ v ∈ h.hits, Fits 124 v

theorem isRead_of_read (hread : Json.readAs layout Draft.complete 126 bytes = .ok (h, rest)) :
    h.IsRead := by
  have hfields : ∀ field ∈ layout.fields, field.Keeps 125 fun d => d.complete.IsRead := by
    simp only [layout, List.forall_mem_cons]
    refine ⟨?total, ?maxScore, ?hits, List.forall_mem_nil _⟩
    case total =>
      exact Json.Field.of_keeps fun _ _ _ _ hread hdraft => ⟨readTotal_lt hread, hdraft.hits⟩
    case maxScore =>
      exact Json.Field.of_keeps fun _ _ _ _ _ hdraft => ⟨hdraft.total, hdraft.hits⟩
    case hits =>
      exact Json.Field.of_keeps fun _ _ _ _ hread hdraft =>
        ⟨hdraft.total, Json.readList_forall Json.readValue_fits hread⟩
  obtain ⟨⟨draft, rest'⟩, hdraft, hread⟩ := bind_eq_ok.mp hread
  cases hread
  have hblank : layout.blank.complete.IsRead := ⟨by decide, List.forall_mem_nil _⟩
  exact Json.readRecord_invariant (P := fun d => d.complete.IsRead) hfields hblank hdraft

theorem readTotal_takes (nesting : Nat) (hn : n < Text.wordLimit) :
    Takes (readTotal nesting) (.int n) n := by
  intro style level bytes rest hskip hrest
  have hread := Json.readValue_takes (.int nesting (by omega) (Int.ofNat_lt.mpr hn)) rfl style level
    hskip hrest
  obtain ⟨d, hd, bytes', heq⟩ := Json.encodeChars_digits n
  have hhead : Json.skipSpace bytes = Json.digitByte d :: (bytes' ++ rest) := by
    rw [hskip, Json.Style.spell, ← List.cons_append, ← heq]
    rfl
  have hcurly : Json.digitByte d ≠ Json.openCurly :=
    Json.ne_of_isDigit (Json.isDigit_digitByte d hd) rfl
  unfold readTotal
  simp only [hhead]
  cases nesting with
  | zero => exact bind_eq_ok.mpr ⟨_, hread, rfl⟩
  | succ nesting =>
    simp only [hcurly, if_false]
    exact bind_eq_ok.mpr ⟨_, hread, rfl⟩

theorem toJson_isFloatless (h : Hits) (hscore : h.maxScore = none)
    (hfloatless : ∀ hit ∈ h.hits, hit.isFloatless = true) : h.toJson.isFloatless = true := by
  rw [toJson, hscore, Json.isFloatless_obj]
  simp only [List.forall_mem_cons]
  exact ⟨rfl, rfl, Json.isFloatless_arr.mpr hfloatless, List.forall_mem_nil _⟩

/-- Hits are read from what they are written as. -/
theorem toJson_takes (h : Hits) (hread : h.IsRead) (hscore : h.maxScore = none)
    (hfloatless : ∀ hit ∈ h.hits, hit.isFloatless = true) :
    Takes (Json.readAs layout Draft.complete 126) h.toJson h := by
  have hhits : Takes (Json.readList Json.readValue 125) (.arr h.hits) h.hits := by
    have hitems := Json.readList_takes
      (fun v hv => Json.readValue_takes (hread.hits v hv) (hfloatless v hv)) hfloatless
    rwa [List.map_id'] at hitems
  have hrecord : Takes (Json.readRecord layout 126) h.toJson
      ⟨some h.total, some h.maxScore, some h.hits⟩ := by
    refine Json.readRecord_takes ?_ rfl
      (Json.isFloatless_obj.mp (toJson_isFloatless h hscore hfloatless))
    refine .cons (Json.Layout.takes rfl rfl (readTotal_takes 125 hread.total)) ?_
    rw [hscore]
    refine .cons (Json.Layout.takes rfl rfl (Json.readOptional_takes_none _ 125)) ?_
    exact .cons (Json.Layout.takes rfl rfl hhits) (.nil _)
  exact Json.readAs_takes hrecord

end Hits

namespace SearchAnswer

/-- What a reader of search answers can give. -/
structure IsRead (a : SearchAnswer) : Prop where
  took : a.took < Text.wordLimit
  shards : Fits 126 a.shards
  hits : a.hits.IsRead
  aggregations : FitMembers 125 a.aggregations

theorem isRead_of_decode {body : Bytes} {a : SearchAnswer} (h : decode body = .ok a) :
    a.IsRead := by
  have hfields : ∀ field ∈ layout.fields, field.Keeps 126 fun d => d.complete.IsRead := by
    simp only [layout, List.forall_mem_cons]
    refine ⟨?took, ?timedOut, ?shards, ?hits, ?aggregations, List.forall_mem_nil _⟩
    case took =>
      exact Json.Field.of_keeps fun _ _ _ _ hread hdraft =>
        { hdraft with took := Json.readUnsigned_lt hread }
    case timedOut =>
      exact Json.Field.of_keeps fun _ _ _ _ _ hdraft => { hdraft with }
    case shards =>
      exact Json.Field.of_keeps fun _ _ _ _ hread hdraft =>
        { hdraft with shards := Json.readValue_fits hread }
    case hits =>
      exact Json.Field.of_keeps fun _ _ _ _ hread hdraft =>
        { hdraft with hits := Hits.isRead_of_read hread }
    case aggregations =>
      exact Json.Field.of_keeps fun _ _ _ _ hread hdraft =>
        { hdraft with aggregations := Json.readMap_fits hread }
  have hblank : layout.blank.complete.IsRead :=
    ⟨by decide, .null 126, ⟨by decide, List.forall_mem_nil _⟩, List.forall_mem_nil _, .nil⟩
  obtain ⟨draft, hdraft, rfl⟩ := Json.decode_invariant hfields hblank h
  exact hdraft

/-- No number within the answer is a float. -/
structure IsFloatless (a : SearchAnswer) : Prop where
  maxScore : a.hits.maxScore = none
  shards : a.shards.isFloatless = true
  hits : ∀ hit ∈ a.hits.hits, hit.isFloatless = true
  aggregations : ∀ m ∈ a.aggregations, m.2.isFloatless = true

theorem toJson_isFloatless {a : SearchAnswer} (h : a.IsFloatless) : a.toJson.isFloatless = true := by
  rw [toJson, Json.isFloatless_obj]
  simp only [List.forall_mem_cons]
  exact ⟨rfl, rfl, h.shards, a.hits.toJson_isFloatless h.maxScore h.hits,
    Json.isFloatless_obj.mpr h.aggregations, List.forall_mem_nil _⟩

variable {a : SearchAnswer} {members : List (String × Json)}

theorem IsFloatless.of_perm (h : a.IsFloatless) (hperm : members.Perm a.aggregations) :
    { a with aggregations := members }.IsFloatless :=
  { h with aggregations := fun m hm => h.aggregations m (hperm.mem_iff.mp hm) }

/-- An answer is read from what it is written as, with the aggregations in any order. -/
theorem toJson_takes (h : a.IsRead) (hfloatless : a.IsFloatless)
    (hperm : members.Perm a.aggregations) :
    Takes (Json.readAs layout Draft.complete Json.nestingLimit)
      { a with aggregations := members }.toJson a := by
  have haggregations : Takes (Json.readMap 126) (.obj members) a.aggregations :=
    Json.readMap_takes h.aggregations.1 h.aggregations.2 hfloatless.aggregations hperm
  have hrecord : Takes (Json.readRecord layout Json.nestingLimit)
      { a with aggregations := members }.toJson
      ⟨some a.took, some a.timedOut, some a.shards, some a.hits, some a.aggregations⟩ := by
    refine Json.readRecord_takes ?_ rfl
      (Json.isFloatless_obj.mp (toJson_isFloatless (hfloatless.of_perm hperm)))
    refine .cons (Json.Layout.takes rfl rfl (Json.readUnsigned_takes "u64" 126 h.took)) ?_
    refine .cons (Json.Layout.takes rfl rfl (Json.readBool_takes 126 a.timedOut)) ?_
    refine .cons (Json.Layout.takes rfl rfl (Json.readValue_takes h.shards hfloatless.shards)) ?_
    refine .cons (Json.Layout.takes rfl rfl
      (a.hits.toJson_takes h.hits hfloatless.maxScore hfloatless.hits)) ?_
    exact .cons (Json.Layout.takes rfl rfl haggregations) (.nil _)
  exact Json.readAs_takes hrecord

end SearchAnswer

/-! ## Written and read again -/

/-- **Answers survive being written and read again.** What was read of any body whose source holds
no float, an object or a sequence with its members in whatever form, is read once more from the
text of it; and so is the answer to a search without floats, compact or indented and whatever the
order of its aggregations. -/
theorem reencoded_read :
    (∀ (body : Bytes) (a : Acknowledgement), Acknowledgement.read body = .ok a →
      (∀ v ∈ a.source, v.isFloatless = true) →
      Acknowledgement.read (Utf8.encode a.text) = .ok a) ∧
    ∀ (body : Bytes) (a : SearchAnswer), SearchAnswer.read body = .ok a → a.IsFloatless →
      ∀ members : List (String × Json), members.Perm a.aggregations →
        let written := { a with aggregations := members }.toJson
        SearchAnswer.read (Utf8.encode written.compact) = .ok a ∧
          SearchAnswer.read (Utf8.encode written.pretty) = .ok a := by
  refine ⟨fun body a hread hsource => ?_, fun body a hread hfloatless members hperm => ?_⟩
  · have hbounds := Acknowledgement.isRead_of_decode (mapError_eq_ok.mp hread)
    exact mapError_eq_ok.mpr (Json.decode_compact (Acknowledgement.toJson_takes hbounds hsource)
      (Acknowledgement.toJson_isFloatless hsource))
  · have hbounds := SearchAnswer.isRead_of_decode (mapError_eq_ok.mp hread)
    have htakes := SearchAnswer.toJson_takes hbounds hfloatless hperm
    have hwritten := SearchAnswer.toJson_isFloatless (hfloatless.of_perm hperm)
    exact ⟨mapError_eq_ok.mpr (Json.decode_compact htakes hwritten),
      mapError_eq_ok.mpr (Json.decode_pretty htakes hwritten)⟩

/-- An acknowledgement came as a sequence with a number for an id, hits with their number in an
object: both are read again from what they are written as. -/
theorem reencoded_read_lenient :
    let sequence := "[true,false,\"i\",\"t\",7,\x7b\"b\":[1,null],\"a\":\"\\u00e9\"\x7d]"
    let found := "\x7b\"hits\":\x7b\"max_score\":null,\"total\":\x7b\"value\":1\x7d," ++
      "\"hits\":[\x7b\"_id\":\"1\"\x7d]\x7d,\"took\":3\x7d"
    (∃ a, Acknowledgement.read (Utf8.encode sequence) = .ok a ∧ a.id = "7" ∧
      Acknowledgement.read (Utf8.encode a.text) = .ok a) ∧
    ∃ a, SearchAnswer.read (Utf8.encode found) = .ok a ∧ a.hits.total = 1 ∧
      SearchAnswer.read (Utf8.encode a.toJson.compact) = .ok a := by
  intro sequence found
  have hsequence : ((Acknowledgement.read (Utf8.encode sequence)).toOption.any fun a =>
      a.id == "7" && a.source.all Json.isFloatless) = true := by
    decide +kernel
  have hfound : ((SearchAnswer.read (Utf8.encode found)).toOption.any fun a =>
      a.hits.total == 1 && a.hits.maxScore.isNone && a.shards.isFloatless &&
        a.hits.hits.all Json.isFloatless && a.aggregations.all (·.2.isFloatless)) = true := by
    decide +kernel
  obtain ⟨a, ha, hparts⟩ := (Option.any_eq_true _ _).mp hsequence
  obtain ⟨b, hb, hparts'⟩ := (Option.any_eq_true _ _).mp hfound
  simp only [Bool.and_eq_true, beq_iff_eq, Option.all_eq_true, List.all_eq_true,
    Option.isNone_iff_eq_none] at hparts hparts'
  obtain ⟨⟨⟨⟨htotal, hscore⟩, hshards⟩, hhits⟩, haggregations⟩ := hparts'
  have hread := reencoded_read.1 _ a (ok_of_toOption ha) hparts.2
  have hread' := reencoded_read.2 _ b (ok_of_toOption hb)
    ⟨hscore, hshards, hhits, haggregations⟩ b.aggregations (.refl _)
  exact ⟨⟨a, ok_of_toOption ha, hparts.1, hread⟩, b, ok_of_toOption hb, htotal, hread'.1⟩

end ClusterOutput
