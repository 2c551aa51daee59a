/-
Members of answers that come in several forms: the number of hits (`Hits.GivesTotal`) and the id
of a document (`Acknowledgement.GivesId`). Each form gives what it stands for, and any other value
is refused (`lenient_members_decoded`).

Whole numbers are those of 64 bits, in decimal. With a point or an exponent a number is a float to
its reader, and so is zero with a minus sign.
-/
import ClusterOutput.Proofs.Answer.AnyOrder
import ClusterOutput.Proofs.Json.Scalars
import ClusterOutput.Proofs.Text.Decimal
import Mathlib.Data.List.Forall2

namespace ClusterOutput

open Json (IsValue ObjectText ObjectPlace namedTexts whole?)
open Utf8 (encodeChars)

variable {text body : Bytes} {nesting n : Nat}

/-! ## The number of hits -/

namespace Hits

/-- The forms of a number of hits: nothing, a number, an object of which one member is that number
and all others can be read, and the decimal text of a number. -/
inductive GivesTotal (nesting : Nat) : Bytes → Nat → Prop
  | null : GivesTotal nesting (encodeChars Json.nullChars) 0
  | number {n : Nat} (hn : n < Text.wordLimit) : GivesTotal nesting (encodeChars (Text.digits n)) n
  | object {o : ObjectText} {n : Nat} (ho : o.IsWellFormed)
    (hread : ∀ t ∈ namedTexts o.members, (whole? (Json.readValue nesting) t.2).isSome = true)
    (hvalue : (namedTexts o.members).filter (·.1 == "value") = [("value", encodeChars (Text.digits n))])
    (hn : n < Text.wordLimit) : GivesTotal nesting o.text n
  | decimal {quoted : Bytes} {s : String} {n : Nat} (hs : whole? Json.readString quoted = some s)
    (hdecimal : Text.IsDecimal s.toList n) (hn : n < Text.wordLimit) :
    GivesTotal nesting (Json.quoteByte :: quoted) n

theorem totalOf_eq_ok {v : Json} : totalOf v = .ok n ↔
    v = .null ∧ n = 0 ∨ v = .int n ∨ ∃ s, v = .str s ∧ Text.readWord s = .ok n := by
  cases v with
  | null => simp [totalOf, eq_comm]
  | int i =>
    cases i with
    | ofNat m => simp [totalOf, ← Int.ofNat_eq_natCast]
    | negSucc m => simp [totalOf]
  | str s =>
    simp only [totalOf]
    cases hread : Text.readWord s with
    | ok m => simp [hread]
    | error fault => simp [hread]
  | bool | float | arr | obj => simp [totalOf]

/-- What is no object is read as the number that it gives. -/
theorem whole?_plain (htext : IsValue text) (hplain : ∀ rest, text ≠ Json.openCurly :: rest) :
    whole? (readTotal (nesting + 1)) text = some n ↔ GivesTotal nesting text n := by
  have hskip := htext.skipSpace_eq .nil []
  rw [List.append_nil, List.nil_append] at hskip
  have hread : whole? (readTotal (nesting + 1)) text = whole? (readPlainTotal (nesting + 1)) text := by
    unfold whole?
    rw [readTotal_plain fun rest hrest => hplain rest (hskip.symm.trans hrest)]
  rw [hread]
  refine (Json.whole?_andThen readPlainTotal_settles).trans ?_
  simp only [totalOf_eq_ok]
  constructor
  · rintro ⟨v, hv, ⟨rfl, rfl⟩ | rfl | ⟨s, rfl, hs⟩⟩
    · rw [(Json.whole?_null htext).mp hv]
      exact .null
    · obtain ⟨hn, rfl⟩ := (Json.whole?_count htext).mp hv
      exact .number hn
    · obtain ⟨quoted, rfl, hquoted⟩ := (Json.whole?_str htext).mp hv
      obtain ⟨hdecimal, hn⟩ := Text.readWord_eq_ok.mp hs
      exact .decimal hquoted hdecimal hn
  · intro h
    cases h with
    | null => exact ⟨.null, (Json.whole?_null htext).mpr rfl, .inl ⟨rfl, rfl⟩⟩
    | number hn => exact ⟨.int n, (Json.whole?_count htext).mpr ⟨hn, rfl⟩, .inr (.inl rfl)⟩
    | object => exact absurd rfl (hplain _)
    | @decimal _ s _ hs hdecimal hn =>
      exact ⟨.str s, (Json.whole?_str htext).mpr ⟨_, rfl, hs⟩,
        .inr (.inr ⟨s, rfl, Text.readWord_eq_ok.mpr ⟨hdecimal, hn⟩⟩)⟩

/-- What the text of a member is read as. -/
def ReadsMember (nesting : Nat) (t : String × Bytes) (m : String × Json) : Prop :=
  m.1 = t.1 ∧ whole? (Json.readValue nesting) t.2 = some m.2

/-- The step that a member makes: it is put before those read so far. -/
def pairStep (nesting : Nat) (members : List (String × Json)) (name : String) (text : Bytes) :
    Option (List (String × Json)) :=
  (whole? (Json.readValue nesting) text).map fun v => (name, v) :: members

theorem steps_pairs {texts : List (String × Bytes)} {before members : List (String × Json)} :
    Json.steps (pairStep nesting) before texts = some members ↔
      ∃ read, texts.Forall₂ (ReadsMember nesting) read ∧ members = read.reverse ++ before := by
  induction texts generalizing before with
  | nil =>
    simp only [List.forall₂_nil_left_iff, exists_eq_left, List.reverse_nil, List.nil_append]
    exact Option.some_inj.trans eq_comm
  | cons t texts ih =>
    have hcons : Json.steps (pairStep nesting) before (t :: texts) =
        (pairStep nesting before t.1 t.2).bind fun before => Json.steps (pairStep nesting) before texts :=
      rfl
    rw [hcons, Option.bind_eq_some_iff]
    constructor
    · rintro ⟨before', hstep, hsteps⟩
      obtain ⟨v, hv, rfl⟩ := Option.map_eq_some_iff.mp hstep
      obtain ⟨read, hread, rfl⟩ := ih.mp hsteps
      exact ⟨(t.1, v) :: read, .cons ⟨rfl, hv⟩ hread, by simp⟩
    · rintro ⟨read, hread, rfl⟩
      cases hread with
      | @cons _ m _ read hm hread =>
        refine ⟨(t.1, m.2) :: before, Option.map_eq_some_iff.mpr ⟨m.2, hm.2, rfl⟩, ?_⟩
        refine ih.mpr ⟨read, hread, ?_⟩
        rw [← hm.1]
        simp

/-- All texts are read if and only if each of them can be. -/
theorem exists_reads {texts : List (String × Bytes)} :
    (∃ read, texts.Forall₂ (ReadsMember nesting) read) ↔
      ∀ t ∈ texts, (whole? (Json.readValue nesting) t.2).isSome = true := by
  induction texts with
  | nil => exact ⟨fun _ => List.forall_mem_nil _, fun _ => ⟨[], .nil⟩⟩
  | cons t texts ih =>
    rw [List.forall_mem_cons, ← ih]
    constructor
    · rintro ⟨_, hread⟩
      cases hread with
      | cons hm hread => exact ⟨Option.isSome_of_eq_some hm.2, _, hread⟩
    · rintro ⟨hm, read, hread⟩
      obtain ⟨v, hv⟩ := Option.isSome_iff_exists.mp hm
      exact ⟨(t.1, v) :: read, .cons ⟨rfl, hv⟩ hread⟩

/-- Of the members read, those named `value` are those named so in the text. -/
theorem filter_members {texts : List (String × Bytes)} {read : List (String × Json)}
    (h : texts.Forall₂ (ReadsMember nesting) read) :
    (texts.filter (·.1 == "value")).Forall₂ (ReadsMember nesting) (read.filter (·.1 == "value")) :=
  List.rel_filter (fun _ _ hm => by simp [hm.1]) h

/-- The one member named `value` is a number if and only if its text is that of the number. -/
theorem value_of_reads {texts : List (String × Bytes)} {read : List (String × Json)}
    (htexts : ∀ t ∈ texts, IsValue t.2) (h : texts.Forall₂ (ReadsMember nesting) read) :
    (∃ name, read.filter (·.1 == "value") = [(name, .int n)]) ↔
      texts.filter (·.1 == "value") = [("value", encodeChars (Text.digits n))] ∧
        n < Text.wordLimit := by
  have hfilter := filter_members h
  constructor
  · rintro ⟨name, hname⟩
    rw [hname] at hfilter
    obtain ⟨t, texts', ht, hnil, htexts'⟩ := List.forall₂_cons_right_iff.mp hfilter
    rw [List.forall₂_nil_right_iff.mp hnil] at htexts'
    have hmem : t ∈ texts.filter (·.1 == "value") := by
      rw [htexts']
      exact List.mem_singleton_self t
    obtain ⟨htext, hvalue⟩ := List.mem_filter.mp hmem
    obtain ⟨hn, hdigits⟩ := (Json.whole?_count (htexts t htext)).mp ht.2
    refine ⟨?_, hn⟩
    rw [htexts', ← beq_iff_eq.mp hvalue, List.singleton_inj]
    exact Prod.ext rfl hdigits
  · rintro ⟨hvalue, hn⟩
    have hmem : ("value", encodeChars (Text.digits n)) ∈ texts.filter (·.1 == "value") := by
      rw [hvalue]
      exact List.mem_singleton_self _
    have hcount : whole? (Json.readValue nesting) (encodeChars (Text.digits n)) = some (.int n) :=
      (Json.whole?_count (htexts _ (List.mem_of_mem_filter hmem))).mpr ⟨hn, rfl⟩
    rw [hvalue] at hfilter
    obtain ⟨m, read', hm, hnil, hread'⟩ := List.forall₂_cons_left_iff.mp hfilter
    rw [List.forall₂_nil_left_iff.mp hnil] at hread'
    refine ⟨m.1, ?_⟩
    rw [hread', List.singleton_inj]
    exact Prod.ext rfl (Option.some.inj (hm.2.symm.trans hcount))

theorem totalOfMembers?_eq_some {members : List (String × Json)} :
    totalOfMembers? members = some n ↔
      ∃ name, members.filter (·.1 == "value") = [(name, .int n)] := by
  unfold totalOfMembers?
  split
  next name v hfilter =>
    rw [hfilter]
    constructor
    · intro h
      unfold count? at h
      split at h
      · cases h
        exact ⟨name, rfl⟩
      · cases h
    · rintro ⟨name', h⟩
      cases h
      rfl
  next hfilter =>
    refine ⟨nofun, fun ⟨name, h⟩ => ?_⟩
    exact absurd h (hfilter name (.int n))

/-- The members of an object give a number if and only if one of them is the number, under the name
`value`, and all others can be read. -/
theorem whole?_readMembersTotal {gap : Bytes} {members : List Json.MemberText}
    (hmembers : ∀ m ∈ members, m.IsWellFormed) (hgap : Json.IsSpacing gap) :
    whole? (readMembersTotal nesting) (Json.membersThen gap members []) = some n ↔
      (∀ t ∈ namedTexts members, (whole? (Json.readValue nesting) t.2).isSome = true) ∧
      (namedTexts members).filter (·.1 == "value") = [("value", encodeChars (Text.digits n))] ∧
      n < Text.wordLimit := by
  have htexts : ∀ t ∈ namedTexts members, IsValue t.2 := by
    intro t ht
    obtain ⟨m, hm, hnamed⟩ := List.mem_filterMap.mp ht
    obtain ⟨name, -, rfl⟩ := Option.map_eq_some_iff.mp hnamed
    exact (hmembers m hm).value
  have hread : ∀ read, whole? (fun bytes => Json.readMembers (pairInto (Json.readValue nesting)) bytes
      true [] bytes) (Json.membersThen gap members []) = some read ↔
      Json.steps (pairStep nesting) [] (namedTexts members) = some read := by
    intro read
    rw [Json.whole?_eq_some]
    exact (Json.readMembers_iff (pairInto_memberReader nesting) hmembers hgap).trans (and_iff_left rfl)
  refine (Json.whole?_andThen readMembersTotal_settles).trans ?_
  rw [← exists_reads]
  simp only [hread, steps_pairs, totalOfMembers?_eq_some]
  constructor
  · rintro ⟨_, ⟨read, hreads, rfl⟩, name, hname⟩
    rw [List.append_nil, List.filter_reverse, List.reverse_eq_iff, List.reverse_singleton] at hname
    exact ⟨⟨read, hreads⟩, (value_of_reads htexts hreads).mp ⟨name, hname⟩⟩
  · rintro ⟨⟨read, hreads⟩, hvalue⟩
    obtain ⟨name, hname⟩ := (value_of_reads htexts hreads).mpr hvalue
    refine ⟨read.reverse, ⟨read, hreads, (List.append_nil _).symm⟩, name, ?_⟩
    rw [List.filter_reverse, hname, List.reverse_singleton]

/-- An object is read as the number that its members give. -/
theorem whole?_object {bytes : Bytes} :
    whole? (readTotal (nesting + 1)) (Json.openCurly :: bytes) = some n ↔
      GivesTotal nesting (Json.openCurly :: bytes) n := by
  have hskip : Json.skipSpace (Json.openCurly :: bytes) = Json.openCurly :: bytes :=
    Json.skipSpace_cons (by decide) bytes
  have hread : whole? (readTotal (nesting + 1)) (Json.openCurly :: bytes) =
      whole? (readMembersTotal nesting) bytes := by
    unfold whole?
    rw [readTotal_object hskip]
  rw [hread]
  constructor
  · intro h
    obtain ⟨read, hmembers, -⟩ := (Json.whole?_andThen readMembersTotal_settles).mp h
    obtain ⟨gap, members, hgap, hwell, rfl, -⟩ :=
      Json.readMembers_first (pairInto_memberReader nesting) (Json.whole?_eq_some.mp hmembers)
    obtain ⟨hall, hvalue, hn⟩ := (whole?_readMembersTotal hwell hgap).mp h
    exact .object (o := ⟨gap, members⟩) ⟨hgap, hwell⟩ hall hvalue hn
  · intro h
    generalize htext : Json.openCurly :: bytes = text at h
    cases h with
    | @object o _ ho hall hvalue hn =>
      obtain rfl : bytes = Json.membersThen o.gap o.members [] := (List.cons.inj htext).2
      exact (whole?_readMembersTotal ho.members ho.gap).mpr ⟨hall, hvalue, hn⟩
    | number =>
      obtain ⟨d, hd, digits, hdigits⟩ := Json.encodeChars_digits n
      have hfirst := (List.cons.inj (htext.trans hdigits)).1
      exact absurd (Json.isDigit_digitByte d hd) (hfirst ▸ by decide)
    | null | decimal => cases htext

/-- **A value gives a number of hits in its forms, and in no other.** -/
theorem whole?_readTotal (htext : IsValue text) :
    whole? (readTotal (nesting + 1)) text = some n ↔ GivesTotal nesting text n := by
  by_cases hobject : ∃ bytes, text = Json.openCurly :: bytes
  · obtain ⟨bytes, rfl⟩ := hobject
    exact whole?_object
  · exact whole?_plain htext (not_exists.mp hobject)

end Hits

/-! ## Ids -/

namespace Acknowledgement

/-- The forms of an id: nothing, a string, and a whole number for its decimal text. -/
inductive GivesId : Bytes → String → Prop
  | null : GivesId (encodeChars Json.nullChars) ""
  | string {quoted : Bytes} {id : String} (hid : whole? Json.readString quoted = some id) :
    GivesId (Json.quoteByte :: quoted) id
  | number {i : Int} (hlow : -0x8000000000000000 ≤ i) (hhigh : i < Text.wordLimit) :
    GivesId (encodeChars (Json.intChars i)) (Text.ofInt i)

variable {id : String}

theorem idOf?_eq_some {v : Json} : idOf? v = some id ↔
    v = .null ∧ id = "" ∨ v = .str id ∨ ∃ i, v = .int i ∧ id = Text.ofInt i := by
  cases v <;> simp [idOf?, eq_comm]

/-- **A value gives an id in its forms, and in no other.** -/
theorem whole?_readId (htext : IsValue text) :
    whole? (readId nesting) text = some id ↔ GivesId text id := by
  refine (Json.whole?_andThen readId_settles).trans ?_
  simp only [idOf?_eq_some]
  constructor
  · rintro ⟨v, hv, ⟨rfl, rfl⟩ | rfl | ⟨i, rfl, rfl⟩⟩
    · rw [(Json.whole?_null htext).mp hv]
      exact .null
    · obtain ⟨quoted, rfl, hquoted⟩ := (Json.whole?_str htext).mp hv
      exact .string hquoted
    · obtain ⟨hlow, hhigh, rfl⟩ := (Json.whole?_int htext).mp hv
      exact .number hlow hhigh
  · intro h
    cases h with
    | null => exact ⟨.null, (Json.whole?_null htext).mpr rfl, .inl ⟨rfl, rfl⟩⟩
    | string hid => exact ⟨.str id, (Json.whole?_str htext).mpr ⟨_, rfl, hid⟩, .inr (.inl rfl)⟩
    | @number i hlow hhigh =>
      exact ⟨.int i, (Json.whole?_int htext).mpr ⟨hlow, hhigh, rfl⟩, .inr (.inr ⟨i, rfl, rfl⟩)⟩

variable {place : ObjectPlace} {a : Acknowledgement}

theorem read_eq_ok {o : ObjectText} (ho : o.IsWellFormed) (hbody : o.IsBody body) :
    read body = .ok a ↔ ∃ draft, o.draft? layout 126 = some draft ∧ draft.complete = a :=
  mapError_eq_ok.trans
    (Json.decode_object_iff (layout_hasReaders 125) (layout_isOrderless 126) ho hbody)

/-- The answer with that id, and all else as it is. -/
def withId (a : Acknowledgement) (id : String) : Acknowledgement := { a with id := id }

/-- What an answer has beside its id is the same for every value of that. -/
theorem read_with_id (h : place.IsOf "_id") (htext : IsValue text)
    (hbody : (place.fill text).IsBody body) {draft : Draft}
    (hdraft : place.without.draft? layout 126 = some draft) :
    read body = .ok a ↔ ∃ id, GivesId text id ∧ draft.complete.withId id = a := by
  have hfill : ∀ draft', (place.fill text).draft? layout 126 = some draft' ↔ ∃ draft₁ id,
      place.without.draft? layout 126 = some draft₁ ∧ whole? (readId 126) text = some id ∧
        { draft₁ with id := some id } = draft' :=
    fun draft' => h.draft_fill (layout_isOrderless 126) rfl rfl
  rw [read_eq_ok (h.isWellFormed_fill htext) hbody]
  simp only [hfill, hdraft, whole?_readId htext]
  constructor
  · rintro ⟨_, ⟨_, id, ⟨⟩, hid, rfl⟩, rfl⟩
    exact ⟨id, hid, rfl⟩
  · rintro ⟨id, hid, rfl⟩
    exact ⟨_, ⟨draft, id, rfl, hid, rfl⟩, rfl⟩

end Acknowledgement

/-! ## Answers to a search -/

namespace SearchAnswer

variable {outer inner : ObjectPlace} {a : SearchAnswer} {hits : Hits}

theorem read_eq_ok {o : ObjectText} (ho : o.IsWellFormed) (hbody : o.IsBody body) :
    read body = .ok a ↔ ∃ draft, o.draft? layout 126 = some draft ∧ draft.complete = a :=
  mapError_eq_ok.trans
    (Json.decode_object_iff (layout_hasReaders 124) (layout_isOrderless 126) ho hbody)

/-- The hits that the members of their object give are those of the answer. -/
theorem read_with_hits (h : outer.IsOf "hits") {o : ObjectText} (ho : o.IsWellFormed)
    (hbody : (outer.fill o.text).IsBody body) :
    read body = .ok a ↔ ∃ draft hits, outer.without.draft? layout 126 = some draft ∧
      o.draft? Hits.layout 125 = some hits ∧ { draft.complete with hits := hits.complete } = a := by
  have hfill : ∀ draft, (outer.fill o.text).draft? layout 126 = some draft ↔ ∃ draft₁ hits,
      outer.without.draft? layout 126 = some draft₁ ∧
        whole? (Json.readAs Hits.layout Hits.Draft.complete 126) o.text = some hits ∧
          { draft₁ with hits := some hits } = draft :=
    fun draft => h.draft_fill (layout_isOrderless 126) rfl rfl
  have hhits : ∀ hits, whole? (Json.readAs Hits.layout Hits.Draft.complete 126) o.text = some hits ↔
      ∃ draft, o.draft? Hits.layout 125 = some draft ∧ draft.complete = hits :=
    fun hits => Json.whole?_object_iff (Hits.layout_hasReaders 124) (Hits.layout_isOrderless 125) ho
  rw [read_eq_ok (h.isWellFormed_fill ho.isValue) hbody]
  simp only [hfill, hhits]
  constructor
  · rintro ⟨_, ⟨draft, _, hdraft, ⟨hits, hhits, rfl⟩, rfl⟩, rfl⟩
    exact ⟨draft, hits, hdraft, hhits, rfl⟩
  · rintro ⟨draft, hits, hdraft, hhits, rfl⟩
    exact ⟨_, ⟨draft, _, hdraft, ⟨hits, hhits, rfl⟩, rfl⟩, rfl⟩

/-- The answer with that number of hits, and all else as it is. -/
def withTotal (a : SearchAnswer) (n : Nat) : SearchAnswer :=
  { a with hits := { a.hits with total := n } }

/-- What an answer has beside the number of hits is the same for every value of that. -/
theorem read_with_total (h : outer.IsOf "hits") (h' : inner.IsOf "total") (htext : IsValue text)
    (hbody : (outer.fill (inner.fill text).text).IsBody body) {draft : Draft} {hits : Hits.Draft}
    (hdraft : outer.without.draft? layout 126 = some draft)
    (hhits : inner.without.draft? Hits.layout 125 = some hits) :
    read body = .ok a ↔ ∃ n, Hits.GivesTotal 124 text n ∧
      { draft.complete with hits := hits.complete }.withTotal n = a := by
  have hfill : ∀ hits', (inner.fill text).draft? Hits.layout 125 = some hits' ↔ ∃ hits₁ n,
      inner.without.draft? Hits.layout 125 = some hits₁ ∧
        whole? (Hits.readTotal 125) text = some n ∧ { hits₁ with total := some n } = hits' :=
    fun hits' => h'.draft_fill (Hits.layout_isOrderless 125) rfl rfl
  rw [read_with_hits h (h'.isWellFormed_fill htext) hbody]
  simp only [hfill, hdraft, hhits, Hits.whole?_readTotal htext]
  constructor
  · rintro ⟨_, _, ⟨⟩, ⟨_, n, ⟨⟩, hn, rfl⟩, rfl⟩
    exact ⟨n, hn, rfl⟩
  · rintro ⟨n, hn, rfl⟩
    exact ⟨draft, _, rfl, ⟨hits, n, rfl, hn, rfl⟩, rfl⟩

end SearchAnswer

/-! ## Forms -/

/-- What is decoded is what one of the forms gives, put in its place; without one it is refused. -/
structure DecodesForms {α β : Type} (Gives : β → Prop) (put : β → α) (decoded : Except RequestError α)
    (target : String) : Prop where
  accepted : ∀ a, decoded = .ok a ↔ ∃ b, Gives b ∧ put b = a
  refused : (∀ b, ¬Gives b) → ∃ e, decoded = .error (.decode target e)

theorem decodesForms {α β : Type} {Gives : β → Prop} {put : β → α} {decoded : Except Json.Error α}
    (target : String)
    (h : ∀ a, decoded.mapError (RequestError.decode target) = .ok a ↔ ∃ b, Gives b ∧ put b = a) :
    DecodesForms Gives put (decoded.mapError (RequestError.decode target)) target where
  accepted := h
  refused := by
    intro hnone
    cases decoded with
    | error e => exact ⟨e, rfl⟩
    | ok a =>
      obtain ⟨b, hb, -⟩ := (h a).mp rfl
      exact absurd hb (hnone b)

theorem SearchAnswer.total_absent {outer : ObjectPlace} {a : SearchAnswer} (h : outer.IsOf "hits")
    (hbody : outer.without.IsBody body) (hread : read body = .ok a) : a.hits.total = 0 := by
  obtain ⟨draft, hdraft, rfl⟩ := (read_eq_ok h.isWellFormed_without hbody).mp hread
  have hnone : draft.hits = none := h.draft_without (layout_isOrderless 126) rfl rfl hdraft
  rw [Draft.complete, hnone]
  rfl

theorem SearchAnswer.total_forms {outer inner : ObjectPlace} {base : Bytes} {a : SearchAnswer}
    (h : outer.IsOf "hits") (h' : inner.IsOf "total")
    (hbase : (outer.fill inner.without.text).IsBody base) (hread : read base = .ok a) :
    a.hits.total = 0 ∧
      ∀ text body, IsValue text → (outer.fill (inner.fill text).text).IsBody body →
        DecodesForms (Hits.GivesTotal 124 text) a.withTotal (read body) "SearchResults" := by
  obtain ⟨draft, hits, hdraft, hhits, rfl⟩ :=
    (read_with_hits h h'.isWellFormed_without hbase).mp hread
  have hnone : hits.total = none := h'.draft_without (Hits.layout_isOrderless 125) rfl rfl hhits
  constructor
  · simp only [Hits.Draft.complete, hnone, Option.getD_none]
  · intro text body htext hbody
    exact decodesForms _ fun b => read_with_total h h' htext hbody hdraft hhits

theorem Acknowledgement.id_forms {place : ObjectPlace} {base : Bytes} {a : Acknowledgement}
    (h : place.IsOf "_id") (hbase : place.without.IsBody base) (hread : read base = .ok a) :
    a.id = "" ∧
      ∀ text body, IsValue text → (place.fill text).IsBody body →
        DecodesForms (GivesId text) a.withId (read body) "QueryResult" := by
  obtain ⟨draft, hdraft, rfl⟩ := (read_eq_ok h.isWellFormed_without hbase).mp hread
  have hnone : draft.id = none := h.draft_without (layout_isOrderless 126) rfl rfl hdraft
  constructor
  · simp only [Draft.complete, hnone, Option.getD_none]
  · intro text body htext hbody
    exact decodesForms _ fun b => read_with_id h htext hbody hdraft

/-- **Members that come in several forms are taken in these, and in no other.** For any value in the
place of the number of hits or of an id, all else being accepted, the answer is decoded if and only
if the value is of one of the forms, and then it holds what that gives and all else as it was; any
other value is a decoding error. Without the member the number is zero and the id empty. An id that
is a number decodes like the string of its decimal text. -/
theorem lenient_members_decoded :
    (∀ (outer : ObjectPlace) base a, outer.IsOf "hits" → outer.without.IsBody base →
      SearchAnswer.read base = .ok a → a.hits.total = 0) ∧
    (∀ (outer inner : ObjectPlace) base a, outer.IsOf "hits" → inner.IsOf "total" →
      (outer.fill inner.without.text).IsBody base → SearchAnswer.read base = .ok a →
      a.hits.total = 0 ∧
      ∀ text body, IsValue text → (outer.fill (inner.fill text).text).IsBody body →
        DecodesForms (Hits.GivesTotal (Json.nestingLimit - 3) text) a.withTotal (SearchAnswer.read body)
          "SearchResults") ∧
    (∀ (place : ObjectPlace) base a, place.IsOf "_id" → place.without.IsBody base →
      Acknowledgement.read base = .ok a →
      (a.id = "" ∧
      ∀ text body, IsValue text → (place.fill text).IsBody body →
        DecodesForms (Acknowledgement.GivesId text) a.withId (Acknowledgement.read body)
          "QueryResult") ∧
      ∀ (i : Int) quoted body body', -0x8000000000000000 ≤ i → i < Text.wordLimit →
        whole? Json.readString quoted = some (Text.ofInt i) →
        (place.fill (encodeChars (Json.intChars i))).IsBody body →
        (place.fill (Json.quoteByte :: quoted)).IsBody body' →
        Acknowledgement.read body = Acknowledgement.read body') := by
  refine ⟨fun outer base a => SearchAnswer.total_absent, fun outer inner base a =>
    SearchAnswer.total_forms, fun place base a h hbase hread => ?_⟩
  have hforms := Acknowledgement.id_forms h hbase hread
  refine ⟨hforms, fun i quoted body body' hlow hhigh hquoted hbody hbody' => ?_⟩
  have hnumber := (hforms.2 _ _ (Json.isValue_int hlow hhigh) hbody).accepted
  have hstring := (hforms.2 _ _ (Json.isValue_str hquoted) hbody').accepted
  rw [(hnumber _).mpr ⟨_, .number hlow hhigh, rfl⟩, (hstring _).mpr ⟨_, .string hquoted, rfl⟩]

/-- A number of hits beside its relation, a text that is no number, and an id that is a number. -/
theorem lenient_members_decoded_concrete :
    (∃ a, SearchAnswer.read (Utf8.encode
        "\x7b\"hits\":\x7b\"total\":\x7b\"relation\":\"gte\",\"value\":10000\x7d\x7d\x7d") = .ok a ∧
      a.hits.total = 10000) ∧
    (∃ e, SearchAnswer.read (Utf8.encode "\x7b\"hits\":\x7b\"total\":\"many\"\x7d\x7d") =
      .error (.decode "SearchResults" e)) ∧
    Acknowledgement.read (Utf8.encode "\x7b\"_id\":42\x7d") =
      Acknowledgement.read (Utf8.encode "\x7b\"_id\":\"42\"\x7d") := by
  let member (name value : String) : Json.MemberText :=
    ⟨[], Utf8.encode name ++ [Json.quoteByte], [], [], Utf8.encode value, []⟩
  let place (name : String) : ObjectPlace := ⟨[], [], member name "", []⟩
  have hbody : ∀ (o : ObjectText) body, o.text = body → o.IsBody body := by
    rintro o body rfl
    exact ⟨[], [], .nil, .nil, (List.append_nil _).symm⟩
  let counted : ObjectText := ⟨[], [member "relation" "\"gte\"", member "value" "10000"]⟩
  have hcounted : counted.IsWellFormed := by decide +kernel
  have hgives : Hits.GivesTotal 124 counted.text 10000 :=
    .object hcounted (by decide +kernel) (by decide +kernel) (by decide)
  have hmany : IsValue (Utf8.encode "\"many\"") := by decide +kernel
  have hnone : ∀ n, ¬Hits.GivesTotal 124 (Utf8.encode "\"many\"") n := by
    intro n hn
    have hread : whole? (Hits.readTotal 125) (Utf8.encode "\"many\"") = none := by decide +kernel
    cases hread.symm.trans ((Hits.whole?_readTotal hmany).mpr hn)
  have hbase : (SearchAnswer.read (Utf8.encode "\x7b\"hits\":\x7b\x7d\x7d")).toOption.isSome = true := by
    decide +kernel
  have hempty : (Acknowledgement.read (Utf8.encode "\x7b\x7d")).toOption.isSome = true := by
    decide +kernel
  obtain ⟨a, ha⟩ := Option.isSome_iff_exists.mp hbase
  obtain ⟨b, hb⟩ := Option.isSome_iff_exists.mp hempty
  obtain ⟨-, htotal, hid⟩ := lenient_members_decoded
  have hforms := (htotal (place "hits") (place "total") _ a (by decide +kernel) (by decide +kernel)
    (hbody _ _ (by decide +kernel)) (ok_of_toOption ha)).2
  refine ⟨?_, ?_, ?_⟩
  · refine ⟨a.withTotal 10000, ((hforms _ _ hcounted.isValue ?_).accepted _).mpr ?_, rfl⟩
    · exact hbody _ _ (by decide +kernel)
    · exact ⟨10000, hgives, rfl⟩
  · exact (hforms _ _ hmany (hbody _ _ (by decide +kernel))).refused hnone
  · exact (hid (place "_id") _ b (by decide +kernel) (hbody _ _ (by decide +kernel))
      (ok_of_toOption hb)).2 42 (Utf8.encode "42\"") _ _ (by decide) (by decide) (by decide +kernel)
      (hbody _ _ (by decide +kernel)) (hbody _ _ (by decide +kernel))

end ClusterOutput
