/-
Answers are decoded by the names of their members (`answers_decoded_by_name`): in whatever order
these come, and whatever members of other names are among them.

All readers of their fields take the text of a value for the same wherever it stands, and
no two fields are kept in one place.
-/
import ClusterOutput.Client.Documents
import ClusterOutput.Proofs.Json.Objects

namespace ClusterOutput

open Json (IsReader Layout Field ObjectText)

/-! ## Answers to an operation -/

namespace Acknowledgement

theorem readId_settles : Json.Settles (fun v rest => match idOf? v with
    | some id => .ok (id, rest)
    | none => .error (Json.Fault.late (.noVariant "StringOrNumber") rest)) (idOf? · = some ·) := by
  intro v bytes id rest
  cases hid : idOf? v <;> simp [hid]

theorem readId_isReader (nesting : Nat) : IsReader (readId nesting) :=
  (Json.readValue_isReader nesting).andThen readId_settles

theorem layout_hasReaders (nesting : Nat) : layout.HasReaders (nesting + 1) := by
  have hbool := Json.readBool_isReader (nesting + 1)
  have htext := Json.readText_isReader (nesting + 1)
  simp only [Layout.HasReaders, layout, List.forall_mem_cons]
  exact ⟨Field.of_isReader hbool, Field.of_isReader hbool, Field.of_isReader htext,
    Field.of_isReader htext, Field.of_isReader (readId_isReader _),
    Field.of_isReader (Json.readOptional_isReader (Json.readValue_isReader _)),
    Field.of_isReader (Json.readNumber_isReader _ _ _), Field.of_isReader hbool,
    Field.of_isReader hbool, Field.of_isReader hbool,
    Field.of_isReader (Json.readOptional_isReader htext),
    Field.of_isReader (Json.readList_isReader (Json.readText_isReader _)), List.forall_mem_nil _⟩

theorem layout_isOrderless : ∀ nesting, layout.IsOrderless nesting := by
  refine Layout.isOrderless_of_kept rfl ?_
  -- each field with each behind it
  repeat' first | (intros; rfl) | constructor

end Acknowledgement

/-! ## Answers to a search -/

namespace Hits

/-- The number of hits in a value that is no object. -/
def readPlainTotal : Json.Reader Nat := fun nesting bytes => do
  let (v, rest) ← Json.readValue nesting bytes
  match totalOf v with
  | .ok n => .ok (n, rest)
  | .error cause => .error (.late cause rest)

/-- The number of hits in the members of an object. -/
def readMembersTotal (nesting : Nat) (bytes : Bytes) : Except Json.Fault (Nat × Bytes) := do
  let (members, rest) ← Json.readMembers (pairInto (Json.readValue nesting)) bytes true [] bytes
  match totalOfMembers? members with
  | some n => .ok (n, rest)
  | none => .error (.late (.noVariant "TotalHits") rest)

theorem readTotal_object {nesting : Nat} {bytes rest : Bytes}
    (h : Json.skipSpace bytes = Json.openCurly :: rest) :
    readTotal (nesting + 1) bytes = readMembersTotal nesting rest := by
  unfold readTotal
  rw [h]
  rfl

theorem readTotal_plain {nesting : Nat} {bytes : Bytes}
    (h : ∀ rest, Json.skipSpace bytes ≠ Json.openCurly :: rest) :
    readTotal (nesting + 1) bytes = readPlainTotal (nesting + 1) bytes := by
  unfold readTotal
  cases hskip : Json.skipSpace bytes with
  | nil => rfl
  | cons b rest =>
    have hb : b ≠ Json.openCurly := by
      rintro rfl
      exact h rest hskip
    simp only [hb, if_false]
    rfl

theorem readPlainTotal_settles : Json.Settles (fun v rest => match totalOf v with
    | .ok n => .ok (n, rest)
    | .error cause => .error (Json.Fault.late cause rest)) (totalOf · = .ok ·) := by
  intro v bytes n rest
  cases htotal : totalOf v <;> simp [htotal]

theorem readPlainTotal_isReader (nesting : Nat) : IsReader (readPlainTotal nesting) :=
  (Json.readValue_isReader nesting).andThen readPlainTotal_settles

theorem pairInto_memberReader (nesting : Nat) :
    Json.MemberReader (pairInto (Json.readValue nesting))
      fun members name text => (Json.whole? (Json.readValue nesting) text).map fun v =>
        (name, v) :: members :=
  (Json.readValue_isReader nesting).memberReader fun v members name => (name, v) :: members

theorem readMembersTotal_settles : Json.Settles (fun members rest => match totalOfMembers? members with
    | some n => .ok (n, rest)
    | none => .error (Json.Fault.late (.noVariant "TotalHits") rest)) (totalOfMembers? · = some ·) := by
  intro members bytes n rest
  cases htotal : totalOfMembers? members <;> simp [htotal]

theorem readTotal_isReader (nesting : Nat) : IsReader (readTotal (nesting + 1)) :=
  .byFirst (show Json.isSpaceByte Json.openCurly = false from rfl)
    ((Json.readMembers_reads (pairInto_memberReader nesting) []).andThen readMembersTotal_settles)
    (readPlainTotal_isReader (nesting + 1)) readTotal_object readTotal_plain

theorem layout_hasReaders (nesting : Nat) : layout.HasReaders (nesting + 1) := by
  simp only [Layout.HasReaders, layout, List.forall_mem_cons]
  exact ⟨Field.of_isReader (readTotal_isReader nesting),
    Field.of_isReader (Json.readOptional_isReader (Json.readNumber_isReader _ _ _)),
    Field.of_isReader (Json.readList_isReader (Json.readValue_isReader _)), List.forall_mem_nil _⟩

theorem layout_isOrderless : ∀ nesting, layout.IsOrderless nesting := by
  refine Layout.isOrderless_of_kept rfl ?_
  -- each field with each behind it
  repeat' first | (intros; rfl) | constructor

end Hits

namespace SearchAnswer

theorem layout_hasReaders (nesting : Nat) : layout.HasReaders (nesting + 2) := by
  have hhits : IsReader (Json.readAs Hits.layout Hits.Draft.complete (nesting + 2)) :=
    Json.readAs_isReader (Json.readRecord_isReader (Hits.layout_hasReaders nesting))
  simp only [Layout.HasReaders, layout, List.forall_mem_cons]
  exact ⟨Field.of_isReader (Json.readNumber_isReader _ _ _),
    Field.of_isReader (Json.readBool_isReader _), Field.of_isReader (Json.readValue_isReader _),
    Field.of_isReader hhits, Field.of_isReader (Json.readMap_isReader _), List.forall_mem_nil _⟩

theorem layout_isOrderless : ∀ nesting, layout.IsOrderless nesting := by
  refine Layout.isOrderless_of_kept rfl ?_
  -- each field with each behind it
  repeat' first | (intros; rfl) | constructor

end SearchAnswer

/-! ## By name -/

/-- A reader of answers goes by the names of members. -/
structure DecodesByName {σ α : Type} (layout : Layout σ) (read : Bytes → Except RequestError α)
    (target : String) : Prop where
  /-- What is read from behind a brace is an object with well-formed members. -/
  object : ∀ body a, read body = .ok a → (∃ bytes, Json.skipSpace body = Json.openCurly :: bytes) →
    ∃ o : ObjectText, o.IsWellFormed ∧ o.IsBody body
  /-- Any other object with the same known members, in any order and among whatever members of
  unknown names, gives the same. -/
  anyOrder : ∀ (o o' : ObjectText) body body', o.IsWellFormed → o'.IsWellFormed → o.IsBody body →
    o'.IsBody body' → (o.known layout).Perm (o'.known layout) → ∀ a, read body = .ok a → read body' = .ok a
  /-- A known member that is repeated is refused, wherever its two places are. -/
  repeated : ∀ (o : ObjectText) body, o.IsWellFormed → o.IsBody body →
    ¬((o.known layout).map (·.1)).Nodup → ∃ e, read body = .error (.decode target e)

theorem decodesByName {σ α : Type} {layout : Layout σ} {complete : σ → α}
    (hreaders : layout.HasReaders 126) (horder : layout.IsOrderless 126) (target : String) :
    DecodesByName layout
      (fun body => (Json.decode (Json.readAs layout complete) body).mapError (.decode target)) target where
  object := by
    rintro body a hread ⟨bytes, hhead⟩
    exact Json.object_of_decode hreaders (mapError_eq_ok.mp hread) hhead
  anyOrder := by
    intro o o' body body' ho ho' hbody hbody' hperm a hread
    obtain ⟨draft, hdraft, hcomplete⟩ :=
      (Json.decode_object_iff hreaders horder ho hbody).mp (mapError_eq_ok.mp hread)
    rw [ObjectText.draft?_eq_of_perm horder hperm] at hdraft
    exact mapError_eq_ok.mpr
      ((Json.decode_object_iff hreaders horder ho' hbody').mpr ⟨draft, hdraft, hcomplete⟩)
  repeated := by
    intro o body ho hbody hrepeated
    cases hread : Json.decode (Json.readAs layout complete) body with
    | error e => exact ⟨e, rfl⟩
    | ok a =>
      obtain ⟨draft, hdraft, -⟩ := (Json.decode_object_iff hreaders horder ho hbody).mp hread
      exact absurd (ObjectText.known_nodup horder hdraft) hrepeated

/-- **Decoding goes by the names of members.** An object that is accepted, as the answer to an
operation or to a search, is accepted with its members in any order and with any members of other
names put in or left out, whatever these hold and however deep, and it decodes to the same; with a
known member repeated it is refused in every order. -/
theorem answers_decoded_by_name :
    DecodesByName Acknowledgement.layout Acknowledgement.read "QueryResult" ∧
      DecodesByName SearchAnswer.layout SearchAnswer.read "SearchResults" :=
  ⟨decodesByName (Acknowledgement.layout_hasReaders 125) (Acknowledgement.layout_isOrderless 126) _,
    decodesByName (SearchAnswer.layout_hasReaders 124) (SearchAnswer.layout_isOrderless 126) _⟩

/-- The answer to a search, once more with its members the other way round, one under another
spelling of its name, and a member of an unknown name in front that no reader of values would take;
and with a member repeated. -/
theorem answers_decoded_by_name_shuffled :
    let body := "\x7b\"took\":3,\"hits\":\x7b\"total\":2\x7d\x7d"
    let shuffled := "\x7b\"x\":[1e999,\x7b\"\\ud800\":[[]]\x7d],\"hits\":\x7b\"total\":2\x7d," ++
      "\"\\u0074ook\":3\x7d"
    let repeated := "\x7b\"took\":3,\"x\":null,\"took\":4\x7d"
    (∃ a, SearchAnswer.read (Utf8.encode body) = .ok a ∧
      SearchAnswer.read (Utf8.encode shuffled) = .ok a) ∧
    ∃ e, SearchAnswer.read (Utf8.encode repeated) = .error (.decode "SearchResults" e) := by
  intro body shuffled repeated
  let member (name value : String) : Json.MemberText :=
    ⟨[], Utf8.encode name ++ [Json.quoteByte], [], [], Utf8.encode value, []⟩
  let took := member "took" "3"
  let hits := member "hits" "\x7b\"total\":2\x7d"
  let o : ObjectText := ⟨[], [took, hits]⟩
  let o' : ObjectText :=
    ⟨[], [member "x" "[1e999,\x7b\"\\ud800\":[[]]\x7d]", hits, member "\\u0074ook" "3"]⟩
  let o₂ : ObjectText := ⟨[], [took, member "x" "null", member "took" "4"]⟩
  have hbody : o.IsBody (Utf8.encode body) := ⟨[], [], .nil, .nil, by decide +kernel⟩
  have hbody' : o'.IsBody (Utf8.encode shuffled) := ⟨[], [], .nil, .nil, by decide +kernel⟩
  have hbody₂ : o₂.IsBody (Utf8.encode repeated) := ⟨[], [], .nil, .nil, by decide +kernel⟩
  have hread : (SearchAnswer.read (Utf8.encode body)).toOption.isSome = true := by decide +kernel
  obtain ⟨a, ha⟩ := Option.isSome_iff_exists.mp hread
  refine ⟨⟨a, ok_of_toOption ha, ?_⟩, ?_⟩
  · exact answers_decoded_by_name.2.anyOrder o o' _ _ (by decide +kernel) (by decide +kernel) hbody
      hbody' (by decide +kernel) a (ok_of_toOption ha)
  · exact answers_decoded_by_name.2.repeated o₂ _ (by decide +kernel) hbody₂ (by decide +kernel)

end ClusterOutput
