/-
What a search prints can be stored again: the command that stores documents reads each of
the lines that a search prints as the document on it, and sends these documents, one a
line (`printed_hits_ship`).

No line ends within a document, since compact text has no control characters; none is
blank; and what was read within an answer is nested less deeply than a line may be.
-/
import ClusterOutput.Proofs.Answer.Reencoding
import ClusterOutput.Proofs.Cli.Shipping

namespace ClusterOutput

open Utf8 (encodeChars)

/-! ## Documents of hits -/

/-- A member of a value fits where the value does. -/
theorem Json.Fits.member {nesting : Nat} {v w : Json} (h : Json.Fits nesting v) {name : String}
    (hw : v.member? name = some w) : Json.Fits nesting w := by
  cases h with
  | obj hmembers => exact (hmembers _ (Json.mem_of_lookup hw)).mono (Nat.le_succ _)
  | null | bool | int | float | str | arr => cases hw

theorem Json.isFloatless_member {v w : Json} (h : v.isFloatless = true) {name : String}
    (hw : v.member? name = some w) : w.isFloatless = true := by
  cases v with
  | obj members => exact Json.isFloatless_obj.mp h _ (Json.mem_of_lookup hw)
  | null | bool | int | float | str | arr => cases hw

variable {hit : Json}

theorem SearchAnswer.documentOf_fits {nesting : Nat} (h : Json.Fits nesting hit) :
    Json.Fits nesting (documentOf hit) := by
  unfold documentOf
  cases hsource : hit.member? "_source" with
  | none => exact h
  | some v => exact h.member hsource

theorem SearchAnswer.documentOf_isFloatless (h : hit.isFloatless = true) :
    (documentOf hit).isFloatless = true := by
  unfold documentOf
  cases hsource : hit.member? "_source" with
  | none => exact h
  | some v => exact Json.isFloatless_member h hsource

namespace Cli

/-! ## A document on a line -/

/-- The line that a document is printed on, with its end. -/
def documentLine (doc : Json) : List Char := doc.write ++ ['\n']

/-- The documents of the hits that were found, in their order. -/
def documentsOf (a : SearchAnswer) : List Json := a.hits.hits.map SearchAnswer.documentOf

theorem rendered_lines (a : SearchAnswer) :
    (rendered a .lines).toList = (documentsOf a).flatMap documentLine := by
  simp only [rendered, String.toList_join, List.flatMap_map, documentsOf]
  congr 1
  funext hit
  simp [documentLine, Json.compact]

variable {doc : Json} {documents : List Json}

theorem not_mem_write (h : doc.isFloatless = true) {c : Char} (hc : Json.isPrintable c = false) :
    c ∉ doc.write := by
  intro hmem
  rw [Json.write_printable h c hmem] at hc
  cases hc

/-- The lines that documents are printed on are one for each. -/
theorem linesOf_documents (h : ∀ doc ∈ documents, doc.isFloatless = true) :
    Text.linesOf (documents.flatMap documentLine) = documents.map documentLine := by
  induction documents with
  | nil => rfl
  | cons doc documents ih =>
    rw [List.forall_mem_cons] at h
    rw [List.flatMap_cons, documentLine, List.append_assoc, List.singleton_append,
      Text.linesOf_line (not_mem_write h.1 rfl), ih h.2]
    rfl

theorem write_not_blank (h : doc.isFloatless = true) : doc.write.all Text.isBlank = false := by
  obtain ⟨c, cs, heq, hc, -⟩ := Json.spell_starts .plain 0 h
  have hfull : Text.isBlank c = false := by
    simp only [Json.isValueStart, Bool.and_eq_true, Bool.not_eq_true'] at hc
    exact hc.1.2
  rw [Json.write_eq_spell 0, heq, List.all_cons, hfull]
  rfl

/-- The line of a document is read as the document. -/
theorem lineDocument?_documentLine (hfits : Json.Fits Json.nestingLimit doc)
    (h : doc.isFloatless = true) (number : Nat) :
    lineDocument? number (encodeChars (documentLine doc)) = .ok (some doc) := by
  rw [lineDocument?_encodeChars, documentLine, Text.withoutNewline_line (not_mem_write h rfl),
    write_not_blank h, Json.parse_write hfits h]
  rfl

/-- Each line is read as the document on it. -/
theorem lines_read (number : Nat)
    (hread : ∀ doc ∈ documents, ∀ number,
      lineDocument? number (encodeChars (documentLine doc)) = .ok (some doc)) :
    ((documents.map (encodeChars ∘ documentLine)).zipIdx number).map
        (fun (line, number) => lineDocument? number line) =
      documents.map fun doc => .ok (some doc) := by
  induction documents generalizing number with
  | nil => rfl
  | cons doc documents ih =>
    rw [List.forall_mem_cons] at hread
    rw [List.map_cons, List.zipIdx_cons, List.map_cons, List.map_cons, ih (number + 1) hread.2]
    exact congrArg (· :: _) (hread.1 number)

/-- Lines that are all read as documents are sent as these, all of them or up to one that is not
answered. -/
theorem Shipped.of_documents {c : Client} {conns : List Connection} {shipment : Shipment}
    {number : Nat} {stored : List Stored} {halt : Option Halt}
    (hread : ∀ doc ∈ documents, ∀ number,
      lineDocument? number (encodeChars (documentLine doc)) = .ok (some doc))
    (h : Shipped c conns shipment number (documents.map (encodeChars ∘ documentLine)) stored halt) :
    ∃ rest, documents = stored.map Stored.doc ++ rest ∧
      (halt = none ∧ rest = [] ∨ ∃ reply, halt = some (.reply reply)) := by
  induction documents generalizing number stored with
  | nil =>
    cases h
    exact ⟨[], rfl, .inl ⟨rfl, rfl⟩⟩
  | cons doc documents ih =>
    rw [List.forall_mem_cons] at hread
    have hdoc := hread.1 number
    cases h with
    | blank hline => cases hdoc.symm.trans hline
    | unreadable hline => cases hdoc.symm.trans hline
    | invalid hline => cases hdoc.symm.trans hline
    | unanswered _ hline =>
      cases hdoc.symm.trans hline
      exact ⟨documents, rfl, .inr ⟨_, rfl⟩⟩
    | answered _ hline _ _ hrest =>
      cases hdoc.symm.trans hline
      obtain ⟨rest, heq, hhalt⟩ := ih hread.2 hrest
      exact ⟨rest, congrArg (doc :: ·) heq, hhalt⟩

/-! ## From a search to the storing of what it found -/

/-- **What a search prints can be stored again.** The lines that an answer without floats in its
hits is printed on are read as one document a hit, in the order of the hits: the source of the hit,
or the hit itself where it has none. A run that is given these lines sends exactly these documents,
one request each, and holds back documents only behind a request that is not answered. -/
theorem printed_hits_ship (body : Bytes) (a : SearchAnswer) (hread : SearchAnswer.read body = .ok a)
    (hfloatless : ∀ hit ∈ a.hits.hits, hit.isFloatless = true) :
    let input := Utf8.encode (rendered a .lines)
    ((Text.rawLines input).zipIdx 1).map (fun (line, number) => lineDocument? number line) =
      (documentsOf a).map (fun doc => .ok (some doc)) ∧
    ∀ (surroundings : Surroundings) (network : Http.Network) (stdin : Bytes) (words : List String)
      (p : Prepared) (client : Client) (s₀ : Session) (source docType : String)
      (target idField : Option String) (refresh : Bool),
      prepare surroundings words = .ok p → p.client = .ok (client, s₀) →
      p.command = .index source target docType idField refresh →
      inputOf p.files stdin source = .ok input →
      let r := run surroundings network stdin words
      let conns := s₀.pool.connections
      let shipment : Shipment := ⟨target.getD p.settings.index, docType, idField⟩
      ∃ stored rest refreshed,
        documentsOf a = stored.map Stored.doc ++ rest ∧
        (∀ d ∈ stored, Replied client conns (shipment.request d.doc) d.sent d.reply) ∧
        r.session.journal.sent = stored.flatMap Stored.sent ++ refreshed ∧
        (rest = [] ∧ (∀ d ∈ stored, d.reply.isAnswer = true) ∧
            (∃ reply, Refreshed client conns shipment.index
              (refresh && decide (0 < indexed stored)) refreshed reply) ∨
          refreshed = [] ∧ ∃ front d, stored = front ++ [d] ∧ d.reply.isAnswer = false ∧
            ∀ y ∈ front, y.reply.isAnswer = true) := by
  intro input
  have hbounds := (SearchAnswer.isRead_of_decode (mapError_eq_ok.mp hread)).hits
  have hdocuments : ∀ doc ∈ documentsOf a, doc.isFloatless = true ∧
      ∀ number, lineDocument? number (encodeChars (documentLine doc)) = .ok (some doc) := by
    intro doc hdoc
    obtain ⟨hit, hhit, rfl⟩ := List.mem_map.mp hdoc
    have hdoc := SearchAnswer.documentOf_isFloatless (hfloatless hit hhit)
    have hfits := (SearchAnswer.documentOf_fits (hbounds.hits hit hhit)).mono
      (show 124 ≤ Json.nestingLimit by decide)
    exact ⟨hdoc, lineDocument?_documentLine hfits hdoc⟩
  have hlines : Text.rawLines input = (documentsOf a).map (encodeChars ∘ documentLine) := by
    show Text.rawLines (encodeChars (rendered a .lines).toList) = _
    rw [rendered_lines, Text.rawLines_encodeChars,
      linesOf_documents fun doc hdoc => (hdocuments doc hdoc).1, List.map_map]
  refine ⟨?_, ?_⟩
  · rw [hlines]
    exact lines_read 1 fun doc hdoc => (hdocuments doc hdoc).2
  · intro surroundings network stdin words p client s₀ source docType target idField refresh
      hprepare hclient hcommand hinput r conns shipment
    obtain ⟨stored, halt, refreshed, printed, s, hshipped, hends, -, hsent⟩ :=
      run_shipped surroundings network stdin words p client s₀ source docType target idField refresh
        input hprepare hclient hcommand hinput
    rw [hlines] at hshipped
    -- every line is read, so a run that stops does so for want of an answer
    obtain ⟨rest, hrest, hhalt⟩ := hshipped.of_documents fun doc hdoc => (hdocuments doc hdoc).2
    refine ⟨stored, rest, refreshed, hrest, fun d hd => (hshipped.requests d hd).2, hsent, ?_⟩
    rcases hshipped.answers with ⟨hall, hnone⟩ | ⟨front, d, hstored, hfront, hno, hreply⟩
    · rcases hhalt with ⟨rfl, rfl⟩ | ⟨reply, hreply⟩
      · cases hends with
        | unrefreshed hrefreshed => exact .inl ⟨rfl, hall, _, hrefreshed⟩
        | whole hrefreshed => exact .inl ⟨rfl, hall, _, hrefreshed⟩
      · exact absurd hreply (hnone reply)
    · subst hreply
      cases hends
      exact .inr ⟨rfl, front, d, hstored, hno, hfront⟩

/-- Two hits, the source of one with a newline within a text: they are printed on two lines, which
are stored again in two requests. -/
theorem printed_hits_ship_again :
    let body := Utf8.encode ("\x7b\"hits\":\x7b\"hits\":[\x7b\"_source\":\x7b\"a\":\"x\\ny\"\x7d\x7d," ++
      "\x7b\"_id\":\"2\"\x7d]\x7d\x7d")
    let lines := "\x7b\"a\":\"x\\ny\"\x7d\n\x7b\"_id\":\"2\"\x7d\n"
    let answer : Http.Outcome := .answer 201 (Utf8.encode "\x7b\"_id\":\"7\"\x7d") none true
    let r := run oneNode (.scripted [answer, answer]) (Utf8.encode lines) ["index", "-"]
    r.stdout = "Indexed 2 documents into packetbeat\n" ∧
    ∃ (a : SearchAnswer) (client : Client) (conns : List Connection) (shipment : Shipment)
      (stored : List Stored) (rest : List Json) (refreshed : List Exchange),
      SearchAnswer.read body = .ok a ∧ rendered a .lines = lines ∧
      documentsOf a = stored.map Stored.doc ++ rest ∧
      (∀ d ∈ stored, Replied client conns (shipment.request d.doc) d.sent d.reply) ∧
      r.session.journal.sent = stored.flatMap Stored.sent ++ refreshed := by
  intro body lines answer r
  have hstdout : r.stdout = "Indexed 2 documents into packetbeat\n" := by decide +kernel
  have hfound : ((SearchAnswer.read body).toOption.any fun a =>
      rendered a .lines == lines && a.hits.hits.all Json.isFloatless) = true := by
    decide +kernel
  have hparts : ((prepare oneNode ["index", "-"]).toOption.any
      fun p => p.client.toOption.isSome && p.command.readsInput) = true := by
    decide +kernel
  obtain ⟨a, ha, hfound⟩ := (Option.any_eq_true _ _).mp hfound
  obtain ⟨hlines, hfloatless⟩ := Bool.and_eq_true_iff.mp hfound
  obtain ⟨p, hp, hparts⟩ := (Option.any_eq_true _ _).mp hparts
  obtain ⟨hmade, hreads⟩ := Bool.and_eq_true_iff.mp hparts
  obtain ⟨⟨client, s₀⟩, hclient⟩ := Option.isSome_iff_exists.mp hmade
  obtain ⟨target, docType, idField, refresh, hcommand⟩ := index_of_readsInput hreads
  have hinput : inputOf p.files (Utf8.encode lines) "-" =
      .ok (Utf8.encode (rendered a .lines)) := by
    rw [eq_of_beq hlines]
    rfl
  obtain ⟨stored, rest, refreshed, hdocuments, hrequests, hsent, -⟩ :=
    (printed_hits_ship body a (ok_of_toOption ha) (List.all_eq_true.mp hfloatless)).2 oneNode
      (.scripted [answer, answer]) (Utf8.encode lines) _ p client s₀ _ _ _ _ _ (ok_of_toOption hp)
      (ok_of_toOption hclient) hcommand hinput
  have hr : run oneNode (.scripted [answer, answer]) (Utf8.encode lines) ["index", "-"] = r := rfl
  rw [hr] at hsent
  exact ⟨hstdout, a, client, _, ⟨target.getD p.settings.index, docType, idField⟩, stored, rest,
    refreshed, ok_of_toOption ha, eq_of_beq hlines, hdocuments, hrequests, hsent⟩

end Cli

end ClusterOutput
