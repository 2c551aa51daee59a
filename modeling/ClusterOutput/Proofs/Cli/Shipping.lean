/-
Shipping a text. The documents of its lines are sent one by one, in order, each in
one request, and none is lost or sent twice (`index_ships`): what was sent is the
documents of the first lines, up to all of them, or up to a line that is no JSON
or a request that is not answered.
-/
import ClusterOutput.Proofs.Cli.Replies
import ClusterOutput.Proofs.Text.Lines

namespace ClusterOutput

/-! ## Ids -/

theorem Text.ofNat_ne_empty (n : Nat) : Text.ofNat n ≠ "" := by
  rw [Text.ofNat, ne_eq, String.ofList_eq_empty_iff]
  exact Nat.toDigits_ne_nil

theorem Text.ofInt_ne_empty (i : Int) : Text.ofInt i ≠ "" := by
  cases i with
  | ofNat n => exact Text.ofNat_ne_empty n
  | negSucc n => simp [Text.ofInt]

namespace Binary64

theorem layOut_ne_nil (digits : List Char) (lead : Int) : layOut digits lead ≠ [] := by
  unfold layOut
  split
  · split
    · simp
    · simp only []
      split <;> simp
  · simp

theorem text_ne_nil (x : Binary64) : x.text ≠ [] := by
  have hmagnitude : (if x.isZero then ['0', '.', '0'] else
      layOut (stripZeros (Text.digits (shortest x).digits) (shortest x).power).1
        ((stripZeros (Text.digits (shortest x).digits) (shortest x).power).2 +
          (stripZeros (Text.digits (shortest x).digits) (shortest x).power).1.length - 1)) ≠ [] := by
    split
    · simp
    · exact layOut_ne_nil _ _
  unfold text
  simp only []
  split
  · simp
  · exact hmagnitude

end Binary64

namespace Cli

/-- The id that a document gives itself: a text that is not empty, or a number. -/
def Shipment.idOf? (shipment : Shipment) (doc : Json) : Option String :=
  match shipment.idField.bind doc.member? with
  | some (.str s) => if s = "" then none else some s
  | some (.int i) => some (Text.ofInt i)
  | some (.float x) => some (String.ofList x.text)
  | _ => none

/-- The request that stores a document: under its id, or under one that the cluster chooses. -/
def Shipment.request (shipment : Shipment) (doc : Json) : Client.Call :=
  match shipment.idOf? doc with
  | some id =>
    ⟨.index, "PUT", Url.documentPath shipment.index shipment.docType id, none,
      some (Utf8.encodeChars doc.write)⟩
  | none =>
    ⟨.index, "POST", Url.documentPath shipment.index shipment.docType "", none,
      some (Utf8.encodeChars doc.write)⟩

theorem Shipment.idOf?_ne_empty {shipment : Shipment} {doc : Json} {id : String}
    (h : shipment.idOf? doc = some id) : id ≠ "" := by
  unfold Shipment.idOf? at h
  split at h
  next s _ =>
    split at h
    next => cases h
    next hs =>
      cases h
      exact hs
  next i _ =>
    cases h
    exact Text.ofInt_ne_empty i
  next x _ =>
    cases h
    simpa using Binary64.text_ne_nil x
  next => cases h

theorem Shipment.idOf?_getD (shipment : Shipment) (doc : Json) :
    (shipment.idField.map (documentId doc)).getD "" = (shipment.idOf? doc).getD "" := by
  unfold Shipment.idOf?
  cases shipment.idField with
  | none => rfl
  | some field =>
    show documentId doc field = _
    rw [Option.bind_some, documentId]
    cases doc.member? field with
    | none => rfl
    | some v =>
      cases v with
      | str s =>
        simp only []
        split
        next hs => exact hs
        next => rfl
      | _ => rfl

theorem Shipment.call_eq (shipment : Shipment) (doc : Json) :
    shipment.call doc = shipment.request doc := by
  rw [Shipment.call, Shipment.request, shipment.idOf?_getD]
  cases hid : shipment.idOf? doc with
  | none => rfl
  | some id => simp only [Option.getD_some, if_neg (Shipment.idOf?_ne_empty hid)]

/-! ## What is shipped -/

/-- A document that was sent: the number and the text of its line, the exchanges of its request, and
what became of it. -/
structure Stored where
  number : Nat
  text : List Char
  doc : Json
  sent : List Exchange
  reply : Reply

/-- How many documents were stored. -/
def indexed (stored : List Stored) : Nat := stored.countP (·.reply = .taken)

/-- How many documents were turned away. -/
def rejected (stored : List Stored) : Nat := stored.countP (·.reply = .refused)

/-- What stops the shipping of an input. -/
inductive Halt where
  /-- A line cannot be read. -/
  | unreadable
  /-- A line is no JSON. -/
  | invalid (number : Nat) (error : Json.Error)
  /-- A request is not answered, or its answer cannot be read. -/
  | reply (reply : Reply)

def Halt.code : Halt → ExitCode
  | unreadable => .generalError
  | invalid .. => .validationError
  | reply r => r.code

/-- The lines of an input, the first of which has the number given, with the documents of it that
were sent, and what stopped their shipping. -/
inductive Shipped (c : Client) (conns : List Connection) (shipment : Shipment) :
    Nat → List Bytes → List Stored → Option Halt → Prop
  | done {number : Nat} : Shipped c conns shipment number [] [] none
  | blank {number : Nat} {line : Bytes} {lines : List Bytes} {stored : List Stored}
    {halt : Option Halt} (hline : lineDocument? number line = .ok none)
    (hrest : Shipped c conns shipment (number + 1) lines stored halt) :
    Shipped c conns shipment number (line :: lines) stored halt
  | unreadable {number : Nat} {line : Bytes} {lines : List Bytes} {context : String}
    {fault : InputFault} (hline : lineDocument? number line = .error (.input context fault)) :
    Shipped c conns shipment number (line :: lines) [] (some .unreadable)
  | invalid {number : Nat} {line : Bytes} {lines : List Bytes} {e : Json.Error}
    (hline : lineDocument? number line = .error (.invalidLine number e)) :
    Shipped c conns shipment number (line :: lines) [] (some (.invalid number e))
  | unanswered {number : Nat} {line : Bytes} {lines : List Bytes} {text : List Char} {doc : Json}
    {sent : List Exchange} {reply : Reply} (htext : Utf8.decodeChars? line = some text)
    (hline : lineDocument? number line = .ok (some doc))
    (hreplied : Replied c conns (shipment.call doc) sent reply) (hno : reply.isAnswer = false) :
    Shipped c conns shipment number (line :: lines)
      [⟨number, Text.withoutNewline text, doc, sent, reply⟩] (some (.reply reply))
  | answered {number : Nat} {line : Bytes} {lines : List Bytes} {text : List Char} {doc : Json}
    {sent : List Exchange} {reply : Reply} {stored : List Stored} {halt : Option Halt}
    (htext : Utf8.decodeChars? line = some text)
    (hline : lineDocument? number line = .ok (some doc))
    (hreplied : Replied c conns (shipment.call doc) sent reply) (hanswer : reply.isAnswer = true)
    (hrest : Shipped c conns shipment (number + 1) lines stored halt) :
    Shipped c conns shipment number (line :: lines)
      (⟨number, Text.withoutNewline text, doc, sent, reply⟩ :: stored) halt

/-- What the shipping of an input comes to. -/
inductive ShipEnds (setting : Setting) (summary : Summary) (stored : List Stored) :
    Option Halt → Except Failure Summary × Session → Prop
  | done {s' : Session} (hs : Steady setting s') :
    ShipEnds setting summary stored none
      (.ok ⟨summary.indexed + indexed stored, summary.rejected + rejected stored⟩, s')
  | halted {f : Failure} {halt : Halt} {s' : Session} (hcode : f.code = halt.code)
    (hline : ∀ number e, halt = .invalid number e → f = .invalidLine number e) :
    ShipEnds setting summary stored (some halt) (.error f, s')

section

variable {setting : Setting} {shipment : Shipment} {number : Nat} {summary : Summary}
  {line : Bytes} {lines : List Bytes} {s : Session}

theorem lineDocument?_error {f : Failure} (h : lineDocument? number line = .error f) :
    (∃ context fault, f = .input context fault) ∨ ∃ e, f = .invalidLine number e := by
  unfold lineDocument? at h
  split at h
  next =>
    cases h
    exact .inl ⟨_, _, rfl⟩
  next =>
    simp only [] at h
    split at h
    · cases h
    · split at h
      · cases h
      next e _ =>
        cases h
        exact .inr ⟨e, rfl⟩

theorem lineDocument?_some {doc : Json} (h : lineDocument? number line = .ok (some doc)) :
    ∃ text, Utf8.decodeChars? line = some text ∧
      (Text.withoutNewline text).all Text.isBlank = false ∧
      Json.parse (Utf8.encodeChars (Text.withoutNewline text)) = .ok doc := by
  unfold lineDocument? at h
  split at h
  · cases h
  next text htext =>
    simp only [] at h
    split at h
    · cases h
    next hblank =>
      split at h
      next hparse =>
        cases h
        exact ⟨text, htext, by simpa using hblank, hparse⟩
      · cases h

theorem Steady.log (hs : Steady setting s) (e : Event) : Steady setting (s.log e) :=
  ⟨hs.calm, hs.token, hs.goes⟩

theorem Steady.noteRejection (hs : Steady setting s) (number : Nat) (a : Acknowledgement) :
    Steady setting (noteRejection number a s) :=
  ⟨hs.calm, hs.token, (noteRejection_session number a s).2.2.trans hs.goes⟩

theorem index_reported (hs : Steady setting s) (shipment : Shipment) (doc : Json)
    (context : String) :
    ∃ sent reply, Reported setting (shipment.call doc) Acknowledgement.read s
      (inContext context (setting.client.index setting.world shipment.index shipment.docType
        ((shipment.idField.map (documentId doc)).getD "") none (.json doc) s)) sent reply := by
  obtain ⟨sent, reply, h⟩ := reading_reported (hs.log _) _ _ none
    (readsBy_acknowledgement (.inl rfl)) (payloadOf_json doc) context
  exact ⟨sent, reply, h.replied, h.handed, h.connections, h.of_ok, h.of_error⟩

variable (summary) in
/-- An answer that names an id is one that the command takes. -/
theorem count_judged {a : Acknowledgement} {b : Bytes} {reply : Reply}
    (hread : Acknowledgement.read b = .ok a) (hjudged : Judged .index b reply) :
    (summary.count a).indexed = summary.indexed + (if reply = .taken then 1 else 0) ∧
      (summary.count a).rejected = summary.rejected + (if reply = .refused then 1 else 0) := by
  have htakes : Takes .index b ↔ a.id ≠ "" := by
    simp [Takes, hread]
  cases hjudged with
  | undecodable hno => exact absurd ⟨a, hread⟩ hno
  | refused _ hno =>
    have hid : a.id = "" := by simpa using (not_congr htakes).mp hno
    simp [Summary.count, hid]
  | taken _ hyes => simp [Summary.count, htakes.mp hyes]

theorem indexed_cons (d : Stored) (stored : List Stored) :
    indexed (d :: stored) = (if d.reply = .taken then 1 else 0) + indexed stored := by
  simp [indexed, List.countP_cons, Nat.add_comm]

theorem rejected_cons (d : Stored) (stored : List Stored) :
    rejected (d :: stored) = (if d.reply = .refused then 1 else 0) + rejected stored := by
  simp [rejected, List.countP_cons, Nat.add_comm]

/-- A document that was answered is counted before those that follow it. -/
theorem ShipEnds.cons {a : Acknowledgement} {b : Bytes} {d : Stored} {stored : List Stored}
    {halt : Option Halt} {r : Except Failure Summary × Session}
    (hread : Acknowledgement.read b = .ok a) (hjudged : Judged .index b d.reply)
    (h : ShipEnds setting (summary.count a) stored halt r) :
    ShipEnds setting summary (d :: stored) halt r := by
  obtain ⟨hindexed, hrejected⟩ := count_judged summary hread hjudged
  cases h with
  | done hs =>
    rw [hindexed, hrejected, Nat.add_assoc, Nat.add_assoc, ← indexed_cons, ← rejected_cons]
    exact .done hs
  | halted hcode hline => exact .halted hcode hline

/-- Shipping an input goes as its lines and the exchanges tell. -/
theorem ship_shipped (hs : Steady setting s) (shipment : Shipment) (number : Nat)
    (summary : Summary) (lines : List Bytes) :
    ∃ stored halt, Shipped setting.client s.pool.connections shipment number lines stored halt ∧
      ShipEnds setting summary stored halt (ship setting shipment number summary lines s) ∧
      (ship setting shipment number summary lines s).2.journal.sent =
        s.journal.sent ++ stored.flatMap Stored.sent ∧
      (ship setting shipment number summary lines s).2.pool.connections = s.pool.connections := by
  induction lines generalizing number summary s with
  | nil => exact ⟨[], none, .done, .done hs, (List.append_nil _).symm, rfl⟩
  | cons line lines ih =>
    simp only [ship, shipLine]
    cases hline : lineDocument? number line with
    | error f =>
      rcases lineDocument?_error hline with ⟨context, fault, rfl⟩ | ⟨e, rfl⟩
      · refine ⟨[], _, .unreadable hline, .halted rfl ?_, (List.append_nil _).symm, rfl⟩
        rintro _ _ ⟨⟩
      · refine ⟨[], _, .invalid hline, .halted rfl ?_, (List.append_nil _).symm, rfl⟩
        rintro _ _ ⟨⟩
        rfl
    | ok doc? =>
      cases doc? with
      | none =>
        obtain ⟨stored, halt, hshipped, hrest⟩ := ih hs (number + 1) summary
        exact ⟨stored, halt, .blank hline hshipped, hrest⟩
      | some doc =>
        obtain ⟨text, htext, -, -⟩ := lineDocument?_some hline
        obtain ⟨sent, reply, hreported⟩ :=
          index_reported hs shipment doc ("Failed to index line " ++ Text.ofNat number)
        simp only []
        generalize inContext _ _ = r at hreported ⊢
        obtain ⟨hreplied, hhanded, hconns, hok, herror⟩ := hreported
        obtain ⟨r, s₁⟩ := r
        cases r with
        | error f =>
          obtain ⟨hno, hcode⟩ := herror f rfl
          refine ⟨_, _, .unanswered htext hline hreplied hno, .halted hcode ?_, ?_, hconns⟩
          · rintro _ _ ⟨⟩
          · simpa using hhanded
        | ok a =>
          obtain ⟨hanswer, hs₁, b, hread, hjudged⟩ := hok a rfl
          obtain ⟨hkept, hpool, -⟩ := noteRejection_session number a s₁
          obtain ⟨stored, halt, hshipped, hends, hsent, hconns₁⟩ :=
            ih (hs₁.noteRejection number a) (number + 1) (summary.count a)
          simp only [] at hconns hhanded
          rw [hpool, hconns] at hshipped hconns₁
          refine ⟨_, halt, .answered htext hline hreplied hanswer hshipped,
            .cons hread hjudged hends, ?_, hconns₁⟩
          rw [hsent, hkept, hhanded, List.flatMap_cons, List.append_assoc]

end

/-! ## The lines of a text -/

/-- The lines that are not blank, each with its number and without its end. The first line has the
number given. -/
def documentLines (number : Nat) (lines : List (List Char)) : List (Nat × List Char) :=
  ((lines.map Text.withoutNewline).zipIdx number).filterMap fun (text, n) =>
    if text.all Text.isBlank then none else some (n, text)

/-- The line of a document that was sent. -/
def Stored.line (d : Stored) : Nat × List Char := (d.number, d.text)

/-- The lines that are left when shipping ends. -/
inductive Left : Option Halt → List (Nat × List Char) → Prop
  | done : Left none []
  | invalid {number : Nat} {text : List Char} {later : List (Nat × List Char)} {e : Json.Error}
    (hparse : Json.parse (Utf8.encodeChars text) = .error e) :
    Left (some (.invalid number e)) ((number, text) :: later)
  | unanswered {reply : Reply} {rest : List (Nat × List Char)} : Left (some (.reply reply)) rest

section

variable {c : Client} {conns : List Connection} {shipment : Shipment} {number : Nat}
  {stored : List Stored} {halt : Option Halt}

theorem documentLines_blank {line : List Char}
    (h : (Text.withoutNewline line).all Text.isBlank = true) (lines : List (List Char)) :
    documentLines number (line :: lines) = documentLines (number + 1) lines := by
  simp only [documentLines, List.map_cons, List.zipIdx_cons, List.filterMap_cons, h, if_true]

theorem documentLines_cons {line : List Char}
    (h : (Text.withoutNewline line).all Text.isBlank = false) (lines : List (List Char)) :
    documentLines number (line :: lines) =
      (number, Text.withoutNewline line) :: documentLines (number + 1) lines := by
  simp only [documentLines, List.map_cons, List.zipIdx_cons, List.filterMap_cons, h,
    Bool.false_eq_true, if_false]

theorem lineDocument?_encodeChars (number : Nat) (line : List Char) :
    lineDocument? number (Utf8.encodeChars line) =
      if (Text.withoutNewline line).all Text.isBlank then .ok none
      else match Json.parse (Utf8.encodeChars (Text.withoutNewline line)) with
        | .ok doc => .ok (some doc)
        | .error e => .error (.invalidLine number e) := by
  unfold lineDocument?
  generalize hdecoded : Utf8.decodeChars? (Utf8.encodeChars line) = decoded
  rw [Utf8.decodeChars?_encodeChars] at hdecoded
  subst hdecoded
  rfl

theorem not_blank_of_document {line : List Char} {doc : Json}
    (h : lineDocument? number (Utf8.encodeChars line) = .ok (some doc)) :
    (Text.withoutNewline line).all Text.isBlank = false := by
  obtain ⟨text, htext, hfull, -⟩ := lineDocument?_some h
  rw [Utf8.decodeChars?_encodeChars] at htext
  rwa [Option.some.inj htext]

/-- The documents that were sent are those of the first lines that are not blank. -/
theorem Shipped.lines {lines : List (List Char)}
    (h : Shipped c conns shipment number (lines.map Utf8.encodeChars) stored halt) :
    ∃ rest, documentLines number lines = stored.map Stored.line ++ rest ∧ Left halt rest := by
  generalize hbytes : lines.map Utf8.encodeChars = bytes at h
  induction h generalizing lines with
  | done =>
    obtain rfl := List.map_eq_nil_iff.mp hbytes
    exact ⟨[], rfl, .done⟩
  | blank hline _ ih =>
    obtain ⟨line, lines, rfl, rfl, rfl⟩ := List.map_eq_cons_iff.mp hbytes
    rw [lineDocument?_encodeChars] at hline
    split at hline
    next hblank =>
      obtain ⟨rest, hrest, hleft⟩ := ih rfl
      exact ⟨rest, (documentLines_blank hblank lines).trans hrest, hleft⟩
    · split at hline <;> cases hline
  | unreadable hline =>
    obtain ⟨line, lines, rfl, rfl, rfl⟩ := List.map_eq_cons_iff.mp hbytes
    rw [lineDocument?_encodeChars] at hline
    split at hline
    · cases hline
    · split at hline <;> cases hline
  | invalid hline =>
    obtain ⟨line, lines, rfl, rfl, rfl⟩ := List.map_eq_cons_iff.mp hbytes
    rw [lineDocument?_encodeChars] at hline
    split at hline
    · cases hline
    next hfull =>
      split at hline
      · cases hline
      next hparse =>
        cases hline
        exact ⟨_, documentLines_cons (by simpa using hfull) lines, .invalid hparse⟩
  | unanswered htext hline =>
    obtain ⟨line, lines, rfl, rfl, rfl⟩ := List.map_eq_cons_iff.mp hbytes
    rw [Utf8.decodeChars?_encodeChars] at htext
    obtain rfl := Option.some.inj htext
    exact ⟨_, documentLines_cons (not_blank_of_document hline) lines, .unanswered⟩
  | answered htext hline _ _ _ ih =>
    obtain ⟨line, lines, rfl, rfl, rfl⟩ := List.map_eq_cons_iff.mp hbytes
    rw [Utf8.decodeChars?_encodeChars] at htext
    obtain rfl := Option.some.inj htext
    obtain ⟨rest, hrest, hleft⟩ := ih rfl
    refine ⟨rest, ?_, hleft⟩
    rw [documentLines_cons (not_blank_of_document hline), hrest, List.map_cons, List.cons_append]
    rfl

/-- What was sent for a document is its request. -/
theorem Shipped.requests {lines : List Bytes}
    (h : Shipped c conns shipment number lines stored halt) :
    ∀ d ∈ stored, Json.parse (Utf8.encodeChars d.text) = .ok d.doc ∧
      Replied c conns (shipment.request d.doc) d.sent d.reply := by
  induction h with
  | done | unreadable | invalid => exact List.forall_mem_nil _
  | blank _ _ ih => exact ih
  | unanswered htext hline hreplied =>
    obtain ⟨text, htext', -, hparse⟩ := lineDocument?_some hline
    obtain rfl := Option.some.inj (htext.symm.trans htext')
    rw [shipment.call_eq] at hreplied
    exact List.forall_mem_singleton.mpr ⟨hparse, hreplied⟩
  | answered htext hline hreplied _ _ ih =>
    obtain ⟨text, htext', -, hparse⟩ := lineDocument?_some hline
    obtain rfl := Option.some.inj (htext.symm.trans htext')
    rw [shipment.call_eq] at hreplied
    exact List.forall_mem_cons.mpr ⟨⟨hparse, hreplied⟩, ih⟩

/-- Documents that were sent were answered, but for the last one if that is what stopped the
shipping. -/
theorem Shipped.answers {lines : List Bytes}
    (h : Shipped c conns shipment number lines stored halt) :
    (∀ d ∈ stored, d.reply.isAnswer = true) ∧ (∀ reply, halt ≠ some (.reply reply)) ∨
      ∃ front d, stored = front ++ [d] ∧ (∀ y ∈ front, y.reply.isAnswer = true) ∧
        d.reply.isAnswer = false ∧ halt = some (.reply d.reply) := by
  induction h with
  | done | unreadable | invalid => exact .inl ⟨List.forall_mem_nil _, fun _ h => by cases h⟩
  | blank _ _ ih => exact ih
  | unanswered _ _ _ hno => exact .inr ⟨[], _, rfl, List.forall_mem_nil _, hno, rfl⟩
  | answered _ _ _ hanswer _ ih =>
    rcases ih with ⟨hall, hhalt⟩ | ⟨front, d, rfl, hfront, hno, hhalt⟩
    · exact .inl ⟨List.forall_mem_cons.mpr ⟨hanswer, hall⟩, hhalt⟩
    · exact .inr ⟨_ :: front, d, rfl, List.forall_mem_cons.mpr ⟨hanswer, hfront⟩, hno, hhalt⟩

/-- Every answer is counted, as that of a document that was stored or of one that was turned
away. -/
theorem indexed_add_rejected (h : ∀ d ∈ stored, d.reply.isAnswer = true) :
    indexed stored + rejected stored = stored.length := by
  induction stored with
  | nil => rfl
  | cons d stored ih =>
    rw [List.forall_mem_cons] at h
    have hrest := ih h.2
    rw [indexed_cons, rejected_cons, List.length_cons]
    cases hreply : d.reply with
    | missed m =>
      rw [hreply] at h
      cases h.1
    | undecodable =>
      rw [hreply] at h
      cases h.1
    | refused =>
      simp only [reduceCtorEq, if_false, if_true]
      omega
    | taken =>
      simp only [reduceCtorEq, if_false, if_true]
      omega

end

/-! ## The whole command -/

/-- What follows the last line: nothing, or the request that makes visible what was stored, if that
is wanted. -/
inductive Refreshed (c : Client) (conns : List Connection) (index : String) :
    (wanted : Bool) → List Exchange → Reply → Prop
  | skipped : Refreshed c conns index false [] .taken
  | made {sent : List Exchange} {reply : Reply}
    (hreplied : Replied c conns (refreshCall index) sent reply) :
    Refreshed c conns index true sent reply

/-- What storing the documents of an input comes to. -/
inductive IndexEnds (c : Client) (conns : List Connection) (index : String) (refresh : Bool)
    (stored : List Stored) : Option Halt → List Exchange → Printed → Prop
  | halted {halt : Halt} {f : Failure} (hcode : f.code = halt.code)
    (hline : ∀ number e, halt = .invalid number e → f = .invalidLine number e) :
    IndexEnds c conns index refresh stored (some halt) [] (.nothing f)
  | unrefreshed {sent : List Exchange} {reply : Reply} {f : Failure}
    (hrefreshed : Refreshed c conns index (refresh && decide (0 < indexed stored)) sent reply)
    (hno : reply ≠ .taken) (hcode : f.code = reply.code) :
    IndexEnds c conns index refresh stored none sent (.nothing f)
  | whole {sent : List Exchange}
    (hrefreshed : Refreshed c conns index (refresh && decide (0 < indexed stored)) sent .taken) :
    IndexEnds c conns index refresh stored none sent
      (Summary.printed ⟨indexed stored, rejected stored⟩ index)

section

variable {setting : Setting} {s : Session}

theorem refresh_reported (hs : Steady setting s) (index context : String) :
    ∃ sent reply, Reported setting (refreshCall index) Acknowledgement.read s
      (inContext context (setting.client.refresh setting.world index s)) sent reply :=
  reading_reported hs _ _ none (readsBy_acknowledgement (.inr (.inr (.inr rfl)))) payloadOf_none
    context

theorem refreshAfter_refreshed (hs : Steady setting s) (index : String) (refresh : Bool)
    (summary : Summary) :
    ∃ sent reply, Refreshed setting.client s.pool.connections index
        (refresh && decide (0 < summary.indexed)) sent reply ∧
      (refreshAfter setting index refresh summary s).2.journal.sent = s.journal.sent ++ sent ∧
      ((refreshAfter setting index refresh summary s).1 = .ok () ∧ reply = .taken ∨
        ∃ f, (refreshAfter setting index refresh summary s).1 = .error f ∧ reply ≠ .taken ∧
          f.code = reply.code) := by
  unfold refreshAfter
  cases hwanted : refresh && decide (0 < summary.indexed) with
  | false => exact ⟨[], .taken, .skipped, (List.append_nil _).symm, .inl ⟨rfl, rfl⟩⟩
  | true =>
    obtain ⟨sent, reply, hreplied, hhanded, -, hok, herror⟩ :=
      refresh_reported hs index ("Failed to refresh " ++ index)
    refine ⟨sent, reply, .made hreplied, ?_⟩
    rw [if_pos rfl]
    generalize inContext _ _ = r at hhanded hok herror ⊢
    obtain ⟨r, s₁⟩ := r
    cases r with
    | ok a =>
      obtain ⟨hanswer, -, b, -, hjudged⟩ := hok a rfl
      exact ⟨hhanded, .inl ⟨rfl, hjudged.taken_of_reads (fun hread => hread) hanswer⟩⟩
    | error f =>
      obtain ⟨hno, hcode⟩ := herror f rfl
      refine ⟨hhanded, .inr ⟨f, rfl, ?_, hcode⟩⟩
      rintro rfl
      cases hno

/-- Storing the documents of an input that can be opened. -/
theorem runIndex_ends (hs : Steady setting s) {files : Files} {stdin content : Bytes}
    {input : String} (hinput : inputOf files stdin input = .ok content) (shipment : Shipment)
    (refresh : Bool) :
    ∃ stored halt sent,
      Shipped setting.client s.pool.connections shipment 1 (Text.rawLines content) stored halt ∧
      IndexEnds setting.client s.pool.connections shipment.index refresh stored halt sent
        (runIndex setting files stdin input shipment refresh s).1 ∧
      (runIndex setting files stdin input shipment refresh s).2.journal.sent =
        s.journal.sent ++ (stored.flatMap Stored.sent ++ sent) := by
  obtain ⟨stored, halt, hshipped, hends, hsent, hconns⟩ :=
    ship_shipped hs shipment 1 .zero (Text.rawLines content)
  simp only [runIndex, hinput]
  generalize ship setting shipment 1 .zero (Text.rawLines content) s = r at hends hsent hconns ⊢
  cases hends with
  | @halted f halt s₁ hcode hline =>
    refine ⟨stored, some halt, [], hshipped, .halted hcode hline, ?_⟩
    rw [List.append_nil]
    exact hsent
  | @done s₁ hs₁ =>
    have hzero : (⟨Summary.zero.indexed + indexed stored, Summary.zero.rejected + rejected stored⟩ :
        Summary) = ⟨indexed stored, rejected stored⟩ := by
      simp [Summary.zero]
    obtain ⟨sent, reply, hrefreshed, hhanded, hdone⟩ :=
      refreshAfter_refreshed
        (hs₁.log (.shippingFinished (indexed stored) (rejected stored) shipment.index))
        shipment.index refresh ⟨indexed stored, rejected stored⟩
    -- the summary is put in short first: behind `afterLines` the log has its parts by themselves
    simp only [hzero]
    simp only [afterLines]
    simp only [] at hsent hconns
    simp only [Session.log, hconns] at hrefreshed
    generalize refreshAfter _ _ _ _ _ = r at hhanded hdone ⊢
    obtain ⟨r, s₂⟩ := r
    refine ⟨stored, none, sent, hshipped, ?_⟩
    rw [← List.append_assoc, ← hsent]
    rcases hdone with ⟨rfl, rfl⟩ | ⟨f, rfl, hno, hcode⟩
    · exact ⟨.whole hrefreshed, hhanded⟩
    · exact ⟨.unrefreshed hrefreshed hno hcode, hhanded⟩

end

/-! ## The whole run -/

theorem code_of_interruption {f : Failure} (h : f.isInterruption = true) :
    f.code = .interrupted := by
  unfold Failure.isInterruption at h
  split at h
  · rfl
  · cases h

/-- A run has the code of the failure of its command. -/
theorem Printed.report_code (printed : Printed) (s : Session) :
    (printed.report s).code = printed.failure.elim .success Failure.code := by
  unfold Printed.report
  cases printed.failure with
  | none => rfl
  | some f =>
    simp only [Option.elim]
    split
    next h => exact (code_of_interruption h).symm
    next => rfl

theorem Printed.report_stdout (printed : Printed) (s : Session) :
    (printed.report s).stdout = printed.output ∧ (printed.report s).session = s := by
  unfold Printed.report
  split
  · exact ⟨rfl, rfl⟩
  · split <;> exact ⟨rfl, rfl⟩

/-- The client of a run carries its token, and nothing but an exchange interrupts the run. -/
theorem Prepared.client_steady {p : Prepared} {client : Client} {s : Session}
    (h : p.client = .ok (client, s)) (network : Http.Network) :
    Steady ⟨client, ⟨network, fun _ => false⟩⟩ s := by
  obtain ⟨hosts, s₁, -, -, htoken, rfl, -, hcancelled⟩ := p.client_ok h
  exact ⟨fun _ => rfl, htoken, hcancelled⟩

/-- What a run that stores the documents of a text comes to, by the documents that were sent and the
lines that are left. -/
inductive IndexReport (c : Client) (conns : List Connection) (index : String) (refresh : Bool)
    (stored : List Stored) : List (Nat × List Char) → List Exchange → Report → Prop
  /-- The next line is no JSON: it is told by its number, and nothing more is sent. -/
  | invalidLine {number : Nat} {text : List Char} {later : List (Nat × List Char)} {e : Json.Error}
    {r : Report} (hanswered : ∀ d ∈ stored, d.reply.isAnswer = true)
    (hparse : Json.parse (Utf8.encodeChars text) = .error e) (hcode : r.code = .validationError)
    (hstdout : r.stdout = "")
    (hstderr : r.stderr = (Failure.invalidLine number e).message ++ "\n") :
    IndexReport c conns index refresh stored ((number, text) :: later) [] r
  /-- The last document was not answered, or the answer cannot be read: nothing more is sent. -/
  | unanswered {front : List Stored} {d : Stored} {rest : List (Nat × List Char)} {r : Report}
    (hstored : stored = front ++ [d]) (hanswered : ∀ y ∈ front, y.reply.isAnswer = true)
    (hno : d.reply.isAnswer = false) (hcode : r.code = d.reply.code) (hstdout : r.stdout = "") :
    IndexReport c conns index refresh stored rest [] r
  /-- All documents were sent and answered. -/
  | complete {refreshed : List Exchange} {reply : Reply} {r : Report}
    (hanswered : ∀ d ∈ stored, d.reply.isAnswer = true)
    (hcount : indexed stored + rejected stored = stored.length)
    (hrefreshed : Refreshed c conns index (refresh && decide (0 < indexed stored)) refreshed reply)
    (hcode : r.code = .success ↔ reply = .taken ∧ rejected stored = 0)
    (hstdout : r.stdout = if reply = .taken then
      "Indexed " ++ Text.ofNat (indexed stored) ++ " documents into " ++ index ++ "\n" else "") :
    IndexReport c conns index refresh stored [] refreshed r

theorem IndexEnds.report {c : Client} {conns : List Connection} {shipment : Shipment}
    {refresh : Bool} {stored : List Stored} {halt : Option Halt} {sent : List Exchange}
    {printed : Printed} {bytes : List Bytes} {rest : List (Nat × List Char)}
    (h : IndexEnds c conns shipment.index refresh stored halt sent printed)
    (hshipped : Shipped c conns shipment 1 bytes stored halt) (hleft : Left halt rest)
    (s : Session) :
    IndexReport c conns shipment.index refresh stored rest sent (printed.report s) := by
  have hcode := printed.report_code s
  have hstdout := (printed.report_stdout s).1
  have hanswers := hshipped.answers
  cases h with
  | @halted halt f hfcode hline =>
    cases hleft with
    | @invalid number text later e hparse =>
      rcases hanswers with ⟨hall, -⟩ | ⟨front, d, -, -, -, hhalt⟩
      · obtain rfl := hline number e rfl
        exact .invalidLine hall hparse hcode hstdout rfl
      · cases hhalt
    | unanswered =>
      rcases hanswers with ⟨-, hnone⟩ | ⟨front, d, hstored, hfront, hno, hhalt⟩
      · exact absurd rfl (hnone _)
      · cases hhalt
        exact .unanswered hstored hfront hno (hcode.trans hfcode) hstdout
  | @unrefreshed _ reply f hrefreshed hno hfcode =>
    cases hleft
    rcases hanswers with ⟨hall, -⟩ | ⟨front, d, -, -, -, hhalt⟩
    · refine .complete hall (indexed_add_rejected hall) hrefreshed ?_ ?_
      · rw [hcode]
        exact ⟨fun hsuccess => absurd hsuccess f.code_ne_success,
          fun hsuccess => absurd hsuccess.1 hno⟩
      · rw [hstdout, if_neg hno]
        rfl
    · cases hhalt
  | whole hrefreshed =>
    cases hleft
    rcases hanswers with ⟨hall, -⟩ | ⟨front, d, -, -, -, hhalt⟩
    · refine .complete hall (indexed_add_rejected hall) hrefreshed ?_ ?_
      · rw [hcode]
        simp only [Summary.printed]
        split
        next hsome => simp [Failure.code]; omega
        next hnone => simp; omega
      · rw [hstdout, if_pos rfl]
        rfl
    · cases hhalt

/-- A run that stores documents ships the lines of its input. -/
theorem run_shipped (surroundings : Surroundings) (network : Http.Network) (stdin : Bytes)
    (words : List String) (p : Prepared) (client : Client) (s₀ : Session) (input docType : String)
    (target idField : Option String) (refresh : Bool) (content : Bytes)
    (hprepare : prepare surroundings words = .ok p) (hclient : p.client = .ok (client, s₀))
    (hcommand : p.command = .index input target docType idField refresh)
    (hinput : inputOf p.files stdin input = .ok content) :
    let r := run surroundings network stdin words
    let conns := s₀.pool.connections
    let shipment : Shipment := ⟨target.getD p.settings.index, docType, idField⟩
    ∃ stored halt refreshed printed s,
      Shipped client conns shipment 1 (Text.rawLines content) stored halt ∧
      IndexEnds client conns shipment.index refresh stored halt refreshed printed ∧
      r = printed.report s ∧
      r.session.journal.sent = stored.flatMap Stored.sent ++ refreshed := by
  intro r conns shipment
  obtain ⟨stored, halt, refreshed, hshipped, hends, hsent⟩ :=
    runIndex_ends (p.client_steady hclient network) hinput shipment refresh
  rw [Prepared.client_sent hclient, List.nil_append] at hsent
  have hr : r = p.run network stdin := by simp only [r, run, hprepare]
  rw [Prepared.run, hclient] at hr
  simp only [hcommand, Command.run] at hr
  refine ⟨stored, halt, refreshed, _, _, hshipped, hends, hr, ?_⟩
  rw [hr, (Printed.report_stdout _ _).2]
  exact hsent

/-- **An input is shipped in order, and whole unless it is told.** A run stores the documents of a
text. What it sends is one request for each of the first lines that are not blank, in their order,
with the document of the line and under the id that it gives itself. It stops short of the last line
only at one that is no JSON, or behind a request that is not answered with something that can be
read. If it does not, each answer is counted, what was stored is made visible where that is asked
for, and the run succeeds exactly if that does and no document was turned away. -/
theorem index_ships (surroundings : Surroundings) (network : Http.Network) (stdin : Bytes)
    (words : List String) (p : Prepared) (client : Client) (s₀ : Session) (input docType : String)
    (target idField : Option String) (refresh : Bool) (text : List Char)
    (hprepare : prepare surroundings words = .ok p) (hclient : p.client = .ok (client, s₀))
    (hcommand : p.command = .index input target docType idField refresh)
    (hinput : inputOf p.files stdin input = .ok (Utf8.encodeChars text)) :
    let r := run surroundings network stdin words
    let conns := s₀.pool.connections
    let shipment : Shipment := ⟨target.getD p.settings.index, docType, idField⟩
    ∃ stored rest refreshed,
      documentLines 1 (Text.linesOf text) = stored.map Stored.line ++ rest ∧
      (∀ d ∈ stored, Json.parse (Utf8.encodeChars d.text) = .ok d.doc ∧
        Replied client conns (shipment.request d.doc) d.sent d.reply) ∧
      r.session.journal.sent = stored.flatMap Stored.sent ++ refreshed ∧
      IndexReport client conns shipment.index refresh stored rest refreshed r := by
  intro r conns shipment
  obtain ⟨stored, halt, refreshed, printed, s, hshipped, hends, hr, hsent⟩ :=
    run_shipped surroundings network stdin words p client s₀ input docType target idField refresh _
      hprepare hclient hcommand hinput
  rw [Text.rawLines_encodeChars] at hshipped
  obtain ⟨rest, hlines, hleft⟩ := hshipped.lines
  refine ⟨stored, rest, refreshed, hlines, hshipped.requests, hsent, ?_⟩
  rw [show r = printed.report s from hr]
  exact hends.report hshipped hleft s

theorem index_of_readsInput {command : Command} (h : command.readsInput = true) :
    ∃ target docType idField refresh, command = .index "-" target docType idField refresh := by
  cases command with
  | index input target docType idField refresh =>
    exact ⟨target, docType, idField, refresh, by rw [eq_of_beq h]⟩
  | delete | createIndex | refresh | search => cases h

/-- Of two documents between blank lines one is sent twice, since the node fails at first, and one
is turned away: the run made two requests and a refresh, in four exchanges. -/
theorem index_ships_refused :
    let text := "\n\x7b\"id\":7\x7d\n \n\x7b\x7d"
    let answers : List Http.Outcome :=
      [.answer 503 [] none true, .answer 201 (Utf8.encode "\x7b\"_id\":\"7\"\x7d") none true,
        .answer 400 (Utf8.encode "\x7b\x7d") none true,
        .answer 200 (Utf8.encode "\x7b\x7d") none true]
    let r := run oneNode (.scripted answers) (Utf8.encode text)
      ["index", "-", "--refresh", "--id-field", "id"]
    r.code = .validationError ∧ r.stdout = "Indexed 1 documents into packetbeat\n" ∧
      r.session.journal.sent.map (·.request.method) = ["PUT", "PUT", "POST", "POST"] ∧
      ∃ client conns index refresh stored rest refreshed,
        [(2, "\x7b\"id\":7\x7d".toList), (4, "\x7b\x7d".toList)] =
          stored.map Stored.line ++ rest ∧
        r.session.journal.sent = stored.flatMap Stored.sent ++ refreshed ∧
        IndexReport client conns index refresh stored rest refreshed r := by
  intro text answers r
  obtain ⟨hcode, hstdout, hmethods⟩ : r.code = .validationError ∧
      r.stdout = "Indexed 1 documents into packetbeat\n" ∧
      r.session.journal.sent.map (·.request.method) = ["PUT", "PUT", "POST", "POST"] := by
    decide +kernel
  have hparts : ((prepare oneNode ["index", "-", "--refresh", "--id-field", "id"]).toOption.any
      fun p => p.client.toOption.isSome && p.command.readsInput) = true := by
    decide +kernel
  obtain ⟨p, hp, hparts⟩ := (Option.any_eq_true _ _).mp hparts
  obtain ⟨hmade, hreads⟩ := Bool.and_eq_true_iff.mp hparts
  obtain ⟨⟨client, s₀⟩, hclient⟩ := Option.isSome_iff_exists.mp hmade
  obtain ⟨target, docType, idField, refresh, hcommand⟩ := index_of_readsInput hreads
  obtain ⟨stored, rest, refreshed, hlines, -, hsent, hreport⟩ :=
    index_ships oneNode (.scripted answers) (Utf8.encode text) _ p client s₀ _ _ _ _ _ text.toList
      (ok_of_toOption hp) (ok_of_toOption hclient) hcommand rfl
  have hwhole : documentLines 1 (Text.linesOf text.toList) =
      [(2, "\x7b\"id\":7\x7d".toList), (4, "\x7b\x7d".toList)] := by
    decide +kernel
  rw [hwhole] at hlines
  exact ⟨hcode, hstdout, hmethods, client, _, _, refresh, stored, rest, refreshed, hlines, hsent,
    hreport⟩

end Cli

end ClusterOutput
