/-
Where requests on documents go. A node whose URL ends in no control and no space,
and has neither a query nor a fragment, gets a path of three segments behind its
own, one for each name (`documents_keep_path`). The names are arbitrary otherwise,
but that none of them is one dot or two: these are not encoded, and move through
the path.
-/
import ClusterOutput.Client.Documents
import ClusterOutput.Client.Options
import ClusterOutput.Proofs.Client.Course
import ClusterOutput.Proofs.Url.Plain

namespace ClusterOutput

/-! ## The URLs of nodes -/

/-- A URL of a node as it is kept, which ends in no control and no space, and has neither a query
nor a fragment. -/
structure IsPlainHost (base : String) : Prop where
  kept : ∃ raw, normalizeHost raw = .ok base
  ends : Url.EndsPlain base.toList
  bare : ∀ u, Url.parse base = .ok u → u.query = none ∧ u.fragment = none

theorem special_of_isWeb {u : Url} (h : u.isWeb = true) : Url.kindOf u.scheme = .special :=
  Url.kindOf_web (Url.isWeb_iff.mp h).1

theorem normalizeHost_ok {raw base : String} (h : normalizeHost raw = .ok base) :
    ∃ v, Url.parse (Text.trim raw) = .ok v ∧ v.isWeb = true ∧
      Text.trimSlashes (Text.trim raw) = base := by
  unfold normalizeHost at h
  cases hparse : Url.parse (Text.trim raw) with
  | error fault =>
    simp only [hparse] at h
    cases h
  | ok v =>
    simp only [hparse] at h
    split at h
    next hweb => exact ⟨v, rfl, hweb, Except.ok.inj h⟩
    next => cases h

/-- What is dropped from the text of a node's URL are slashes. -/
theorem normalizeHost_slashed {raw base : String} (h : normalizeHost raw = .ok base) :
    ∃ slashes, (Text.trim raw).toList = base.toList ++ slashes ∧ ∀ c ∈ slashes, c = '/' := by
  obtain ⟨-, -, -, rfl⟩ := normalizeHost_ok h
  obtain ⟨slashes, hcs, hslashes⟩ := Url.trimEndBy_append (· == '/') (Text.trim raw).toList
  refine ⟨slashes, ?_, fun c hc => beq_iff_eq.mp (hslashes c hc)⟩
  rwa [Text.trimSlashes, String.toList_ofList]

theorem normalizeHost_not_slash {raw base : String} (h : normalizeHost raw = .ok base) :
    base.toList.getLast? ≠ some '/' := by
  intro hlast
  obtain ⟨-, -, -, hbase⟩ := normalizeHost_ok h
  rw [← hbase, Text.trimSlashes, String.toList_ofList, Text.trimEndBy, List.getLast?_reverse] at hlast
  cases Url.stops_of_dropWhile hlast

/-- The URL of a node is one as it is kept, with the same scheme and authority. -/
theorem parse_normalizeHost {raw base : String} (h : normalizeHost raw = .ok base) :
    ∃ u v, Url.parse base = .ok u ∧ u.isWeb = true ∧ Url.parse (Text.trim raw) = .ok v ∧
      u.scheme = v.scheme ∧ u.authority = v.authority := by
  obtain ⟨v, hparse, hweb, -⟩ := normalizeHost_ok h
  obtain ⟨slashes, hcs, hslashes⟩ := normalizeHost_slashed h
  rw [Url.parse, hcs] at hparse
  obtain ⟨u, hu, hscheme, hauthority⟩ :=
    Url.parseChars_trimmed hparse (special_of_isWeb hweb) hslashes
  refine ⟨u, v, hu, ?_, by rwa [Url.parse, hcs], hscheme, hauthority⟩
  rw [Url.isWeb, Url.host?, hscheme, hauthority]
  exact hweb

/-! ## Paths made of names -/

/-- A name that becomes a segment of its own. -/
structure IsName (name : String) : Prop where
  ne_empty : name ≠ ""
  ne_dot : name ≠ "."
  ne_dots : name ≠ ".."

theorem documentPath_names {index docType id : String} (htype : IsName docType)
    (hid : IsName id) :
    (Url.documentPath index docType id).toList =
      [index, docType, id].flatMap fun name => '/' :: Url.encodeSegment name := by
  simp only [Url.documentPath, Url.components, htype.ne_empty, hid.ne_empty, ne_eq,
    not_false_eq_true, if_true, if_false, String.toList_ofList]

namespace Client

theorem queryOf_eq_some {params : Option Url.Params} {q : String} (h : queryOf params = some q) :
    ∃ given : Url.Params, q.toList = given.encodeChars := by
  unfold queryOf at h
  split at h
  · cases h
  · cases h
  next given _ =>
    obtain rfl := Option.some.inj h
    exact ⟨given, String.toList_ofList⟩

/-- A query behind its question mark. -/
def queryTail : Option String → List Char
  | none => []
  | some q => '?' :: q.toList

theorem target_eq_ok {base path : String} {query : Option String} {url : Url} :
    target base path query = .ok url ↔
      Url.parseChars (base.toList ++ path.toList ++ queryTail query) = .ok url := by
  cases query with
  | none =>
    cases hparse : Url.parseChars (base.toList ++ path.toList) <;>
      simp [target, Url.parse, queryTail, hparse]
  | some q =>
    cases hparse : Url.parseChars (base.toList ++ (path.toList ++ '?' :: q.toList)) <;>
      simp [target, Url.parse, queryTail, hparse]

theorem queryTail_stops (query : Option String) :
    ∀ c, (queryTail query).head? = some c → Url.isPathChar c = false := by
  cases query with
  | none => simp [queryTail]
  | some q =>
    rintro c ⟨⟩
    rfl

theorem queryTail_plain (params : Option Url.Params) : Url.IsPlain (queryTail (queryOf params)) := by
  cases hquery : queryOf params with
  | none => exact List.forall_mem_nil _
  | some q =>
    obtain ⟨given, hq⟩ := queryOf_eq_some hquery
    rw [queryTail, hq]
    exact List.forall_mem_cons.mpr
      ⟨rfl, fun c hc => Url.isFormChar_plain (Url.encodeChars_chars given c hc)⟩

theorem parseTail_queryTail (params : Option Url.Params) :
    Url.parseTail .special (queryTail (queryOf params)) =
      ((queryOf params).map String.toList, none) := by
  cases hquery : queryOf params with
  | none => rfl
  | some q =>
    obtain ⟨given, hq⟩ := queryOf_eq_some hquery
    rw [queryTail, hq, Url.parseTail_form (Url.encodeChars_chars given),
      Option.map_some, hq]

/-- What the URL of a request on a document is: that of the node, with three segments behind its own
that stand for the names, and the parameters. -/
structure Names (u : Url) (own : List (List Char)) (params : Option Url.Params)
    (index docType id : String) (url : Url) : Prop where
  scheme : url.scheme = u.scheme
  authority : url.authority = u.authority
  path : ∃ a b c, url.path = .segments (own ++ [a, b, c]) ∧
    Utf8.decode? (Url.decodeText a) = some index ∧ Utf8.decode? (Url.decodeText b) = some docType ∧
    Utf8.decode? (Url.decodeText c) = some id
  query : url.query = (queryOf params).map String.toList
  fragment : url.fragment = none

/-- The segments of a path without the last one if that is empty. Behind a backslash, which is a
slash of the URL's own, it stays. -/
def ownSegments (base : String) (path : List (List Char)) : List (List Char) :=
  if path.getLast? = some [] ∧ base.toList.getLast? ≠ some '\\' then path.dropLast else path

/-- The segments of a node's own, from the URL as it is kept and as it is read. -/
def Owns (base : String) (u : Url) (own : List (List Char)) : Prop :=
  ∃ path, u.path = .segments path ∧ own = ownSegments base path

theorem owns_of_isOwn {raw base : String} {u : Url} {own : List (List Char)}
    (hkept : normalizeHost raw = .ok base) (hown : Url.IsOwn base.toList u own) :
    Owns base u own := by
  by_cases hback : base.toList.getLast? = some '\\'
  · exact ⟨own, hown.path_of_ends_slash _ hback rfl, (if_neg fun h => h.2 hback).symm⟩
  · have hlast : ∀ c, base.toList.getLast? = some c → Url.isSlash .special c = false := by
      intro c hc
      have hne : c ≠ '/' := fun h => normalizeHost_not_slash hkept (h ▸ hc)
      have hne' : c ≠ '\\' := fun h => hback (h ▸ hc)
      simp [Url.isSlash, hne, hne']
    rcases hown.path with hpath | hpath
    · refine ⟨own, hpath, (if_neg fun h => ?_).symm⟩
      have hlonger := hpath.symm.trans (hown.path_of_ends_empty hlast h.1)
      simp at hlonger
    · refine ⟨_, hpath, ?_⟩
      rw [ownSegments, if_pos ⟨List.getLast?_concat, hback⟩, List.dropLast_concat]

/-- Names behind the URL of a node become segments behind its own. -/
theorem target_segments {base : String} {u : Url} {own : List (List Char)}
    (hextended : Url.Continues base.toList u own)
    {names : List String} (hne : names ≠ []) (hnames : ∀ name ∈ names, IsName name) {path : String}
    (hpath : path.toList = names.flatMap fun name => '/' :: Url.encodeSegment name)
    (params : Option Url.Params) :
    target base path (queryOf params) = .ok { u with
      path := .segments (own ++ names.map Url.encodeSegment)
      query := (queryOf params).map String.toList
      fragment := none } := by
  have hsegs : ∀ seg ∈ names.map Url.encodeSegment,
      (∀ c ∈ seg, Url.isSegmentChar c = true) ∧ Url.IsStep seg := by
    rw [List.forall_mem_map]
    exact fun name hname => ⟨Url.encodeSegment_chars name,
      Url.encodeSegment_step (hnames name hname).ne_dot (hnames name hname).ne_dots⟩
  have hok := hextended _ _ (by simpa using hne) hsegs (queryTail_plain params) (queryTail_stops _)
  rw [parseTail_queryTail, List.flatMap_map, ← hpath] at hok
  exact target_eq_ok.mpr hok

theorem target_names {base : String} (hbase : IsPlainHost base) :
    ∃ u own, Url.parse base = .ok u ∧ Owns base u own ∧
      ∀ index docType id params, IsName index → IsName docType → IsName id →
        ∃ url, target base (Url.documentPath index docType id) (queryOf params) = .ok url ∧
          Names u own params index docType id url := by
  obtain ⟨raw, hraw⟩ := hbase.kept
  obtain ⟨u, -, hparse, hweb, -⟩ := parse_normalizeHost hraw
  obtain ⟨hquery, hfragment⟩ := hbase.bare u hparse
  obtain ⟨own, hown, hextended⟩ :=
    Url.parseChars_extended hparse (special_of_isWeb hweb) hquery hfragment hbase.ends
  refine ⟨u, own, hparse, owns_of_isOwn hraw hown, fun index docType id params hindex htype hid => ?_⟩
  have hnames : ∀ name ∈ [index, docType, id], IsName name :=
    List.forall_mem_cons.mpr ⟨hindex, List.forall_mem_cons.mpr
      ⟨htype, List.forall_mem_singleton.mpr hid⟩⟩
  have htarget := target_segments hextended (List.cons_ne_nil _ _) hnames
    (documentPath_names htype hid) params
  have hdecode (name : String) :
      Utf8.decode? (Url.decodeText (Url.encodeSegment name)) = some name := by
    rw [Url.decodeText_encodeSegment, Utf8.decode?_encode]
  exact ⟨_, htarget, rfl, rfl, ⟨_, _, _, rfl, hdecode index, hdecode docType, hdecode id⟩, rfl, rfl⟩

/-! ## What is sent -/

section

variable {c : Client} {call : Call} {s : Session}

/-- A request goes to its URL, without user name and password if that carries them. -/
theorem make_url (method : String) (url : Url) (credentials : Option Credentials)
    (body : Option Bytes) :
    (Http.Request.make method url credentials body).url = url.withoutUserinfo ∨
      (Http.Request.make method url credentials body).url = url := by
  simp only [Http.Request.make]
  split
  · exact .inl rfl
  · exact .inr rfl

/-- Everything that a request sends goes to a connection of the pool, at the URL composed there. -/
theorem requestAs_sent (c : Client) (world : World) (op : Operation) (method path : String)
    (params : Option Url.Params) (body : Option Body) (s : Session) :
    ∀ x ∈ (c.requestAs world op method path params body s).2.sentSince s,
      x.connection ∈ s.pool.connections ∧
        target x.connection.url path (queryOf params) = .ok x.url ∧
        (x.request.url = x.url.withoutUserinfo ∨ x.request.url = x.url) := by
  intro x hx
  cases hbody : payloadOf body with
  | error e =>
    rw [(requestAs_unencodable hbody).2.sentSince_eq] at hx
    cases hx
  | ok payload =>
    obtain ⟨hist, hran, hcourse, -⟩ :
        c.Goes world ⟨op, method, path, queryOf params, payload⟩ c.maxRetries none s
          (c.requestAs world op method path params body s) := requestAs_course hbody
    rw [hran.sentSince_eq] at hx
    obtain ⟨htarget, hmade⟩ := hcourse.makes x hx
    refine ⟨Pool.replay_taken_mem hran.pool ?_, htarget, ?_⟩
    · obtain ⟨attempt, hattempt, hx⟩ := List.mem_flatMap.mp hx
      refine List.mem_flatMap.mpr ⟨attempt, hattempt, ?_⟩
      cases attempt with
      | completed y | interrupted y =>
        obtain rfl := List.mem_singleton.mp hx
        exact List.mem_cons_self
      | unsent d => cases hx
    · rw [hmade.request_eq]
      exact make_url _ _ _ _

/-- To read an answer sends nothing more. -/
theorem reading_sent {α : Type} (c : Client) (world : World) (op : Operation)
    (method path : String) (params : Option Url.Params) (body : Option Body) (s : Session)
    (read : Bytes → Except RequestError α) :
    (c.reading world op method read (c.requestAs world op method path params body s)).2.sentSince s =
      (c.requestAs world op method path params body s).2.sentSince s := by
  generalize c.requestAs world op method path params body s = r
  obtain ⟨r, s'⟩ := r
  cases r with
  | error e => rfl
  | ok bytes =>
    simp only [reading]
    split <;> rfl

end

/-- **Names cannot leave their segments.** The nodes have URLs that end in no control and no space,
and have neither a query nor a fragment; index, type and id are not empty, and none is one dot or
two. Then each node can be asked to store or to delete the document, and what is sent goes to a path
of three segments behind the node's own that stand for the names, with the parameters as its
query. -/
theorem documents_keep_path (c : Client) (world : World) (index docType id : String)
    (params : Option Url.Params) (body : Body) (s : Session) (hindex : IsName index)
    (htype : IsName docType) (hid : IsName id)
    (hpool : ∀ d ∈ s.pool.connections, IsPlainHost d.url) :
    (∀ d ∈ s.pool.connections,
      ∃ url, target d.url (Url.documentPath index docType id) (queryOf params) = .ok url) ∧
    ∀ x ∈ (c.index world index docType id params body s).2.sentSince s ++
        (c.delete world index docType id params s).2.sentSince s,
      ∃ u own, Url.parse x.connection.url = .ok u ∧ Owns x.connection.url u own ∧
        Names u own params index docType id x.url ∧ x.request.url.path = x.url.path := by
  constructor
  · intro d hd
    obtain ⟨u, own, -, -, hnames⟩ := target_names (hpool d hd)
    obtain ⟨url, htarget, -⟩ := hnames index docType id params hindex htype hid
    exact ⟨url, htarget⟩
  · intro x hx
    obtain ⟨hconn, htarget, hpath⟩ : x.connection ∈ s.pool.connections ∧
        target x.connection.url (Url.documentPath index docType id) (queryOf params) = .ok x.url ∧
        (x.request.url = x.url.withoutUserinfo ∨ x.request.url = x.url) := by
      rcases List.mem_append.mp hx with hx | hx
      · exact requestAs_sent c world .index _ _ params _ (s.log _) x
          (reading_sent c world .index _ _ params _ (s.log _) _ ▸ hx)
      · exact requestAs_sent c world .delete _ _ params _ (s.log _) x
          (reading_sent c world .delete _ _ params _ (s.log _) _ ▸ hx)
    obtain ⟨u, own, hparse, hown, hnames⟩ := target_names (hpool _ hconn)
    obtain ⟨url, hurl, hspec⟩ := hnames index docType id params hindex htype hid
    obtain rfl : url = x.url := Except.ok.inj (hurl.symm.trans htarget)
    refine ⟨u, own, hparse, hown, hspec, ?_⟩
    rcases hpath with hpath | hpath <;> rw [hpath]
    rfl

/-- A type with a slash in it, and an id that looks like an encoded dot: both keep to their
segments. -/
theorem documents_keep_path_odd :
    let s := Session.start.setConnections ["http://es1:9200/a"] none
    let sent := (patient.delete .down "logs" "a/b" "%2e" none s).2.sentSince s
    IsName "logs" ∧ IsName "a/b" ∧ IsName "%2e" ∧
      (∀ d ∈ s.pool.connections, IsPlainHost d.url) ∧ sent.length = 3 ∧
      ∀ x ∈ sent, ∃ u own, Owns x.connection.url u own ∧ Names u own none "logs" "a/b" "%2e" x.url := by
  intro s sent
  have hindex : IsName "logs" := ⟨by decide, by decide, by decide⟩
  have htype : IsName "a/b" := ⟨by decide, by decide, by decide⟩
  have hid : IsName "%2e" := ⟨by decide, by decide, by decide⟩
  have hkept : (normalizeHost "http://es1:9200/a/").toOption = some "http://es1:9200/a" := by
    decide +kernel
  have hbare : (Url.parse "http://es1:9200/a").toOption.map (fun u => (u.query, u.fragment)) =
      some (none, none) := by
    decide +kernel
  have hhost : IsPlainHost "http://es1:9200/a" := by
    refine ⟨⟨_, ok_of_toOption hkept⟩, ?_, fun u hu => ?_⟩
    · rintro c ⟨⟩
      rfl
    · rw [hu] at hbare
      exact Prod.mk.inj (Option.some.inj hbare)
  have hpool : ∀ d ∈ s.pool.connections, IsPlainHost d.url := by
    intro d hd
    obtain rfl : d = ⟨0, "http://es1:9200/a", none⟩ := List.mem_singleton.mp hd
    exact hhost
  refine ⟨hindex, htype, hid, hpool, by decide +kernel, fun x hx => ?_⟩
  obtain ⟨u, own, -, hown, hnames, -⟩ :=
    (documents_keep_path patient .down "logs" "a/b" "%2e" none (.json .null) s hindex htype hid
      hpool).2 x (List.mem_append_right _ hx)
  exact ⟨u, own, hown, hnames⟩

/-- The id of two dots takes the type out of the path: what is deleted is no document. -/
theorem dots_leave_path :
    let s := Session.start.setConnections ["http://es1:9200"] none
    let r := patient.delete ⟨.scripted [.answer 200 (Utf8.encode "\x7b\"found\":true\x7d") none true],
      fun _ => false⟩ "logs" "_doc" ".." none s
    (normalizeHost "http://es1:9200").toOption = some "http://es1:9200" ∧
      (r.2.sentSince s).map (·.request.url.path) = [.segments ["logs".toList, []]] := by
  decide +kernel

/-- A control at the end of a node's URL is dropped when the URL is read alone, and becomes part of
its last segment when a path stands behind it. -/
example :
    (Url.parse "http://es1:9200/a\x01").toOption.map (·.path) = some (.segments ["a".toList]) ∧
      (target "http://es1:9200/a\x01" (Url.documentPath "logs" "_doc" "1") none).toOption.map (·.path) =
        some (.segments ["a%01".toList, "logs".toList, "_doc".toList, "1".toList]) := by
  decide +kernel

end Client

end ClusterOutput
