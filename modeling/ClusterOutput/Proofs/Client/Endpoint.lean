/-
What an accepted URL of a node is good for. Requests go to its scheme, host and
port, with their path behind its own and their query alone (`endpoint_usable`), if
the text that is kept of it

- ends in no control, no space and no backslash,
- has neither a query nor a fragment, and
- has a path that does not end in two slashes.

Acceptance looks at the scheme and the host only, while the URL of a request is
composed as text. So a node is accepted and cannot be used where one of these
fails: its query swallows the path (`query_swallows_path`).
-/
import ClusterOutput.Proofs.Client.Naming

namespace ClusterOutput

/-- A URL that is accepted for a node, and the text that is kept of it, behind which paths can
stand. -/
structure IsEndpoint (raw base : String) : Prop where
  kept : normalizeHost raw = .ok base
  ends : Url.EndsPlain base.toList
  no_backslash : base.toList.getLast? ≠ some '\\'
  bare : ∀ u, Url.parse base = .ok u → u.query = none ∧ u.fragment = none
  single : ∀ u own, Url.parse base = .ok u → u.path ≠ .segments (own ++ [[], []])

/-- The text of a path without the slashes at its end. -/
def Url.Path.trimmed (p : Url.Path) : List Char := Text.trimEndBy (· == '/') p.chars

/-- A URL is another's, with a path behind the path of that, and a query. -/
structure Url.Joins (u : Url) (path : String) (query : Option String) (url : Url) : Prop where
  scheme : url.scheme = u.scheme
  host : url.host? = u.host?
  port : url.effectivePort = u.effectivePort
  path : url.path.chars = u.path.trimmed ++ path.toList
  query : url.query = query.map String.toList
  fragment : url.fragment = none

/-! ## Slashes at the end of a path -/

namespace Url

variable {own : List (List Char)}

/-- Segments without slashes, the last of them not empty, have a text that ends in no slash. -/
theorem getLast?_slashed (hslash : ∀ seg ∈ own, '/' ∉ seg) (hlast : own.getLast? ≠ some []) :
    ∀ c, (own.flatMap ('/' :: ·)).getLast? = some c → (c == '/') = false := by
  intro c hc
  rcases List.eq_nil_or_concat own with rfl | ⟨front, seg, rfl⟩
  · cases hc
  rw [List.concat_eq_append] at hslash hlast hc
  rw [List.getLast?_concat] at hlast
  rcases List.eq_nil_or_concat seg with rfl | ⟨cs, d, rfl⟩
  · exact absurd rfl hlast
  rw [List.concat_eq_append] at hslash hc
  rw [List.flatMap_append, List.flatMap_singleton, ← List.cons_append, ← List.append_assoc,
    List.getLast?_concat] at hc
  obtain rfl := Option.some.inj hc
  rw [beq_eq_false_iff_ne]
  rintro rfl
  exact hslash (cs ++ ['/']) (by simp) (by simp)

theorem flatMap_empty (n : Nat) :
    (List.replicate n []).flatMap ('/' :: ·) = List.replicate n '/' := by
  induction n with
  | zero => rfl
  | succ n ih => rw [List.replicate_succ, List.flatMap_cons, ih]; rfl

/-- Empty segments at the end of a path are the slashes there. -/
theorem trimmed_segments (hslash : ∀ seg ∈ own, '/' ∉ seg) (hlast : own.getLast? ≠ some [])
    (n : Nat) : (Path.segments (own ++ List.replicate n [])).trimmed = own.flatMap ('/' :: ·) := by
  rw [Path.trimmed, Path.chars, List.flatMap_append, flatMap_empty]
  induction n with
  | zero =>
    rw [List.replicate_zero, List.append_nil]
    exact trimEndBy_eq_self (getLast?_slashed hslash hlast)
  | succ n ih =>
    rw [List.replicate_succ', ← List.append_assoc]
    exact (List.rdropWhile_concat_pos _ _ _ rfl).trans ih

theorem isStep_nil : IsStep [] := ⟨rfl, rfl, rfl⟩

/-- Slashes behind a URL are as many empty segments more. -/
theorem Continues.slashed {cs : List Char} {u : Url} (h : Continues cs u own) {n : Nat}
    (hn : n ≠ 0) : parseChars (cs ++ List.replicate n '/') =
      .ok { u with
        path := .segments (own ++ List.replicate n []), query := none, fragment := none } := by
  have hsegs : ∀ seg ∈ List.replicate n [], (∀ c ∈ seg, isSegmentChar c = true) ∧ IsStep seg := by
    intro seg hseg
    rw [List.eq_of_mem_replicate hseg]
    exact ⟨List.forall_mem_nil _, isStep_nil⟩
  have hok := h _ [] (by simpa using hn) hsegs (List.forall_mem_nil _) nofun
  rwa [List.append_nil, flatMap_empty] at hok

end Url

/-! ## The URL as it is kept and as it was given -/

theorem IsEndpoint.plain {raw base : String} (h : IsEndpoint raw base) : IsPlainHost base :=
  ⟨⟨raw, h.kept⟩, h.ends, h.bare⟩

theorem IsEndpoint.not_slash {raw base : String} (h : IsEndpoint raw base) :
    ∀ c, base.toList.getLast? = some c → Url.isSlash .special c = false := by
  intro c hc
  have hne : c ≠ '/' := fun hslash => normalizeHost_not_slash h.kept (hslash ▸ hc)
  have hback : c ≠ '\\' := fun hslash => h.no_backslash (hslash ▸ hc)
  simp [Url.isSlash, hne, hback]

/-- The segments that paths stand behind are those of the URL that was given, without the empty
ones at the end. -/
theorem IsEndpoint.own {raw base : String} (h : IsEndpoint raw base) :
    ∃ u v own, Url.parse (Text.trim raw) = .ok u ∧ v.scheme = u.scheme ∧
      v.authority = u.authority ∧ u.path.trimmed = own.flatMap ('/' :: ·) ∧
      Url.Continues base.toList v own := by
  obtain ⟨v, u, hv, hweb, hu, hscheme, hauthority⟩ := parse_normalizeHost h.kept
  obtain ⟨hquery, hfragment⟩ := h.bare v hv
  obtain ⟨own, hown, hextended⟩ :=
    Url.parseChars_extended hv (special_of_isWeb hweb) hquery hfragment h.ends
  have hlast : own.getLast? ≠ some [] := by
    intro hempty
    have hpath := hown.path_of_ends_empty h.not_slash hempty
    obtain ⟨front, hfront⟩ := List.getLast?_eq_some_iff.mp hempty
    refine h.single v front hv ?_
    rw [hpath, hfront, List.append_assoc]
    rfl
  refine ⟨u, v, own, hu, hscheme, hauthority, ?_, hextended⟩
  obtain ⟨slashes, htext, hslashes⟩ := normalizeHost_slashed h.kept
  rw [Url.parse, htext, List.eq_replicate_of_mem hslashes] at hu
  by_cases hn : slashes.length = 0
  · rw [hn, List.replicate_zero, List.append_nil] at hu
    obtain rfl := Except.ok.inj (hv.symm.trans hu)
    rcases hown.path with hpath | hpath <;> rw [hpath]
    · simpa using Url.trimmed_segments hown.slash_not_mem hlast 0
    · exact Url.trimmed_segments hown.slash_not_mem hlast 1
  · rw [hextended.slashed hn] at hu
    rw [← Except.ok.inj hu]
    exact Url.trimmed_segments hown.slash_not_mem hlast _

/-! ## Requests -/

theorem Url.Joins.withoutUserinfo {u url : Url} {path : String} {query : Option String}
    (h : u.Joins path query url) : u.Joins path query url.withoutUserinfo where
  scheme := h.scheme
  host := by
    rw [← h.host]
    cases ha : url.authority <;> simp [Url.host?, Url.withoutUserinfo, ha]
  port := by
    rw [← h.port]
    cases ha : url.authority <;> simp [Url.effectivePort, Url.withoutUserinfo, ha]
  path := h.path
  query := h.query
  fragment := h.fragment

namespace Client

theorem target_joins {raw base : String} (h : IsEndpoint raw base) :
    ∃ u, Url.parse (Text.trim raw) = .ok u ∧
      ∀ index docType id params, (∀ name ∈ Url.components index docType id, IsName name) →
        ∃ url, target base (Url.documentPath index docType id) (queryOf params) = .ok url ∧
          u.Joins (Url.documentPath index docType id) (queryOf params) url := by
  obtain ⟨u, v, own, hu, hscheme, hauthority, htrimmed, hextended⟩ := h.own
  refine ⟨u, hu, fun index docType id params hnames => ?_⟩
  have hpath : (Url.documentPath index docType id).toList =
      (Url.components index docType id).flatMap fun name => '/' :: Url.encodeSegment name :=
    String.toList_ofList
  have htarget :=
    target_segments hextended (Url.components_ne_nil index docType id) hnames hpath params
  refine ⟨_, htarget, hscheme, ?_, ?_, ?_, rfl, rfl⟩
  · rw [Url.host?, Url.host?, hauthority]
  · rw [Url.effectivePort, Url.effectivePort, hauthority, hscheme]
  · rw [Url.Path.chars, List.flatMap_append, List.flatMap_map, htrimmed, hpath]

/-- **An endpoint is usable.** A URL was accepted for a node, and what is kept of it ends in no
control, space or backslash, has neither a query nor a fragment, and no path that ends in two
slashes. Then each path of names can be requested there, with any parameters: every attempt goes to
scheme, host and port of the URL that was given, with the path behind its own and exactly the
parameters as query. -/
theorem endpoint_usable (raw base : String) (h : IsEndpoint raw base) :
    ∃ u, Url.parse (Text.trim raw) = .ok u ∧
      ∀ (index docType id : String) (params : Option Url.Params),
        (∀ name ∈ Url.components index docType id, IsName name) →
        (∃ url, target base (Url.documentPath index docType id) (queryOf params) = .ok url) ∧
        ∀ (c : Client) (world : World) (op : Operation) (method : String) (body : Option Body)
          (s : Session),
          ∀ x ∈ (c.requestAs world op method (Url.documentPath index docType id) params body
              s).2.sentSince s, x.connection.url = base →
            u.Joins (Url.documentPath index docType id) (queryOf params) x.url ∧
              u.Joins (Url.documentPath index docType id) (queryOf params) x.request.url := by
  obtain ⟨u, hu, hjoins⟩ := target_joins h
  refine ⟨u, hu, fun index docType id params hnames => ?_⟩
  obtain ⟨url, htarget, hurl⟩ := hjoins index docType id params hnames
  refine ⟨⟨url, htarget⟩, fun c world op method body s x hx hbase => ?_⟩
  obtain ⟨-, hsent, hrequest⟩ := requestAs_sent c world op method _ params body s x hx
  rw [hbase] at hsent
  obtain rfl : url = x.url := Except.ok.inj (htarget.symm.trans hsent)
  refine ⟨hurl, ?_⟩
  rcases hrequest with hrequest | hrequest <;> rw [hrequest]
  · exact hurl.withoutUserinfo
  · exact hurl

/-- A node with a path and two slashes at the end is searched with a parameter, in vain. -/
theorem endpoint_usable_slashed :
    let path := Url.documentPath "logs" "" "_search"
    let s := Session.start.setConnections ["http://es1:9200/a"] none
    let sent := (patient.request .down "GET" path (some [("q", "x y")]) none s).2.sentSince s
    IsEndpoint " http://es1:9200/a// " "http://es1:9200/a" ∧ sent.length = 3 ∧
      ∃ u, Url.parse (Text.trim " http://es1:9200/a// ") = .ok u ∧
        ∀ x ∈ sent, u.Joins path (some "q=x+y") x.url := by
  intro path s sent
  have hkept : (normalizeHost " http://es1:9200/a// ").toOption = some "http://es1:9200/a" := by
    decide +kernel
  have hparts (u : Url) (hu : Url.parse "http://es1:9200/a" = .ok u) :
      (u.query = none ∧ u.fragment = none) ∧ u.path = .segments ["a".toList] := by
    have hall : (Url.parse "http://es1:9200/a").toOption.map
        (fun u => decide ((u.query = none ∧ u.fragment = none) ∧
          u.path = .segments ["a".toList])) = some true := by
      decide +kernel
    rw [hu] at hall
    exact of_decide_eq_true (Option.some.inj hall)
  have hbase : IsEndpoint " http://es1:9200/a// " "http://es1:9200/a" := by
    refine ⟨ok_of_toOption hkept, ?_, by decide, fun u hu => (hparts u hu).1,
      fun u own hu hpath => ?_⟩
    · rintro c ⟨⟩
      rfl
    · rw [(hparts u hu).2, Url.Path.segments.injEq] at hpath
      have hlength := congrArg List.length hpath
      simp at hlength
  obtain ⟨u, hu, husable⟩ := endpoint_usable _ _ hbase
  obtain ⟨-, hsent⟩ := husable "logs" "" "_search" (some [("q", "x y")]) (by
    rw [show Url.components "logs" "" "_search" = ["logs", "_search"] by decide]
    exact List.forall_mem_cons.mpr ⟨⟨by decide, by decide, by decide⟩,
      List.forall_mem_singleton.mpr ⟨by decide, by decide, by decide⟩⟩)
  refine ⟨hbase, by decide +kernel, u, hu, fun x hx => ?_⟩
  have hconn : ∀ d ∈ s.pool.connections, d.url = "http://es1:9200/a" := by decide
  have hmem :=
    (requestAs_sent patient .down .request "GET" path (some [("q", "x y")]) none s x hx).1
  exact (hsent patient .down .request "GET" none s x hx (hconn _ hmem)).1

/-- A query in the URL of a node takes in the path of every request: what is deleted is no
document. -/
theorem query_swallows_path :
    let s := Session.start.setConnections ["http://es1:9200/?a=b"] none
    let r := patient.delete ⟨.scripted [.answer 200 (Utf8.encode "\x7b\"found\":true\x7d") none true],
      fun _ => false⟩ "logs" "_doc" "1" none s
    (normalizeHost "http://es1:9200/?a=b").toOption = some "http://es1:9200/?a=b" ∧
      (r.2.sentSince s).map (fun x => (x.request.url.path, x.request.url.query)) =
        [(.segments [[]], some "a=b/logs/_doc/1".toList)] := by
  decide +kernel

/-- A backslash at the end of a node's URL, or a path of its own that ends in two slashes, puts an
empty segment before the path of a request. -/
example :
    let path (raw : String) := (normalizeHost raw).toOption.bind fun base =>
      (target base "/logs" none).toOption.map (·.path)
    path "http://es1:9200\\" = some (.segments [[], "logs".toList]) ∧
      path "http://es1:9200//a/.." = some (.segments [[], "logs".toList]) := by
  decide +kernel

end Client

end ClusterOutput
