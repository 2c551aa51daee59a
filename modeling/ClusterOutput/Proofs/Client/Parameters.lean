/-
What becomes of the parameters of a request. They are the query of every URL that
is requested, and nothing else is: read as a form, it gives back just the names and
values of the map, in ascending order (`params_arrive`). The URL is otherwise the
one without parameters.

It is not where connection URL and path end in a control or a space: without a
query the URL ends there too and these are dropped, and before a query they stand
within the path (`space_before_query`).
-/
import ClusterOutput.Proofs.Client.Naming
import ClusterOutput.Proofs.Url.Form
import ClusterOutput.Proofs.Url.Query

namespace ClusterOutput

namespace Url

/-- The URL has the parameters as its query, and none if there are none. -/
structure Carries (url : Url) (params : Params) : Prop where
  query : url.query = if params = [] then none else some params.encode.toList
  entries : formEntries (url.query.getD []) = params
  fragment : url.fragment = none

theorem Carries.withoutUserinfo {url : Url} {params : Params} (h : url.Carries params) :
    url.withoutUserinfo.Carries params := ⟨h.query, h.entries, h.fragment⟩

theorem carries_of_query {url : Url} {params : Params}
    (hquery : url.query = if params = [] then none else some params.encode.toList)
    (hfragment : url.fragment = none) : url.Carries params := by
  refine ⟨hquery, ?_, hfragment⟩
  rw [hquery]
  split
  next hempty =>
    rw [hempty]
    rfl
  next => rw [Option.getD_some, Params.encode, String.toList_ofList, formEntries_encodeChars]

end Url

namespace Client

variable {base path : String} {params : Option Url.Params} {url : Url}

/-- The text of a target before its query. -/
def targetText (base path : String) : List Char := base.toList ++ path.toList

theorem queryOf_eq (params : Option Url.Params) :
    queryOf params = if params.getD [] = [] then none else some (params.getD []).encode := by
  rcases params with _ | _ | ⟨p, params⟩ <;> rfl

theorem isForm_encode (params : Url.Params) : Url.IsForm params.encode.toList := by
  rw [Url.Params.encode, String.toList_ofList]
  exact Url.encodeChars_chars params

/-- A target carries its parameters. -/
theorem target_carries (hbare : Url.IsBare (targetText base path))
    (h : target base path (queryOf params) = .ok url) : url.Carries (params.getD []) := by
  rw [target_eq_ok, queryOf_eq] at h
  split at h
  next hempty =>
    rw [queryTail, List.append_nil] at h
    obtain ⟨hquery, hfragment⟩ := Url.parseChars_bare hbare h
    exact Url.carries_of_query (by rw [hquery, if_pos hempty]) hfragment
  next hsome =>
    obtain ⟨hquery, hfragment⟩ := (Url.parseChars_query hbare (isForm_encode _)).1 url h
    exact Url.carries_of_query (by rw [hquery, if_neg hsome]) hfragment

/-- A target is otherwise the one without parameters. -/
theorem target_otherwise (hbare : Url.IsBare (targetText base path))
    (hends : Url.EndsVisibly (targetText base path))
    (h : target base path (queryOf params) = .ok url) :
    ∃ plain, target base path none = .ok plain ∧ url = { plain with query := url.query } := by
  rw [target_eq_ok, queryOf_eq] at h
  split at h
  next => exact ⟨url, target_eq_ok.mpr h, rfl⟩
  next =>
    obtain ⟨plain, hplain, rfl⟩ :=
      ((Url.parseChars_query hbare (isForm_encode _)).2 hends).1 url h
    exact ⟨plain, target_eq_ok.mpr (by rwa [queryTail, List.append_nil]), rfl⟩

/-- Parameters make no target invalid. -/
theorem target_exists (hbare : Url.IsBare (targetText base path))
    (hends : Url.EndsVisibly (targetText base path)) {plain : Url}
    (h : target base path none = .ok plain) (hhost : plain.host?.isSome = true)
    (params : Option Url.Params) : ∃ url, target base path (queryOf params) = .ok url := by
  rw [queryOf_eq]
  split
  next => exact ⟨plain, h⟩
  next =>
    rw [target_eq_ok, queryTail, List.append_nil] at h
    exact ⟨_, target_eq_ok.mpr
      (((Url.parseChars_query hbare (isForm_encode _)).2 hends).2 plain h hhost)⟩

/-- **Parameters arrive as they are.** Where neither connection URL nor path has a question mark or a
number sign, every URL that a request sends has the encoded parameters as its query, none if there
are no parameters, and no fragment; read as a form the query gives back just the parameters. If URL
and path do not end in a control or a space, the URL is otherwise the one without parameters, and
parameters make none invalid that names a host. Different parameters are encoded differently, and
those of a map ascend, with the last value of each name. -/
theorem params_arrive (c : Client) (world : World) (op : Operation) (method path : String)
    (params : Option Url.Params) (body : Option Body) (s : Session) :
    (∀ x ∈ (c.requestAs world op method path params body s).2.sentSince s,
      Url.IsBare (targetText x.connection.url path) →
        x.request.url.Carries (params.getD []) ∧
        (Url.EndsVisibly (targetText x.connection.url path) →
          ∃ plain, target x.connection.url path none = .ok plain ∧
            x.url = { plain with query := x.url.query } ∧ x.request.url.path = plain.path)) ∧
    (∀ base plain, Url.IsBare (targetText base path) → Url.EndsVisibly (targetText base path) →
      target base path none = .ok plain → plain.host?.isSome = true →
        ∃ url, target base path (queryOf params) = .ok url) ∧
    (∀ given : Url.Params, Url.formEntries given.encode.toList = given) ∧
    Function.Injective Url.Params.encode ∧
    ∀ pairs, (Url.Params.ofList pairs).Ascends ∧
      ∀ p, p ∈ Url.Params.ofList pairs ↔ pairs.reverse.find? (·.1 = p.1) = some p := by
  refine ⟨fun x hx hbare => ?_, fun base plain hbare hends h hhost =>
    target_exists hbare hends h hhost params, fun given => ?_, Url.encode_injective,
    fun pairs => ⟨Url.Params.ofList_ascends pairs, fun p => Url.Params.mem_ofList⟩⟩
  · obtain ⟨-, htarget, hsent⟩ := requestAs_sent c world op method path params body s x hx
    have hcarries := target_carries hbare htarget
    refine ⟨?_, fun hends => ?_⟩
    · rcases hsent with hsent | hsent <;> rw [hsent]
      · exact hcarries.withoutUserinfo
      · exact hcarries
    · obtain ⟨plain, hplain, hurl⟩ := target_otherwise hbare hends htarget
      refine ⟨plain, hplain, hurl, ?_⟩
      have hpath : x.url.path = plain.path := by rw [hurl]
      rcases hsent with hsent | hsent <;> rw [hsent]
      · exact hpath
      · exact hpath
  · rw [Url.Params.encode, String.toList_ofList, Url.formEntries_encodeChars]

/-- A search by parameters that need encoding, one of them without a name. -/
theorem params_arrive_odd :
    let s := Session.start.setConnections ["http://es1:9200/a"] none
    let params := Url.Params.ofList [("z é", "&=%+"), ("", ""), ("a", "1"), ("a", "x y")]
    let sent := (patient.request .down "GET" "/logs/_search" (some params) none s).2.sentSince s
    params = [("", ""), ("a", "x y"), ("z é", "&=%+")] ∧ sent.length = 3 ∧
      sent.map (·.request.url.query) =
        List.replicate 3 (some "=&a=x+y&z+%C3%A9=%26%3D%25%2B".toList) ∧
      ∀ x ∈ sent, x.request.url.Carries params ∧
        ∃ plain, target "http://es1:9200/a" "/logs/_search" none = .ok plain ∧
          x.url = { plain with query := x.url.query } ∧ x.request.url.path = plain.path := by
  intro s params sent
  have hbare : Url.IsBare (targetText "http://es1:9200/a" "/logs/_search") := by decide +kernel
  have hlast : ((targetText "http://es1:9200/a" "/logs/_search").filter
      (!Url.isTabOrNewline ·)).getLast? = some 'h' := by
    decide +kernel
  have hends : Url.EndsVisibly (targetText "http://es1:9200/a" "/logs/_search") := by
    intro c hc
    obtain rfl := Option.some.inj (hlast.symm.trans hc)
    rfl
  have hquery : sent.map (·.request.url.query) =
      List.replicate 3 (some "=&a=x+y&z+%C3%A9=%26%3D%25%2B".toList) := by
    decide +kernel
  have hlength : sent.length = 3 := by
    rw [← List.length_map, hquery, List.length_replicate]
  refine ⟨by decide +kernel, hlength, hquery, fun x hx => ?_⟩
  have hconn : ∀ d ∈ s.pool.connections, d.url = "http://es1:9200/a" := by decide
  have hurl := hconn _ (requestAs_sent patient .down .request "GET" _ (some params) none s x hx).1
  have harrive :=
    (params_arrive patient .down .request "GET" "/logs/_search" (some params) none s).1 x hx
  rw [hurl] at harrive
  obtain ⟨hcarries, hotherwise⟩ := harrive hbare
  exact ⟨hcarries, hotherwise hends⟩

/-- A path that ends in a space is another where a query stands behind it. -/
theorem space_before_query :
    let s := Session.start.setConnections ["http://es1:9200"] none
    let world : World := ⟨.scripted [.answer 200 [0x7b, 0x7d] none true], fun _ => false⟩
    let sent (params : Option Url.Params) :=
      ((patient.request world "GET" "/logs " params none s).2.sentSince s).map fun x =>
        (x.request.url.path, x.request.url.query)
    Url.IsBare (targetText "http://es1:9200" "/logs ") ∧
      sent none = [(.segments ["logs".toList], none)] ∧
      sent (some [("q", "x")]) = [(.segments ["logs%20".toList], some "q=x".toList)] := by
  decide +kernel

end Client

end ClusterOutput
