/-
Requests one after another on steady connections: the traffic settles on the
good ones. Each bad connection is attempted once at most in the whole series
(`serve_settles`), so that few requests fail, and none any more once all bad
connections are known.
-/
import ClusterOutput.Proofs.Client.Series
import ClusterOutput.Proofs.Pool.Settled

namespace ClusterOutput

variable {good : Connection → Bool} {asks : List Ask} {a : Ask} {world : World} {s s' : Session}
  {sent : List Exchange} {result : Except RequestError Bytes}

/-! ## One request -/

/-- Attempts on steady connections, as the pool sees them. -/
theorem steps_rounds (h : ∀ x ∈ sent, x.reply.fails = !good x.connection) :
    (sent.map Attempt.completed).flatMap Attempt.steps =
      Pool.rounds good (sent.map (·.connection)) := by
  rw [Pool.rounds, List.flatMap_map, List.flatMap_map]
  refine List.flatMap_congr fun x hx => ?_
  cases hgood : good x.connection <;> simp [Attempt.steps, Exchange.mark, h x hx, hgood]

/-- The connection of the first attempt is the first that the pool hands out. -/
theorem Session.Ran.takes {x : Exchange}
    (h : s.Ran world ((x :: sent).map .completed) s') : ∃ q, s.pool.Takes x.connection q := by
  have hpool := h.pool
  rw [List.map_cons, List.flatMap_cons, Attempt.steps, List.cons_append] at hpool
  obtain ⟨q, hq, -⟩ := Pool.replay_cons.mp hpool
  exact ⟨q, Pool.takes_of_take? (Pool.follow_taken.mp hq)⟩

/-- A request that fails has spent all its attempts on bad connections. -/
theorem Served.spent_le (h : Served good a sent result) (herr : result.isOk = false) :
    a.client.maxRetries ≤ (sent.map (·.connection)).countP fun c => !good c := by
  cases h with
  | answered => cases herr
  | exhausted hfailed hlen =>
    have hall : ∀ c ∈ sent.map (·.connection), (!good c) = true := by simpa using hfailed
    rw [List.countP_eq_length.mpr hall, List.length_map, hlen]

/-- Where the pool hands out a good connection, the first attempt succeeds. -/
theorem Served.first (h : Served good a sent result) (hpos : 1 ≤ a.client.maxRetries)
    (hran : s.Ran world (sent.map .completed) s')
    (hfirst : ∀ c q, s.pool.Takes c q → good c = true) :
    ∃ x b, sent = [x] ∧ result = .ok b := by
  have hgood : ∀ x later, sent = x :: later → good x.connection = true := by
    rintro x later rfl
    obtain ⟨q, hq⟩ := hran.takes
    exact hfirst _ q hq
  cases h with
  | @answered failed x b hfailed =>
    cases failed with
    | nil => exact ⟨x, b, rfl, rfl⟩
    | cons y failed =>
      have := hgood y _ rfl
      rw [hfailed y (by simp)] at this
      cases this
  | exhausted hfailed hlen =>
    cases sent with
    | nil => simp at hlen; omega
    | cons y failed =>
      have := hgood y _ rfl
      rw [hfailed y (by simp)] at this
      cases this

/-! ## A series of requests -/

theorem Session.serve_length (world : World) (s : Session) (asks : List Ask) :
    (s.serve world asks).1.length = asks.length := by
  induction asks generalizing s with
  | nil => rfl
  | cons a asks ih => simp only [serve_cons, List.length_cons, ih]

/-- The result of a request of the series is that of the request on the session before it. -/
theorem Session.serve_getElem? (world : World) (s : Session) (before later : List Ask) (a : Ask) :
    (s.serve world (before ++ a :: later)).1[before.length]? =
      some (a.serve world (s.serve world before).2).1 := by
  have hlen := serve_length world s before
  rw [serve_append, List.getElem?_append_right (by omega), hlen, Nat.sub_self, serve_cons,
    List.getElem?_cons_zero]

/-- All attempts of a series are completed, and each request that fails has spent as many on bad
connections as it may make. -/
theorem Steady.serves_all {r : Nat} (h : Steady good asks s (s.serve world asks).2)
    (hne : s.pool.slots ≠ []) (hr : ∀ a ∈ asks, a.client.maxRetries = r) :
    ∃ sent : List Exchange, s.Ran world (sent.map .completed) (s.serve world asks).2 ∧
      (∀ x ∈ sent, x.reply.fails = !good x.connection) ∧
      (s.serve world asks).1.countP (fun result => !result.isOk) * r ≤
        (sent.map (·.connection)).countP fun c => !good c := by
  induction asks generalizing s with
  | nil => exact ⟨[], .refl world s, by simp, by simp [Session.serve]⟩
  | cons a asks ih =>
    obtain ⟨_, h₁⟩ := a.ran world s
    obtain ⟨_, h₂⟩ := Session.serve_ran world (a.serve world s).2 asks
    have hone : Steady good [a] s (a.serve world s).2 := h.left (by simp) h₁ h₂
    obtain ⟨sent, hran, hserved⟩ := hone.serves hne
    have hsent : (a.serve world s).2.sentSince s = sent := by
      rw [hran.sentSince_eq, exchanges_completed]
    obtain ⟨later, hran', hlater, hcount⟩ := ih (h.right (by simp) h₁ h₂)
      (hran.slots_eq_nil.not.mpr hne) fun a ha => hr a (List.mem_cons_of_mem _ ha)
    refine ⟨sent ++ later, ?_, ?_, ?_⟩
    · rw [List.map_append]
      exact hran.trans hran'
    · intro x hx
      rcases List.mem_append.mp hx with hx | hx
      · exact hone.outcomes x (hsent ▸ hx)
      · exact hlater x hx
    · have hfirst : (if (!(a.serve world s).1.isOk) = true then 1 else 0) * r ≤
          (sent.map (·.connection)).countP fun c => !good c := by
        cases hok : (a.serve world s).1.isOk with
        | true => simp
        | false => simpa [hr a List.mem_cons_self] using hserved.spent_le hok
      rw [List.map_append, List.countP_append, Session.serve_cons, List.countP_cons, Nat.add_mul,
        Nat.add_comm]
      exact Nat.add_le_add hfirst hcount

/-- The bad connections that a series attempts are different ones, and spent behind it. -/
theorem Steady.tried {r : Nat} (h : Steady good asks s (s.serve world asks).2)
    (hr : ∀ a ∈ asks, a.client.maxRetries = r) (hwf : s.pool.WellFormed)
    (hgood : ∃ d ∈ s.pool.connections, good d = true)
    (hroom : s.pool.HasRoom ((s.serve world asks).2.stepsSince s)) :
    let visits := ((s.serve world asks).2.sentSince s).map (·.connection)
    s.Did world (Pool.rounds good visits) ((s.serve world asks).2.sentSince s)
        (s.serve world asks).2 ∧
      Pool.Failover good s.pool.nextDeadOrder (s.serve world asks).2.pool ∧
      Pool.Tried good s.pool.nextDeadOrder (s.serve world asks).2.pool
        (visits.filter fun c => !good c) ∧
      (s.serve world asks).1.countP (fun result => !result.isOk) * r ≤
        visits.countP fun c => !good c := by
  obtain ⟨sent, hran, hsent, hcount⟩ := h.serves_all (Pool.slots_ne_nil hgood) hr
  have hdid : s.Did world (Pool.rounds good (sent.map (·.connection))) sent
      (s.serve world asks).2 := by
    have := hran
    rwa [Session.Ran, exchanges_completed, steps_rounds hsent] at this
  rw [hdid.stepsSince_eq] at hroom
  simp only [hdid.sentSince_eq]
  obtain ⟨hp, htried⟩ := (Pool.Tried.nil good _ _).rounds (hwf.failover good) hgood hroom hdid.pool
  exact ⟨hdid, hp, htried, hcount⟩

/-- A series in two parts. -/
theorem Steady.split {part rest : List Ask}
    (h : Steady good (part ++ rest) s (s.serve world (part ++ rest)).2)
    (hroom : s.pool.HasRoom ((s.serve world (part ++ rest)).2.stepsSince s)) :
    let mid := (s.serve world part).2
    (Steady good part s mid ∧ s.pool.HasRoom (mid.stepsSince s)) ∧
      Steady good rest mid (mid.serve world rest).2 ∧
        mid.pool.HasRoom ((mid.serve world rest).2.stepsSince mid) := by
  intro mid
  obtain ⟨_, h₁⟩ := Session.serve_ran world s part
  obtain ⟨_, h₂⟩ := Session.serve_ran world mid rest
  have hafter : (s.serve world (part ++ rest)).2 = (mid.serve world rest).2 := by
    rw [Session.serve_append]
  rw [hafter] at h hroom
  rw [(h₁.trans h₂).stepsSince_eq, List.flatMap_append] at hroom
  refine ⟨⟨h.left (List.subset_append_left _ _) h₁ h₂, ?_⟩,
    h.right (List.subset_append_right _ _) h₁ h₂, ?_⟩
  · rw [h₁.stepsSince_eq]
    exact hroom.append_left
  · rw [h₂.stepsSince_eq]
    exact hroom.append_right h₁.pool

/-- The requests so far have attempted the connection, or it was dead before or behind one of them
while a good one was live. -/
def Session.Knows (good : Connection → Bool) (world : World) (s : Session) (asks : List Ask)
    (c : Connection) : Prop :=
  c ∈ ((s.serve world asks).2.sentSince s).map (·.connection) ∨
    ∃ part rest, asks = part ++ rest ∧ (s.serve world part).2.pool.Outlived good c

/-- A bad connection that the requests so far know of is not handed out to the next one. -/
theorem Session.Knows.not_takes {r : Nat} {c : Connection} {q : Pool}
    (hknows : s.Knows good world asks c) (h : Steady good asks s (s.serve world asks).2)
    (hr : ∀ a ∈ asks, a.client.maxRetries = r) (hwf : s.pool.WellFormed)
    (hgood : ∃ d ∈ s.pool.connections, good d = true)
    (hroom : s.pool.HasRoom ((s.serve world asks).2.stepsSince s)) (hbad : good c = false) :
    ¬ (s.serve world asks).2.pool.Takes c q := by
  intro htakes
  rcases hknows with hmem | ⟨part, rest, rfl, houtlived⟩
  · obtain ⟨hdid, hp, htried, -⟩ := h.tried hr hwf hgood hroom
    have hin := htried.spent c (List.mem_filter.mpr ⟨hmem, by simp [hbad]⟩)
    exact hp.not_spent (hdid.connections ▸ hgood) htakes hin
  · obtain ⟨⟨h₁, hroom₁⟩, h₂, hroom₂⟩ := h.split hroom
    have hr₁ : ∀ a ∈ part, a.client.maxRetries = r := fun a ha => hr a (List.mem_append_left _ ha)
    have hr₂ : ∀ a ∈ rest, a.client.maxRetries = r := fun a ha => hr a (List.mem_append_right _ ha)
    obtain ⟨hdid₁, hp₁, -⟩ := h₁.tried hr₁ hwf hgood hroom₁
    obtain ⟨hdid₂, hp₂, -⟩ := h₂.tried hr₂ hp₁.wellFormed (hdid₁.connections ▸ hgood) hroom₂
    rw [Session.serve_append] at htakes
    have hc : c ∈ (s.serve world part).2.pool.connections :=
      hdid₂.connections ▸ Pool.takes_mem htakes
    have hlast := houtlived.replay hp₁.wellFormed hc hbad (Pool.rounds_fits hdid₂.pool)
      (hdid₂.stepsSince_eq ▸ hroom₂) hdid₂.pool
    exact hlast.not_takes hp₂.wellFormed htakes

/-- Where the requests so far know of all bad connections, the next one succeeds on its first
attempt. -/
theorem Steady.next {r : Nat} {before later : List Ask}
    (h : Steady good (before ++ a :: later) s (s.serve world (before ++ a :: later)).2)
    (hr : ∀ b ∈ before ++ a :: later, b.client.maxRetries = r) (hpos : 1 ≤ r)
    (hwf : s.pool.WellFormed) (hgood : ∃ d ∈ s.pool.connections, good d = true)
    (hroom : s.pool.HasRoom ((s.serve world (before ++ a :: later)).2.stepsSince s))
    (hknows : ∀ c ∈ s.pool.connections, good c = false → s.Knows good world before c) :
    let mid := (s.serve world before).2
    ∃ b x, (a.serve world mid).1 = .ok b ∧ (a.serve world mid).2.sentSince mid = [x] := by
  intro mid
  obtain ⟨⟨h₁, hroom₁⟩, hlater, hroom₂⟩ := h.split hroom
  obtain ⟨⟨h₂, -⟩, -⟩ :=
    (show Steady good ([a] ++ later) mid (mid.serve world ([a] ++ later)).2 from hlater).split hroom₂
  have hr₁ : ∀ b ∈ before, b.client.maxRetries = r := fun b hb => hr b (List.mem_append_left _ hb)
  obtain ⟨hdid, -⟩ := h₁.tried hr₁ hwf hgood hroom₁
  obtain ⟨sent, hran, hserved⟩ :=
    Steady.serves (a := a) h₂ (hdid.slots_eq_nil.not.mpr (Pool.slots_ne_nil hgood))
  have hfirst : ∀ c q, mid.pool.Takes c q → good c = true := by
    intro c q htakes
    by_contra hbad
    rw [Bool.not_eq_true] at hbad
    have hmem : c ∈ s.pool.connections := hdid.connections ▸ Pool.takes_mem htakes
    exact (hknows c hmem hbad).not_takes h₁ hr₁ hwf hgood hroom₁ hbad htakes
  obtain ⟨x, b, rfl, hresult⟩ := hserved.first (hr a (by simp) ▸ hpos) hran hfirst
  exact ⟨b, x, hresult, by rw [hran.sentSince_eq, exchanges_completed]⟩

/-- **Traffic settles**: in a series of requests of `r` attempts each on steady connections, each
bad connection is attempted once at most. So no more than one in `r` of the bad connections makes a
request fail, and where the requests so far know of all of them, the next one succeeds on its first
attempt. -/
theorem serve_settles (good : Connection → Bool) (world : World) (s : Session) (asks : List Ask)
    (r : Nat) (hr : ∀ a ∈ asks, a.client.maxRetries = r) (hreach : s.pool.Reachable)
    (hgood : ∃ d ∈ s.pool.connections, good d = true)
    (hsteady : Steady good asks s (s.serve world asks).2)
    (hroom : s.pool.HasRoom ((s.serve world asks).2.stepsSince s)) :
    let results := (s.serve world asks).1
    let after := (s.serve world asks).2
    let bad := s.pool.connections.countP fun c => !good c
    (∀ c, good c = false → ((after.sentSince s).map (·.connection)).count c ≤ 1) ∧
      (1 ≤ r → results.countP (fun result => !result.isOk) ≤ bad / r) ∧
      (bad < r → ∀ result ∈ results, ∃ b, result = .ok b) ∧
      (1 ≤ r → ∀ (before later : List Ask) (a : Ask), asks = before ++ a :: later →
        (∀ c ∈ s.pool.connections, good c = false → s.Knows good world before c) →
        let mid := (s.serve world before).2
        ∃ b x, results[before.length]? = some (.ok b) ∧ (a.serve world mid).2.sentSince mid = [x]) := by
  intro results after bad
  have hwf := hreach.wellFormed
  obtain ⟨hdid, hp, htried, hcount⟩ := hsteady.tried hr hwf hgood hroom
  have hfew : results.countP (fun result => !result.isOk) * r ≤ bad := by
    have hbad : after.pool.connections.countP (fun c => !good c) = bad := by
      rw [hdid.connections]
    refine hcount.trans ?_
    rw [List.countP_eq_length_filter, ← hbad]
    exact htried.length_le
  have hle : 1 ≤ r → results.countP (fun result => !result.isOk) ≤ bad / r :=
    fun hpos => (Nat.le_div_iff_mul_le hpos).mpr hfew
  refine ⟨fun c hbad => ?_, hle, fun hlt result hresult => ?_, ?_⟩
  · rw [← List.count_filter (p := fun c => !good c) (by simp [hbad])]
    exact List.nodup_iff_count_le_one.mp htried.nodup c
  · have hzero : results.countP (fun result => !result.isOk) = 0 := by
      have := hle (by omega)
      rw [Nat.div_eq_of_lt hlt] at this
      omega
    have hok := List.countP_eq_zero.mp hzero result hresult
    cases result with
    | ok b => exact ⟨b, rfl⟩
    | error e => exact absurd rfl hok
  · rintro hpos before later a rfl hknows mid
    obtain ⟨b, x, hresult, hsent⟩ := hsteady.next hr hpos hwf hgood hroom hknows
    exact ⟨b, x, (Session.serve_getElem? world s before later a).trans (congrArg some hresult), hsent⟩

/-- Of two nodes the first is down: after one search the next is answered at once. -/
theorem serve_settles_halfDown :
    let results := (Session.twoNodes.serve .halfDown [.search, .search]).1
    let after := (Session.twoNodes.serve .halfDown [.search, .search]).2
    let mid := (Session.twoNodes.serve .halfDown [.search]).2
    Session.twoNodes.pool.Reachable ∧ (∃ d ∈ Session.twoNodes.pool.connections, (d.id == 1) = true) ∧
      Steady (·.id == 1) [.search, .search] .twoNodes after ∧
      Session.twoNodes.pool.HasRoom (after.stepsSince .twoNodes) ∧
      (∀ result ∈ results, ∃ b, result = .ok b) ∧
      ∃ b x, results[1]? = some (.ok b) ∧ (Ask.search.serve .halfDown mid).2.sentSince mid = [x] := by
  intro results after mid
  have hreach : Session.twoNodes.pool.Reachable := .setConnections _ _ .empty
  have hgood : ∃ d ∈ Session.twoNodes.pool.connections, (d.id == 1) = true := by decide +kernel
  have hsteady : Steady (·.id == 1) [.search, .search] .twoNodes after :=
    steady_twoNodes (by simp) (by decide +kernel) (by decide +kernel)
  have hroom : Session.twoNodes.pool.HasRoom (after.stepsSince .twoNodes) := by
    unfold Pool.HasRoom
    decide +kernel
  have hknows : ∀ c ∈ Session.twoNodes.pool.connections, (c.id == 1) = false →
      c ∈ (mid.sentSince .twoNodes).map (·.connection) := by decide +kernel
  obtain ⟨-, -, hall, hnext⟩ := serve_settles (·.id == 1) .halfDown .twoNodes [.search, .search] 3
    (by decide +kernel) hreach hgood hsteady hroom
  exact ⟨hreach, hgood, hsteady, hroom, hall (by decide +kernel),
    hnext (by omega) [.search] [] .search rfl fun c hc hbad => .inl (hknows c hc hbad)⟩

end ClusterOutput
