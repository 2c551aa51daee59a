/-
How live connections take turns while marks of any kind come in between. Whoever
was handed out goes to the end of the order of the turn, and no live connection
is passed over, so a connection that stays live keeps its place before all that
were handed out since, whichever others turn live or dead (`Precedes.replay`).

So between two turns of one connection each other one that stays live has its
turn, and not twice if the first stays live too; and as long as none turns live
or dead, the live ones go around (`live_take_turns`).
-/
import ClusterOutput.Proofs.Pool.Calls
import ClusterOutput.Proofs.Pool.Rotation

namespace ClusterOutput

/-- The connection that was handed out. -/
def PoolStep.taken? : PoolStep → Option Connection
  | taken c => some c
  | markedDead _ | markedLive _ => none

namespace Pool

/-- The connections in the order of the turn: from the cursor on, and around. -/
def order (p : Pool) : List Connection := p.connections.rotate p.cursor

/-- The connection comes before the other in the order of the turn. -/
def Precedes (p : Pool) (c d : Connection) : Prop := [c, d].Sublist p.order

/-- The connection is live at every moment of the steps. -/
def StaysLive (p : Pool) (steps : List PoolStep) (c : Connection) : Prop :=
  ∀ done ∈ steps.inits, ∀ q ∈ p.replay done, q.status? c = some .live

/-- No connection turns live or dead at any moment of the steps. -/
def StaysAsItIs (p : Pool) (steps : List PoolStep) : Prop :=
  ∀ done ∈ steps.inits, ∀ q ∈ p.replay done, ∀ c ∈ p.connections, q.status? c = p.status? c

instance (p : Pool) (steps : List PoolStep) (c : Connection) : Decidable (p.StaysLive steps c) :=
  inferInstanceAs (Decidable (∀ done ∈ steps.inits, ∀ q ∈ p.replay done, _))

instance (p : Pool) (steps : List PoolStep) : Decidable (p.StaysAsItIs steps) :=
  inferInstanceAs (Decidable (∀ done ∈ steps.inits, ∀ q ∈ p.replay done, ∀ c ∈ p.connections, _))

/-- The connections that are live, in the order in which they were configured. -/
def liveConnections (p : Pool) : List Connection :=
  (p.slots.filter (·.isLive)).map (·.connection)

/-- The connections that are live, in the order of the turn. -/
def liveOrder (p : Pool) : List Connection := p.order.filter fun c => p.status? c == some .live

variable {p q r : Pool} {c d i j : Connection} {step : PoolStep} {steps rest : List PoolStep}

/-! ## One step -/

theorem Numbered.follow (h : p.Numbered) (hf : p.follow step = some q) : q.Numbered := by
  cases step with
  | taken c => exact h.answers (.taken (takes_of_take? (follow_taken.mp hf)))
  | markedDead c => cases hf; exact h.answers (.markedDead c)
  | markedLive c => cases hf; exact h.answers (.markedLive c)

theorem Numbered.replay (h : p.Numbered) (hr : p.replay steps = some q) : q.Numbered := by
  induction steps generalizing p with
  | nil => cases hr; exact h
  | cons step steps ih =>
    obtain ⟨p', hf, hr'⟩ := replay_cons.mp hr
    exact ih (h.follow hf) hr'

theorem mem_order : c ∈ p.order ↔ c ∈ p.connections := List.mem_rotate

theorem Numbered.order_nodup (h : p.Numbered) : p.order.Nodup :=
  List.nodup_rotate.mpr h.connections_nodup

theorem inTurn_connections (p : Pool) : p.inTurn.map (·.connection) = p.order := List.map_rotate ..

/-- Marks do not change the order of the turn. -/
theorem order_follow (hstep : step.taken? = none) (hf : p.follow step = some q) :
    q.order = p.order := by
  have hconn := follow_connections hf
  cases step with
  | taken c => cases hstep
  | markedDead c => cases hf; rw [order, hconn, markDead_cursor, order]
  | markedLive c => cases hf; rw [order, hconn, markLive_cursor, order]

theorem takes_status? (ht : p.Takes c q) (d : Connection) : q.status? d = p.status? d := by
  simp only [status?, health?, slot?, (takes_slots ht).1]

/-- Where some connection is live, the first live one in the order of the turn is handed out, and
goes to the end. -/
theorem Numbered.takes (h : p.Numbered) (ht : p.Takes c q) (hj : j ∈ p.connections)
    (hlive : p.status? j = some .live) :
    ∃ l m, p.order = l ++ c :: m ∧ (∀ d ∈ l, p.status? d ≠ some .live) ∧
      p.status? c = some .live ∧ q.order = m ++ l ++ [c] := by
  cases ht with
  | @live l m s hturn hl hs =>
    have hmem : ∀ t ∈ p.inTurn, t ∈ p.slots := fun t => mem_inTurn.mp
    refine ⟨l.map (·.connection), m.map (·.connection), ?_, ?_, ?_, ?_⟩
    · rw [← inTurn_connections, hturn, List.map_append, List.map_cons]
    · simp only [List.mem_map]
      rintro _ ⟨t, ht, rfl⟩
      rw [ne_eq, h.status?_live (hmem t (hturn ▸ by simp [ht])), hl t ht]
      exact Bool.false_ne_true
    · exact (h.status?_live (hmem s (hturn ▸ by simp))).mpr hs
    · rw [← inTurn_connections, inTurn_behind hturn]
      simp
  | oldest hall =>
    obtain ⟨s, hs, rfl⟩ := mem_connections.mp hj
    rw [h.status?_live hs, hall s hs] at hlive
    cases hlive

/-! ## Who comes before whom -/

theorem Precedes.left_mem (h : p.Precedes c d) : c ∈ p.connections :=
  mem_order.mp (List.Sublist.subset h (by simp))

/-- What begins with something that is not in front lies behind. -/
theorem sublist_behind {α : Type} {a : α} {k l m : List α} (h : (a :: k).Sublist (l ++ m))
    (ha : a ∉ l) : (a :: k).Sublist m := by
  induction l with
  | nil => exact h
  | cons b l ih =>
    obtain ⟨hb, hl⟩ := List.ne_and_not_mem_of_not_mem_cons ha
    exact ih (h.of_cons_of_ne hb) hl

/-- A live connection that is not handed out now keeps its place before another, which is not handed
out either. -/
theorem Precedes.follow (h : p.Precedes j i) (hn : p.Numbered) (hlive : p.status? j = some .live)
    (hstep : step ≠ .taken j) (hf : p.follow step = some q) : q.Precedes j i ∧ step ≠ .taken i := by
  cases step with
  | markedDead c => exact ⟨by rwa [Precedes, order_follow rfl hf], by simp⟩
  | markedLive c => exact ⟨by rwa [Precedes, order_follow rfl hf], by simp⟩
  | taken c =>
    obtain ⟨l, m, horder, hl, -, hq⟩ :=
      hn.takes (takes_of_take? (follow_taken.mp hf)) h.left_mem hlive
    have hnodup := hn.order_nodup
    rw [Precedes] at h ⊢
    rw [horder, List.append_cons] at h hnodup
    -- both stand behind the one that is handed out
    have hj : j ∉ l ++ [c] := by
      simp only [List.mem_append, List.mem_singleton, not_or]
      exact ⟨fun hmem => hl j hmem hlive, fun he => hstep (he ▸ rfl)⟩
    have hm : [j, i].Sublist m := sublist_behind h hj
    refine ⟨?_, fun he => ?_⟩
    · rw [hq, List.append_assoc]
      exact hm.trans (List.sublist_append_left _ _)
    · cases he
      exact (List.nodup_append.mp hnodup).2.2 i (by simp) i (hm.subset (by simp)) rfl

/-- Whoever was handed out while some connection is live, is preceded by all others. -/
theorem precedes_of_taken (hn : p.Numbered) (hf : p.follow (.taken i) = some q)
    (hj : j ∈ p.connections) (hlive : p.status? j = some .live) (hne : j ≠ i) : q.Precedes j i := by
  obtain ⟨l, m, horder, -, -, hq⟩ := hn.takes (takes_of_take? (follow_taken.mp hf)) hj hlive
  have hmem : j ∈ m ++ l := by
    have := mem_order.mpr hj
    rw [horder] at this
    simp only [List.mem_append, List.mem_cons, hne, false_or] at this ⊢
    exact this.symm
  rw [Precedes, hq]
  exact (List.singleton_sublist.mpr hmem).append (List.Sublist.refl [i])

/-! ## Many steps -/

theorem nil_mem_inits (steps : List PoolStep) : [] ∈ steps.inits :=
  (List.mem_inits _ _).mpr List.nil_prefix

theorem append_mem_inits (steps : List PoolStep) {done : List PoolStep} (h : done ∈ rest.inits) :
    steps ++ done ∈ (steps ++ rest).inits := by
  rw [List.mem_inits] at h ⊢
  exact (List.prefix_append_right_inj steps).mpr h

theorem StaysLive.head (h : p.StaysLive steps c) : p.status? c = some .live :=
  h [] (nil_mem_inits steps) p rfl

theorem StaysLive.right (h : p.StaysLive (steps ++ rest) c) (hr : p.replay steps = some q) :
    q.StaysLive rest c := fun done hdone q' hq' =>
  h (steps ++ done) (append_mem_inits steps hdone) q' (replay_append.mpr ⟨q, hr, hq'⟩)

theorem StaysLive.last (h : p.StaysLive steps c) (hr : p.replay steps = some q) :
    q.status? c = some .live :=
  h steps ((List.mem_inits _ _).mpr (List.prefix_refl _)) q hr

theorem StaysAsItIs.tail (h : p.StaysAsItIs (step :: steps)) (hf : p.follow step = some q) :
    (∀ c ∈ p.connections, q.status? c = p.status? c) ∧ q.StaysAsItIs steps := by
  have hmoment : ∀ done ∈ steps.inits, ∀ q' ∈ q.replay done,
      ∀ c ∈ p.connections, q'.status? c = p.status? c := fun done hdone q' hq' =>
    h (step :: done) (append_mem_inits [step] hdone) q' (replay_cons.mpr ⟨q, hf, hq'⟩)
  have hhead := hmoment [] (nil_mem_inits steps) q rfl
  refine ⟨hhead, fun done hdone q' hq' c hc => ?_⟩
  rw [follow_connections hf] at hc
  rw [hmoment done hdone q' hq' c hc, hhead c hc]

/-- As long as a live connection does not have its turn, those behind it do not have theirs. -/
theorem Precedes.replay (h : p.Precedes j i) (hn : p.Numbered) (hlive : p.StaysLive steps j)
    (hnone : .taken j ∉ steps) (hr : p.replay steps = some q) :
    q.Precedes j i ∧ .taken i ∉ steps := by
  induction steps generalizing p with
  | nil => cases hr; exact ⟨h, List.not_mem_nil⟩
  | cons step steps ih =>
    obtain ⟨p', hf, hr'⟩ := replay_cons.mp hr
    obtain ⟨hstep, hnone'⟩ := List.ne_and_not_mem_of_not_mem_cons hnone
    obtain ⟨h', hi⟩ := h.follow hn hlive.head hstep.symm hf
    obtain ⟨hq, hi'⟩ := ih h' (hn.follow hf) (hlive.right (replay_singleton.trans hf)) hnone' hr'
    exact ⟨hq, List.not_mem_cons_of_ne_of_not_mem hi.symm hi'⟩

/-- Between two turns of one connection, another that stays live has its turn. -/
theorem taken_between {between : List PoolStep} (hn : p.Numbered)
    (hr : p.replay (.taken i :: between ++ [.taken i]) = some q) (hj : j ∈ p.connections)
    (hne : j ≠ i) (hlive : p.StaysLive (.taken i :: between) j) : .taken j ∈ between := by
  obtain ⟨p₂, hr₂, hlast⟩ := replay_append.mp hr
  obtain ⟨p₁, hf, hr₁⟩ := replay_cons.mp hr₂
  by_contra hnone
  have hbefore := precedes_of_taken hn hf hj hlive.head hne
  have hlive₁ : p₁.StaysLive between j := hlive.right (replay_singleton.trans hf)
  obtain ⟨hafter, -⟩ := hbefore.replay (hn.follow hf) hlive₁ hnone hr₁
  rw [replay_singleton] at hlast
  exact (hafter.follow (hn.replay hr₂) (hlive.last hr₂) (by simpa using hne.symm) hlast).2 rfl

/-- It has no second turn before the first one has, if that stays live as well. -/
theorem taken_once {between : List PoolStep} (hn : p.Numbered)
    (hr : p.replay (.taken i :: between ++ [.taken i]) = some q) (hi : i ∈ p.connections)
    (hnone : .taken i ∉ between) (hne : j ≠ i) (hmem : .taken j ∈ between)
    (hlive : p.StaysLive (.taken i :: between) i) : between.count (.taken j) = 1 := by
  obtain ⟨p₂, hr₂, -⟩ := replay_append.mp hr
  obtain ⟨before, after, rfl, hfirst⟩ := List.eq_append_cons_of_mem hmem
  rw [← List.cons_append] at hr₂ hlive
  obtain ⟨p₃, hr₃, hr₄⟩ := replay_append.mp hr₂
  obtain ⟨p₄, hf, hr₅⟩ := replay_cons.mp hr₄
  have hlive₃ : p₃.StaysLive (.taken j :: after) i := hlive.right hr₃
  have hi₃ : i ∈ p₃.connections := replay_connections hr₃ ▸ hi
  have hbefore := precedes_of_taken (hn.replay hr₃) hf hi₃ hlive₃.head hne.symm
  have hnone' : .taken i ∉ after := fun h => hnone (by simp [h])
  obtain ⟨-, hsecond⟩ := hbefore.replay ((hn.replay hr₃).follow hf)
    (hlive₃.right (replay_singleton.trans hf)) hnone' hr₅
  rw [List.count_append, List.count_cons_self, List.count_eq_zero.mpr hfirst,
    List.count_eq_zero.mpr hsecond]

/-! ## While none turns live or dead -/

theorem Numbered.liveOrder_perm (h : p.Numbered) : p.liveOrder.Perm p.liveConnections := by
  have hlive : p.connections.filter (fun c => p.status? c == some .live) = p.liveConnections := by
    rw [connections, List.filter_map, liveConnections]
    congr 1
    refine List.filter_congr fun s hs => ?_
    rw [Bool.eq_iff_iff, Function.comp_apply, beq_iff_eq]
    exact h.status?_live hs
  rw [← hlive]
  exact (List.rotate_perm p.connections p.cursor).filter _

theorem length_liveConnections (p : Pool) : p.liveConnections.length = p.liveCount := by
  rw [liveConnections, List.length_map, ← List.countP_eq_length_filter, liveCount]

/-- The first of the live ones is handed out, and becomes the last of them. -/
theorem Numbered.liveOrder_takes (h : p.Numbered) (ht : p.Takes c q) (hj : j ∈ p.liveOrder) :
    ∃ k, p.liveOrder = c :: k ∧ q.liveOrder = k ++ [c] := by
  obtain ⟨hmem, hlive⟩ := List.mem_filter.mp hj
  obtain ⟨l, m, horder, hl, hc, hq⟩ := h.takes ht (mem_order.mp hmem) (by simpa using hlive)
  have hnone : l.filter (fun d => p.status? d == some .live) = [] := by
    simpa [List.filter_eq_nil_iff] using hl
  refine ⟨m.filter fun d => p.status? d == some .live, ?_, ?_⟩
  · rw [liveOrder, horder, List.filter_append, hnone, List.nil_append, List.filter_cons_of_pos]
    simp [hc]
  · simp only [liveOrder, hq, takes_status? ht, List.filter_append, hnone, List.append_nil]
    rw [List.filter_cons_of_pos (by simp [hc]), List.filter_nil]

theorem liveOrder_follow (hstep : step.taken? = none) (hf : p.follow step = some q)
    (hsame : ∀ c ∈ p.connections, q.status? c = p.status? c) : q.liveOrder = p.liveOrder := by
  rw [liveOrder, order_follow hstep hf]
  exact List.filter_congr fun c hc => by rw [hsame c (mem_order.mp hc)]

/-- As long as none turns live or dead, the live ones go around. -/
theorem StaysAsItIs.goesAround (h : p.StaysAsItIs steps) (hn : p.Numbered)
    (hj : j ∈ p.liveOrder) (hr : p.replay steps = some q) :
    GoesAround p.liveOrder (steps.filterMap PoolStep.taken?) := by
  induction steps generalizing p j with
  | nil => exact fun i hi => absurd hi (Nat.not_lt_zero i)
  | cons step steps ih =>
    obtain ⟨p', hf, hr'⟩ := replay_cons.mp hr
    obtain ⟨hsame, h'⟩ := h.tail hf
    cases hstep : step.taken? with
    | none =>
      have horder := liveOrder_follow hstep hf hsame
      rw [List.filterMap_cons_none hstep, ← horder]
      exact ih h' (hn.follow hf) (horder ▸ hj) hr'
    | some c =>
      have hc : step = .taken c := by cases step <;> cases hstep; rfl
      subst hc
      obtain ⟨k, hk, hk'⟩ := hn.liveOrder_takes (takes_of_take? (follow_taken.mp hf)) hj
      have hrest := ih h' (hn.follow hf) (j := c) (by simp [hk']) hr'
      rw [List.filterMap_cons_some hstep, hk]
      exact (hk' ▸ hrest).cons

end Pool

/-- **No live connection is passed over**: between two turns of one connection, each other one that
stays live has its turn, and just one turn if the first stays live as well. While none turns live or
dead, as many connections as are live are all of them when handed out in a row, and they come again
in the same order. -/
theorem Session.live_take_turns (collector : Option Collector) (before : List PoolCall) :
    let p := (start.calls collector before).2.pool
    (∀ i between q, p.replay (.taken i :: between ++ [.taken i]) = some q → .taken i ∉ between →
      ∀ j ∈ p.connections, j ≠ i → p.StaysLive (.taken i :: between) j →
        .taken j ∈ between ∧
          (p.StaysLive (.taken i :: between) i → between.count (.taken j) = 1)) ∧
    ∀ steps q, p.replay steps = some q → p.StaysAsItIs steps →
      let visits := steps.filterMap PoolStep.taken?
      (∀ k, k + p.liveCount ≤ visits.length →
        ((visits.drop k).take p.liveCount).Perm p.liveConnections) ∧
      ∀ k, k + p.liveCount < visits.length → visits[k + p.liveCount]? = visits[k]? := by
  intro p
  have hn : p.Numbered := calls_numbered collector before
  refine ⟨fun i between q hr hnone j hj hne hlive => ?_, fun steps q hr hsame => ?_⟩
  · have hmem := Pool.taken_between hn hr hj hne hlive
    have hi : i ∈ p.connections := Pool.replay_taken_mem hr (by simp)
    exact ⟨hmem, Pool.taken_once hn hr hi hnone hne hmem⟩
  · intro visits
    have hperm := hn.liveOrder_perm
    have hlen : p.liveOrder.length = p.liveCount :=
      hperm.length_eq.trans p.length_liveConnections
    rw [← hlen]
    by_cases hnil : p.liveOrder = []
    · rw [hnil] at hperm ⊢
      exact ⟨fun k _ => by simpa using hperm, fun k _ => rfl⟩
    · obtain ⟨j, hj⟩ := List.exists_mem_of_ne_nil _ hnil
      have haround := hsame.goesAround hn hj hr
      refine ⟨fun k hk => (haround.covers hk).trans hperm, fun k hk => ?_⟩
      have hmod : (k + p.liveOrder.length) % p.liveOrder.length = k % p.liveOrder.length :=
        Nat.add_mod_right k _
      rw [haround _ hk, haround k (Nat.lt_of_le_of_lt (Nat.le_add_right _ _) hk), hmod]

/-- The third of three connections misses one turn while it is dead; the second keeps to its own.
While all are live, the second to the fourth turn are of all three. -/
theorem Session.live_take_turns_three :
    let node (id : Nat) (url : String) : Connection := ⟨id, url, none⟩
    let a := node 0 "http://a"
    let b := node 1 "http://b"
    let c := node 2 "http://c"
    let p := (start.calls none [.setConnections ["http://a", "http://b", "http://c"] none]).2.pool
    let between : List PoolStep := [.markedDead c, .taken b, .markedLive c, .taken c]
    let steps : List PoolStep := [.taken a, .taken b, .markedLive b, .taken c, .taken a]
    ((p.replay (.taken a :: between ++ [.taken a])).isSome = true ∧ .taken a ∉ between ∧
      b ∈ p.connections ∧ b ≠ a ∧ p.StaysLive (.taken a :: between) b ∧
      p.StaysLive (.taken a :: between) a ∧ between.count (.taken b) = 1) ∧
    (p.replay steps).isSome = true ∧ p.StaysAsItIs steps ∧ p.liveCount = 3 ∧
      [b, c, a].Perm p.liveConnections := by
  intro node a b c p between steps
  have hsome : (p.replay (.taken a :: between ++ [.taken a])).isSome = true := by decide +kernel
  have hnone : .taken a ∉ between := by decide +kernel
  have hb : b ∈ p.connections := by decide +kernel
  have hne : b ≠ a := by decide +kernel
  have hliveb : p.StaysLive (.taken a :: between) b := by decide +kernel
  have hlivea : p.StaysLive (.taken a :: between) a := by decide +kernel
  have hsteps : (p.replay steps).isSome = true := by decide +kernel
  have hsame : p.StaysAsItIs steps := by decide +kernel
  have hcount : p.liveCount = 3 := by decide +kernel
  obtain ⟨hpassed, hround⟩ := live_take_turns none
    [.setConnections ["http://a", "http://b", "http://c"] none]
  obtain ⟨q, hq⟩ := Option.isSome_iff_exists.mp hsome
  obtain ⟨r, hr⟩ := Option.isSome_iff_exists.mp hsteps
  have hturns := hpassed a between q hq hnone b hb hne hliveb
  have hperm := (hround steps r hr hsame).1 1 (by decide +kernel)
  exact ⟨⟨hsome, hnone, hb, hne, hliveb, hlivea, hturns.2 hlivea⟩, hsteps, hsame, hcount, hperm⟩

end ClusterOutput
