/-
A pool whose connections are each good or bad for as long as one looks: marks
say that a good one answered or that a bad one failed. Then a bad connection
that has failed is spent. It is dead and stays so, and it stands in the queue
behind every good one that is dead, because good ones failed before one began
to look. So it is not handed out again while there is a good one
(`Failover.not_spent`), whoever makes the attempts and in whatever order they
come.
-/
import ClusterOutput.Proofs.Pool.Replay
import Mathlib.Data.List.Perm.Subperm

namespace ClusterOutput.Pool

/-- What a step may do to a pool of these connections: it marks a bad one dead or a good one
live. -/
def Fits (good : Connection → Bool) (connections : List Connection) : PoolStep → Prop
  | .taken _ => True
  | .markedDead c => c ∈ connections ∧ good c = false
  | .markedLive c => c ∈ connections ∧ good c = true

/-- The good connections that are dead stand before the place `mark` of the queue. -/
structure Failover (good : Connection → Bool) (mark : UInt64) (p : Pool) : Prop where
  wellFormed : p.WellFormed
  reached : mark ≤ p.nextDeadOrder
  ahead : ∀ s ∈ p.slots, good s.connection = true → s.isLive = false → s.deadOrder < mark

/-- The connection is dead, at the place `mark` of the queue or behind it. -/
def Spent (mark : UInt64) (p : Pool) (c : Connection) : Prop :=
  ∀ s ∈ p.slots, s.connection = c → s.isLive = false ∧ mark ≤ s.deadOrder

variable {good : Connection → Bool} {mark : UInt64} {p q : Pool} {c d : Connection}
  {step : PoolStep} {steps : List PoolStep}

theorem WellFormed.slot_of_mem (h : p.WellFormed) (hc : c ∈ p.connections) {s : Slot}
    (hs : s ∈ p.slots) : s.connection.id = c.id ↔ s.connection = c := by
  refine ⟨fun he => ?_, congrArg _⟩
  obtain ⟨t, ht, rfl⟩ := mem_connections.mp hc
  rw [h.slot_eq hs ht he]

/-- The slots after a failure of a connection of the pool. -/
theorem mem_markDead (h : p.WellFormed) (hc : c ∈ p.connections) {t : Slot} :
    t ∈ (p.markDead c).slots ↔ ∃ s ∈ p.slots,
      (if s.connection = c then s.failed p.clock p.nextDeadOrder else s) = t := by
  obtain ⟨u, hu, rfl⟩ := mem_connections.mp hc
  rw [markDead_some (h.slot?_eq hu), mem_change]
  refine exists_congr fun s => and_congr_right fun hs => ?_
  simp only [h.slot_of_mem hc hs]

/-- The slots after an answer of a connection of the pool. -/
theorem mem_markLive (h : p.WellFormed) (hc : c ∈ p.connections) {t : Slot} :
    t ∈ (p.markLive c).slots ↔ ∃ s ∈ p.slots,
      (if s.connection = c then s.recovered else s) = t := by
  obtain ⟨u, hu, rfl⟩ := mem_connections.mp hc
  rw [markLive_some (h.slot?_eq hu), mem_change]
  refine exists_congr fun s => and_congr_right fun hs => ?_
  simp only [h.slot_of_mem hc hs]

theorem slots_ne_nil (hgood : ∃ d ∈ p.connections, good d = true) : p.slots ≠ [] := by
  rintro hnil
  obtain ⟨d, hd, -⟩ := hgood
  simp [connections, hnil] at hd

/-! ## One step -/

/-- From here on, every failure stands behind those before. -/
theorem WellFormed.failover (h : p.WellFormed) (good : Connection → Bool) :
    Failover good p.nextDeadOrder p :=
  ⟨h, UInt64.le_refl _, fun s hs _ hd => (h.standing s hs).place hd⟩

theorem Failover.follow (h : Failover good mark p) (hfit : Fits good p.connections step)
    (hroom : p.HasRoom [step]) (hf : p.follow step = some q) : Failover good mark q where
  wellFormed := h.wellFormed.follow hroom hf
  reached := UInt64.le_trans h.reached (follow_nextDeadOrder hroom hf).1
  ahead := by
    intro t ht hgood hdead
    cases step with
    | taken c =>
      rw [(takes_slots (takes_of_take? (follow_taken.mp hf))).1] at ht
      exact h.ahead t ht hgood hdead
    | markedDead c =>
      cases hf
      obtain ⟨s, hs, rfl⟩ := (mem_markDead h.wellFormed hfit.1).mp ht
      split at hgood
      next he => simp [he, hfit.2] at hgood
      next he =>
        rw [if_neg he] at hdead ⊢
        exact h.ahead s hs hgood hdead
    | markedLive c =>
      cases hf
      obtain ⟨s, hs, rfl⟩ := (mem_markLive h.wellFormed hfit.1).mp ht
      split at hdead
      next => simp at hdead
      next he =>
        rw [if_neg he] at hgood ⊢
        exact h.ahead s hs hgood hdead

theorem Spent.follow (h : Spent mark p c) (hwf : p.WellFormed) (hreached : mark ≤ p.nextDeadOrder)
    (hbad : good c = false) (hfit : Fits good p.connections step)
    (hf : p.follow step = some q) : Spent mark q c := by
  intro t ht he
  cases step with
  | taken d =>
    rw [(takes_slots (takes_of_take? (follow_taken.mp hf))).1] at ht
    exact h t ht he
  | markedDead d =>
    cases hf
    obtain ⟨s, hs, rfl⟩ := (mem_markDead hwf hfit.1).mp ht
    split
    · exact ⟨rfl, hreached⟩
    next hne =>
      rw [if_neg hne] at he
      exact h s hs he
  | markedLive d =>
    cases hf
    obtain ⟨s, hs, rfl⟩ := (mem_markLive hwf hfit.1).mp ht
    split at he
    next hd =>
      have hsd : s.connection = c := he
      rw [← hsd, hd, hfit.2] at hbad
      cases hbad
    next hne =>
      rw [if_neg hne]
      exact h s hs he

/-- A bad connection that fails is spent. -/
theorem Failover.spent (h : Failover good mark p) (hc : c ∈ p.connections) :
    Spent mark (p.markDead c) c := by
  intro t ht he
  obtain ⟨s, hs, rfl⟩ := (mem_markDead h.wellFormed hc).mp ht
  split
  · exact ⟨rfl, h.reached⟩
  next hne =>
    rw [if_neg hne] at he
    exact absurd he hne

/-- **A spent connection is not handed out** while the pool has a good one. -/
theorem Failover.not_spent (h : Failover good mark p) (hgood : ∃ d ∈ p.connections, good d = true)
    (ht : p.Takes c q) : ¬ Spent mark p c := by
  intro hspent
  cases ht with
  | @live l m s hturn hl hs =>
    have hmem : s ∈ p.slots := mem_inTurn.mp (hturn ▸ by simp)
    simp [(hspent s hmem rfl).1] at hs
  | @oldest s hall hs hle =>
    -- a good one is dead too then, and it stands before the mark
    obtain ⟨d, hd, hgd⟩ := hgood
    obtain ⟨t, ht, rfl⟩ := mem_connections.mp hd
    have hlt : t.deadOrder < mark := h.ahead t ht hgd (hall t ht)
    have hge : mark ≤ s.deadOrder := (hspent s hs rfl).2
    exact UInt64.not_lt.mpr (UInt64.le_trans hge (hle t ht)) hlt

/-! ## Many steps -/

theorem Failover.replay (h : Failover good mark p) (hfit : ∀ x ∈ steps, Fits good p.connections x)
    (hroom : p.HasRoom steps) (hr : p.replay steps = some q) : Failover good mark q := by
  induction steps generalizing p with
  | nil => cases hr; exact h
  | cons step steps ih =>
    obtain ⟨p', hf, hr'⟩ := replay_cons.mp hr
    have hconn := follow_connections hf
    obtain ⟨hfit₁, hfit₂⟩ := List.forall_mem_cons.mp hfit
    exact ih (h.follow hfit₁ hroom.head hf) (hconn ▸ hfit₂) (hroom.tail hf) hr'

theorem Spent.replay (h : Spent mark p c) (hwf : p.WellFormed) (hreached : mark ≤ p.nextDeadOrder)
    (hbad : good c = false) (hfit : ∀ x ∈ steps, Fits good p.connections x)
    (hroom : p.HasRoom steps) (hr : p.replay steps = some q) : Spent mark q c := by
  induction steps generalizing p with
  | nil => cases hr; exact h
  | cons step steps ih =>
    obtain ⟨p', hf, hr'⟩ := replay_cons.mp hr
    have hconn := follow_connections hf
    obtain ⟨hfit₁, hfit₂⟩ := List.forall_mem_cons.mp hfit
    exact ih (h.follow hwf hreached hbad hfit₁ hf) (hwf.follow hroom.head hf)
      (UInt64.le_trans hreached (follow_nextDeadOrder hroom.head hf).1) (hconn ▸ hfit₂)
      (hroom.tail hf) hr'

/-! ## Bad connections that were tried -/

/-- Different bad connections, all of them spent. -/
structure Tried (good : Connection → Bool) (mark : UInt64) (p : Pool) (cs : List Connection) :
    Prop where
  nodup : cs.Nodup
  mem : ∀ c ∈ cs, c ∈ p.connections
  bad : ∀ c ∈ cs, good c = false
  spent : ∀ c ∈ cs, Spent mark p c

theorem Tried.nil (good : Connection → Bool) (mark : UInt64) (p : Pool) : Tried good mark p [] :=
  ⟨List.nodup_nil, by simp, by simp, by simp⟩

theorem Tried.replay {cs : List Connection} (h : Tried good mark p cs) (hp : Failover good mark p)
    (hfit : ∀ x ∈ steps, Fits good p.connections x) (hroom : p.HasRoom steps)
    (hr : p.replay steps = some q) : Tried good mark q cs where
  nodup := h.nodup
  mem := fun c hc => replay_connections hr ▸ h.mem c hc
  bad := h.bad
  spent := fun c hc =>
    (h.spent c hc).replay hp.wellFormed hp.reached (h.bad c hc) hfit hroom hr

/-- A connection that is handed out is none of those that were tried. -/
theorem Tried.taken {cs : List Connection} (h : Tried good mark p cs) (hp : Failover good mark p)
    (hgood : ∃ d ∈ p.connections, good d = true) (hroom : p.HasRoom [.taken c])
    (hr : p.replay [.taken c] = some q) :
    Failover good mark q ∧ Tried good mark q cs ∧ c ∈ q.connections ∧ c ∉ cs := by
  have hfit : ∀ x ∈ [.taken c], Fits good p.connections x := by simp [Fits]
  have htake : p.Takes c q := takes_of_take? (follow_taken.mp (replay_singleton.symm.trans hr))
  refine ⟨hp.replay hfit hroom hr, h.replay hp hfit hroom hr, ?_, fun hc => ?_⟩
  · exact replay_connections hr ▸ takes_mem htake
  · exact hp.not_spent hgood htake (h.spent c hc)

/-- One more connection fails. -/
theorem Tried.failed {cs : List Connection} (h : Tried good mark p cs) (hp : Failover good mark p)
    (hc : c ∈ p.connections) (hbad : good c = false) (hnew : c ∉ cs)
    (hroom : p.HasRoom [.markedDead c]) : Tried good mark (p.markDead c) (cs ++ [c]) := by
  have hcs : Tried good mark (p.markDead c) cs :=
    h.replay hp (by simpa [Fits] using ⟨hc, hbad⟩) hroom replay_singleton
  refine ⟨?_, ?_, ?_, ?_⟩
  · simpa using h.nodup.concat hnew
  · simpa [or_imp, forall_and, hc] using h.mem
  · simpa [or_imp, forall_and, hbad] using h.bad
  · simpa [or_imp, forall_and, hp.spent hc] using hcs.spent

/-- No more connections were tried than there are bad ones. -/
theorem Tried.length_le {cs : List Connection} (h : Tried good mark p cs) :
    cs.length ≤ p.connections.countP fun c => !good c := by
  rw [List.countP_eq_length_filter]
  refine (List.subperm_of_subset h.nodup fun c hc => ?_).length_le
  simp [h.mem c hc, h.bad c hc]

end ClusterOutput.Pool
