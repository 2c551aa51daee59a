/-
Attempts one after another on a pool whose connections are good or bad for as
long as one looks. The bad ones among them are different ones
(`Tried.rounds`), and a bad one that is dead is passed over from the moment on
at which a good one is live (`Outlived`).
-/
import ClusterOutput.Proofs.Pool.Failover

namespace ClusterOutput.Pool

variable {good : Connection → Bool} {mark : UInt64} {p q : Pool} {c d : Connection}
  {step : PoolStep} {steps : List PoolStep}

/-! ## Attempts one after another -/

/-- What attempts on connections do to a pool, each good one of which answers and each bad one of
which fails. -/
def rounds (good : Connection → Bool) (cs : List Connection) : List PoolStep :=
  cs.flatMap fun c => [.taken c, if good c then .markedLive c else .markedDead c]

theorem rounds_cons (good : Connection → Bool) (c : Connection) (cs : List Connection) :
    rounds good (c :: cs) =
      [.taken c, if good c then .markedLive c else .markedDead c] ++ rounds good cs := rfl

theorem rounds_fits {visits : List Connection} (hr : p.replay (rounds good visits) = some q) :
    ∀ x ∈ rounds good visits, Fits good p.connections x := by
  intro x hx
  obtain ⟨c, hc, hx⟩ := List.mem_flatMap.mp hx
  have hmem : c ∈ p.connections :=
    replay_taken_mem hr (List.mem_flatMap.mpr ⟨c, hc, List.mem_cons_self⟩)
  rcases List.mem_cons.mp hx with rfl | hx
  · trivial
  · obtain rfl := List.mem_singleton.mp hx
    cases hgood : good c with
    | true => exact ⟨hmem, hgood⟩
    | false => exact ⟨hmem, hgood⟩

/-- One attempt. A bad connection is a new one. -/
theorem Tried.round {cs : List Connection} (h : Tried good mark p cs) (hp : Failover good mark p)
    (hgood : ∃ d ∈ p.connections, good d = true)
    (hroom : p.HasRoom [.taken c, if good c then .markedLive c else .markedDead c])
    (hr : p.replay [.taken c, if good c then .markedLive c else .markedDead c] = some q) :
    Failover good mark q ∧ Tried good mark q (cs ++ [c].filter fun c => !good c) := by
  obtain ⟨p', htake, hmark⟩ := replay_cons.mp hr
  have hroom' := hroom.tail htake
  obtain ⟨hp', h', hmem, hnew⟩ :=
    h.taken hp hgood hroom.head (replay_singleton.trans htake)
  cases hc : good c with
  | true =>
    simp only [hc, if_true] at hmark hroom'
    have hfit' : ∀ x ∈ [.markedLive c], Fits good p'.connections x := by simp [Fits, hmem, hc]
    refine ⟨hp'.replay hfit' hroom' hmark, ?_⟩
    simpa [hc] using h'.replay hp' hfit' hroom' hmark
  | false =>
    simp only [hc, Bool.false_eq_true, if_false] at hmark hroom'
    have hfit' : ∀ x ∈ [.markedDead c], Fits good p'.connections x := by simp [Fits, hmem, hc]
    refine ⟨hp'.replay hfit' hroom' hmark, ?_⟩
    obtain rfl : p'.markDead c = q := Option.some.inj (replay_singleton.symm.trans hmark)
    simpa [hc] using h'.failed hp' hmem hc hnew hroom'

/-- However many attempts are made, the bad connections among them are different ones. -/
theorem Tried.rounds {cs visits : List Connection} (h : Tried good mark p cs)
    (hp : Failover good mark p) (hgood : ∃ d ∈ p.connections, good d = true)
    (hroom : p.HasRoom (rounds good visits)) (hr : p.replay (rounds good visits) = some q) :
    Failover good mark q ∧ Tried good mark q (cs ++ visits.filter fun c => !good c) := by
  induction visits generalizing p cs with
  | nil =>
    cases hr
    exact ⟨hp, by simpa using h⟩
  | cons c visits ih =>
    rw [rounds_cons] at hroom hr
    obtain ⟨p', hr₁, hr₂⟩ := replay_append.mp hr
    obtain ⟨hp', h'⟩ := h.round hp hgood hroom.append_left hr₁
    have hrest := ih h' hp' (replay_connections hr₁ ▸ hgood) (hroom.append_right hr₁) hr₂
    rwa [List.append_assoc, ← List.filter_append, List.singleton_append] at hrest

/-! ## A settled pool -/

theorem WellFormed.status?_eq (h : p.WellFormed) {s : Slot} (hs : s ∈ p.slots) :
    p.status? s.connection = some s.health.status := h.toNumbered.status?_eq hs

theorem WellFormed.status?_dead (h : p.WellFormed) (hc : c ∈ p.connections) :
    p.status? c = some .dead ↔ Spent 0 p c := by
  obtain ⟨s, hs, rfl⟩ := mem_connections.mp hc
  rw [h.status?_eq hs, Option.some.injEq, ← Slot.isLive_eq_false]
  constructor
  · intro hdead t ht he
    rw [h.slot_eq ht hs (congrArg _ he)]
    exact ⟨hdead, UInt64.zero_le⟩
  · exact fun hspent => (hspent s hs rfl).1

theorem WellFormed.status?_live (h : p.WellFormed) (hc : c ∈ p.connections) :
    p.status? c = some .live ↔ ∃ s ∈ p.slots, s.connection = c ∧ s.isLive = true := by
  obtain ⟨s, hs, rfl⟩ := mem_connections.mp hc
  rw [h.status?_eq hs, Option.some.injEq]
  constructor
  · exact fun hl => ⟨s, hs, rfl, by simp [Slot.isLive, hl]⟩
  · rintro ⟨t, ht, he, hl⟩
    rw [h.slot_eq ht hs (congrArg _ he)] at hl
    simpa [Slot.isLive] using hl

/-- The connection is dead while some good one is live. -/
structure Outlived (good : Connection → Bool) (p : Pool) (c : Connection) : Prop where
  dead : p.status? c = some .dead
  live : ∃ d ∈ p.connections, good d = true ∧ p.status? d = some .live

/-- A good connection that is live stays live. -/
theorem status?_follow (h : p.WellFormed) (hq : q.WellFormed) (hd : d ∈ p.connections)
    (hgood : good d = true) (hfit : Fits good p.connections step) (hf : p.follow step = some q)
    (hlive : p.status? d = some .live) : q.status? d = some .live := by
  obtain ⟨s, hs, rfl, hl⟩ := (h.status?_live hd).mp hlive
  rw [hq.status?_live (follow_connections hf ▸ hd)]
  cases step with
  | taken c =>
    rw [(takes_slots (takes_of_take? (follow_taken.mp hf))).1]
    exact ⟨s, hs, rfl, hl⟩
  | markedDead c =>
    cases hf
    have hne : s.connection ≠ c := fun he => by
      rw [he, hfit.2] at hgood
      cases hgood
    exact ⟨s, (mem_markDead h hfit.1).mpr ⟨s, hs, if_neg hne⟩, rfl, hl⟩
  | markedLive c =>
    cases hf
    refine ⟨_, (mem_markLive h hfit.1).mpr ⟨s, hs, rfl⟩, ?_⟩
    split
    · exact ⟨rfl, rfl⟩
    · exact ⟨rfl, hl⟩

theorem Outlived.follow (h : Outlived good p c) (hwf : p.WellFormed) (hc : c ∈ p.connections)
    (hbad : good c = false) (hfit : Fits good p.connections step) (hroom : p.HasRoom [step])
    (hf : p.follow step = some q) : Outlived good q c := by
  have hq := hwf.follow hroom hf
  have hconn := follow_connections hf
  obtain ⟨hdead, d, hd, hgood, hlive⟩ := h
  refine ⟨?_, d, hconn ▸ hd, hgood, status?_follow hwf hq hd hgood hfit hf hlive⟩
  rw [hq.status?_dead (hconn ▸ hc)]
  exact ((hwf.status?_dead hc).mp hdead).follow hwf UInt64.zero_le hbad hfit hf

theorem Outlived.replay (h : Outlived good p c) (hwf : p.WellFormed) (hc : c ∈ p.connections)
    (hbad : good c = false) (hfit : ∀ x ∈ steps, Fits good p.connections x)
    (hroom : p.HasRoom steps) (hr : p.replay steps = some q) : Outlived good q c := by
  induction steps generalizing p with
  | nil => cases hr; exact h
  | cons step steps ih =>
    obtain ⟨p', hf, hr'⟩ := replay_cons.mp hr
    have hconn := follow_connections hf
    obtain ⟨hfit₁, hfit₂⟩ := List.forall_mem_cons.mp hfit
    exact ih (h.follow hwf hc hbad hfit₁ hroom.head hf) (hwf.follow hroom.head hf) (hconn ▸ hc)
      (hconn ▸ hfit₂) (hroom.tail hf) hr'

/-- No live connection is passed over for a dead one. -/
theorem Outlived.not_takes (h : Outlived good p c) (hwf : p.WellFormed) : ¬ p.Takes c q := by
  intro ht
  have hdead := (hwf.status?_dead (takes_mem ht)).mp h.dead
  cases ht with
  | @live l m s hturn _ hs =>
    have hmem : s ∈ p.slots := mem_inTurn.mp (hturn ▸ by simp)
    simp [(hdead s hmem rfl).1] at hs
  | oldest hall =>
    obtain ⟨d, hd, -, hlive⟩ := h.live
    obtain ⟨s, hs, -, hl⟩ := (hwf.status?_live hd).mp hlive
    simp [hall s hs] at hl

end ClusterOutput.Pool
