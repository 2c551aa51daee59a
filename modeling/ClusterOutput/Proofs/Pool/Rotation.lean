/-
The order in which failing attempts go through a pool. The connections stand in
one line: the live ones by turn, then the dead ones by queue. A failing attempt
goes to the head of the line and sends it to the end (`queue_rotates`), whether
it was live or dead, so that the line only goes around.
-/
import ClusterOutput.Proofs.Pool.Replay
import Mathlib.Data.Int.ModEq
import Mathlib.Data.List.Pairwise

namespace ClusterOutput.Pool

/-- The dead slots, the one that has waited longest first. -/
def deadQueue (p : Pool) : List Slot :=
  (p.slots.filter fun s => !s.isLive).mergeSort fun s t => decide (s.deadOrder ≤ t.deadOrder)

/-- The connections in the order in which failing attempts go to them. -/
def queue (p : Pool) : List Connection :=
  (p.inTurn.filter (·.isLive) ++ p.deadQueue).map (·.connection)

variable {p q : Pool} {c : Connection}

/-! ## The queue of the dead -/

theorem deadQueue_perm (p : Pool) : p.deadQueue.Perm (p.slots.filter fun s => !s.isLive) :=
  List.mergeSort_perm _ _

theorem mem_deadQueue {s : Slot} : s ∈ p.deadQueue ↔ s ∈ p.slots ∧ s.isLive = false := by
  rw [(deadQueue_perm p).mem_iff]
  simp

theorem deadQueue_le (p : Pool) : p.deadQueue.Pairwise fun s t => s.deadOrder ≤ t.deadOrder := by
  have htrans : ∀ s t u : Slot, decide (s.deadOrder ≤ t.deadOrder) = true →
      decide (t.deadOrder ≤ u.deadOrder) = true → decide (s.deadOrder ≤ u.deadOrder) = true := by
    intro s t u hst htu
    rw [decide_eq_true_eq] at hst htu ⊢
    exact UInt64.le_trans hst htu
  have htotal : ∀ s t : Slot,
      (decide (s.deadOrder ≤ t.deadOrder) || decide (t.deadOrder ≤ s.deadOrder)) = true := by
    intro s t
    simpa using UInt64.le_total s.deadOrder t.deadOrder
  exact (List.pairwise_mergeSort htrans htotal _).imp of_decide_eq_true

/-- No two dead slots stand at one place of their queue. -/
theorem WellFormed.deadQueue_lt (h : p.WellFormed) :
    p.deadQueue.Pairwise fun s t => s.deadOrder < t.deadOrder := by
  have hne : p.deadQueue.Pairwise fun s t => s.deadOrder ≠ t.deadOrder := by
    refine ((deadQueue_perm p).pairwise_iff fun h => h.symm).mpr ?_
    refine (h.places.filter _).imp_of_mem fun hs ht hst => ?_
    simp only [List.mem_filter, Bool.not_eq_true'] at hs ht
    exact hst hs.2 ht.2
  exact ((deadQueue_le p).and hne).imp fun h => UInt64.lt_of_le_of_ne h.1 h.2

/-- Only the dead slots themselves, in the order of their places, are their queue. -/
theorem deadQueue_eq {l : List Slot} (hperm : l.Perm (p.slots.filter fun s => !s.isLive))
    (hlt : l.Pairwise fun s t => s.deadOrder < t.deadOrder) : p.deadQueue = l := by
  have hle : l.Pairwise fun s t => s.deadOrder ≤ t.deadOrder := hlt.imp UInt64.le_of_lt
  refine ((deadQueue_perm p).trans hperm.symm).eq_of_pairwise (fun s t hs ht hst hts => ?_)
    (deadQueue_le p) hle
  have hs' : s ∈ l := (((deadQueue_perm p).trans hperm.symm).mem_iff).mp hs
  by_contra hne
  have heq : s.deadOrder = t.deadOrder := UInt64.le_antisymm hst hts
  have hpl : l.Pairwise fun s t => s.deadOrder ≠ t.deadOrder := hlt.imp UInt64.ne_of_lt
  have hsymm : Std.Symm fun s t : Slot => s.deadOrder ≠ t.deadOrder := ⟨fun _ _ h => h.symm⟩
  exact hpl.forall hs' ht hne heq

/-! ## One failing attempt -/

/-- What a change of one slot does to a list of slots in which it occurs once. -/
theorem map_change_middle {l m : List Slot} {s : Slot} (f : Slot → Slot)
    (hids : ((l ++ s :: m).map (·.connection.id)).Nodup) :
    (l ++ s :: m).map (fun t => if t.connection.id = s.connection.id then f t else t) =
      l ++ f s :: m := by
  rw [List.map_append, List.map_cons, List.nodup_append, List.nodup_cons] at hids
  obtain ⟨-, ⟨hm, -⟩, hl⟩ := hids
  have keep : ∀ {k : List Slot}, (∀ t ∈ k, t.connection.id ≠ s.connection.id) →
      k.map (fun t => if t.connection.id = s.connection.id then f t else t) = k := fun hk =>
    (List.map_congr_left fun t ht => if_neg (hk t ht)).trans (List.map_id' _)
  rw [List.map_append, List.map_cons, if_pos rfl, keep, keep]
  · exact fun t ht he => hm (he ▸ List.mem_map_of_mem ht)
  · exact fun t ht => hl _ (List.mem_map_of_mem ht) _ (by simp)

/-- The slots after a failure, in the order of the turn that the cursor gives. -/
theorem inTurn_markDead (h : p.WellFormed) {s : Slot} (hs : s ∈ p.slots) :
    (p.markDead s.connection).inTurn =
      p.inTurn.map fun t => if t.connection.id = s.connection.id
        then t.failed p.clock p.nextDeadOrder else t := by
  rw [markDead_some (h.slot?_eq hs), inTurn, inTurn, List.map_rotate]
  rfl

theorem slots_markDead (h : p.WellFormed) {s : Slot} (hs : s ∈ p.slots) :
    (p.markDead s.connection).slots.Perm (p.inTurn.map fun t =>
      if t.connection.id = s.connection.id then t.failed p.clock p.nextDeadOrder else t) :=
  inTurn_markDead h hs ▸ (List.rotate_perm _ _).symm

/-- A slot that fails goes to the end of the queue of the dead. -/
theorem deadQueue_markDead (h : p.WellFormed) {l m k : List Slot} {s : Slot}
    (hturn : p.inTurn = l ++ s :: m) (hk : k.Perm ((l ++ m).filter fun t => !t.isLive))
    (hsorted : k.Pairwise fun t u => t.deadOrder < u.deadOrder) :
    (p.markDead s.connection).deadQueue = k ++ [s.failed p.clock p.nextDeadOrder] := by
  have hs : s ∈ p.slots := mem_inTurn.mp (hturn ▸ by simp)
  have hids : ((l ++ s :: m).map (·.connection.id)).Nodup :=
    hturn ▸ ((List.rotate_perm p.slots p.cursor).map _).nodup_iff.mpr h.ids
  refine deadQueue_eq ?_ ?_
  · refine .trans ?_ ((slots_markDead h hs).filter _).symm
    rw [hturn, map_change_middle _ hids]
    refine .trans (List.perm_append_singleton _ _) ?_
    refine .trans (hk.cons _) ?_
    simp only [List.filter_append, List.filter_cons, Slot.failed_isLive, Bool.not_false, if_true]
    exact List.perm_middle.symm
  · refine List.pairwise_append.mpr ⟨hsorted, List.pairwise_singleton _ _, fun t ht u hu => ?_⟩
    obtain rfl := List.mem_singleton.mp hu
    have ht' := List.mem_filter.mp (hk.mem_iff.mp ht)
    have hmem : t ∈ p.slots := mem_inTurn.mp (hturn ▸ by have := ht'.1; simp at this ⊢; tauto)
    exact (h.standing t hmem).place (by simpa using ht'.2)

/-- After a live slot was handed out, the turn begins behind it. -/
theorem inTurn_behind {l m : List Slot} {s : Slot} (hturn : p.inTurn = l ++ s :: m) :
    inTurn { p with cursor := (p.cursor + l.length + 1) % p.slots.length } = m ++ l ++ [s] := by
  have hlen : (l ++ [s]).length = l.length + 1 := by simp
  show p.slots.rotate ((p.cursor + l.length + 1) % p.slots.length) = _
  rw [List.rotate_mod, Nat.add_assoc, ← List.rotate_rotate]
  show p.inTurn.rotate (l.length + 1) = _
  rw [hturn, List.append_cons, ← hlen, List.rotate_append_length_eq, List.append_assoc]

theorem inTurn_dead_perm (p : Pool) :
    p.deadQueue.Perm (p.inTurn.filter fun s => !s.isLive) :=
  (deadQueue_perm p).trans ((List.rotate_perm _ _).symm.filter _)

theorem queue_rotates_live (h : p.WellFormed) {l m : List Slot} {s : Slot}
    (hturn : p.inTurn = l ++ s :: m) (hl : ∀ t ∈ l, t.isLive = false) (hs : s.isLive = true)
    (hq : q.WellFormed) (hqturn : q.inTurn = m ++ l ++ [s]) :
    ∃ k, p.queue = s.connection :: k ∧ (q.markDead s.connection).queue = k ++ [s.connection] := by
  have hlive : l.filter (·.isLive) = [] := List.filter_eq_nil_iff.mpr fun t ht => by simp [hl t ht]
  have hmem : s ∈ q.slots := mem_inTurn.mp (hqturn ▸ by simp)
  have hids : ((m ++ l ++ [s]).map (·.connection.id)).Nodup :=
    hqturn ▸ ((List.rotate_perm q.slots q.cursor).map _).nodup_iff.mpr hq.ids
  have hdead : p.deadQueue.Perm ((m ++ l ++ []).filter fun t => !t.isLive) := by
    refine (inTurn_dead_perm p).trans ?_
    simp only [hturn, List.filter_append, List.filter_cons, hs, Bool.not_true, Bool.false_eq_true,
      if_false, List.append_nil]
    exact List.perm_append_comm
  refine ⟨(m.filter (·.isLive) ++ p.deadQueue).map (·.connection), ?_, ?_⟩
  · simp [queue, hturn, List.filter_append, hlive, hs]
  · rw [queue, deadQueue_markDead hq hqturn hdead h.deadQueue_lt, inTurn_markDead hq hmem, hqturn,
      map_change_middle _ hids]
    simp [List.filter_append, hlive]

theorem queue_rotates_oldest (h : p.WellFormed) {s : Slot} (hall : ∀ t ∈ p.slots, t.isLive = false)
    (hs : s ∈ p.slots) (hle : ∀ t ∈ p.slots, s.deadOrder ≤ t.deadOrder) :
    ∃ k, p.queue = s.connection :: k ∧ (p.markDead s.connection).queue = k ++ [s.connection] := by
  have hmem : s ∈ p.deadQueue := mem_deadQueue.mpr ⟨hs, hall s hs⟩
  obtain ⟨ds, hds⟩ : ∃ ds, p.deadQueue = s :: ds := by
    have hsorted := h.deadQueue_lt
    cases hq : p.deadQueue with
    | nil => simp [hq] at hmem
    | cons d ds =>
      rw [hq] at hmem hsorted
      rcases List.mem_cons.mp hmem with rfl | hin
      · exact ⟨ds, rfl⟩
      · have hlt := (List.pairwise_cons.mp hsorted).1 s hin
        have hd : d ∈ p.slots := (mem_deadQueue.mp (hq ▸ List.mem_cons_self)).1
        exact absurd hlt (UInt64.not_lt.mpr (hle d hd))
  obtain ⟨l, m, hturn⟩ := List.append_of_mem (mem_inTurn.mpr hs)
  have hrest : ds.Perm ((l ++ m).filter fun t => !t.isLive) := by
    refine List.Perm.cons_inv (a := s) ?_
    refine (hds ▸ inTurn_dead_perm p).trans ?_
    simp only [hturn, List.filter_append, List.filter_cons, hall s hs, Bool.not_false, if_true]
    exact List.perm_middle
  have hnone : ∀ {k : List Slot}, (∀ t ∈ k, t.isLive = false) → k.filter (·.isLive) = [] :=
    fun hk => List.filter_eq_nil_iff.mpr fun t ht => by simp [hk t ht]
  refine ⟨ds.map (·.connection), ?_, ?_⟩
  · rw [queue, hnone fun t ht => hall t (mem_inTurn.mp ht), hds]
    rfl
  · have hsorted : ds.Pairwise fun t u => t.deadOrder < u.deadOrder :=
      (List.pairwise_cons.mp (hds ▸ h.deadQueue_lt)).2
    rw [queue, deadQueue_markDead h hturn hrest hsorted, inTurn_markDead h hs, hnone]
    · simp
    · simp only [List.mem_map]
      rintro _ ⟨t, ht, rfl⟩
      split
      · rfl
      · exact hall t (mem_inTurn.mp ht)

/-- The head of the line is handed out, and once it has failed it stands at the end. -/
theorem queue_rotates (h : p.WellFormed) (ht : p.Takes c q) :
    ∃ k, p.queue = c :: k ∧ (q.markDead c).queue = k ++ [c] := by
  have hq := h.takes ht
  cases ht with
  | live hturn hl hs => exact queue_rotates_live h hturn hl hs hq (inTurn_behind hturn)
  | oldest hall hs hle => exact queue_rotates_oldest h hall hs hle

/-- All connections stand in the line. -/
theorem queue_perm (p : Pool) : p.queue.Perm p.connections := by
  refine List.Perm.map _ ?_
  refine ((deadQueue_perm p).append_left _).trans ?_
  refine (((List.rotate_perm p.slots p.cursor).filter _).append_right _).trans ?_
  exact List.filter_append_perm _ _

/-! ## Going around a line -/

/-- Visits that go along a line, and from its end to its head again. -/
def GoesAround {α : Type} (row visits : List α) : Prop :=
  ∀ i, i < visits.length → visits[i]? = row[i % row.length]?

section GoesAround

variable {α : Type} {row visits : List α}

theorem GoesAround.cons {a : α} (h : GoesAround (row ++ [a]) visits) :
    GoesAround (a :: row) (a :: visits) := by
  have hrot : (a :: row).rotate 1 = row ++ [a] := by simp
  have hlen : (row ++ [a]).length = (a :: row).length := by simp
  intro i hi
  cases i with
  | zero => simp
  | succ i =>
    have hlt : i % (a :: row).length < (a :: row).length := Nat.mod_lt _ (by simp)
    rw [List.getElem?_cons_succ, h i (by simpa using hi), hlen, ← hrot,
      List.getElem?_rotate hlt, Nat.mod_add_mod]

theorem GoesAround.drop (h : GoesAround row visits) (i : Nat) :
    GoesAround (row.rotate i) (visits.drop i) := by
  intro k hk
  have hne : 0 < row.length ∨ row = [] := by cases row <;> simp
  rw [List.getElem?_drop, h _ (by simp at hk; omega), List.length_rotate]
  rcases hne with hpos | rfl
  · rw [List.getElem?_rotate (Nat.mod_lt _ hpos), Nat.mod_add_mod, Nat.add_comm]
  · simp

theorem GoesAround.take_eq (h : GoesAround row visits) (hle : visits.length ≤ row.length) :
    visits = row.take visits.length := by
  refine List.ext_getElem? fun i => ?_
  rw [List.getElem?_take]
  split
  next hi => rw [h i hi, Nat.mod_eq_of_lt (by omega)]
  next hi => exact List.getElem?_eq_none (by omega)

/-- A full turn from anywhere on visits everyone once. -/
theorem GoesAround.covers (h : GoesAround row visits) {i : Nat}
    (hi : i + row.length ≤ visits.length) :
    ((visits.drop i).take row.length).Perm row := by
  have hlen : ((visits.drop i).take row.length).length = row.length := by simp; omega
  have htake : GoesAround (row.rotate i) ((visits.drop i).take row.length) := by
    intro k hk
    rw [List.getElem?_take_of_lt (by omega), h.drop i k (by simp; omega)]
  rw [htake.take_eq (by simp), hlen, List.take_of_length_le (by simp)]
  exact List.rotate_perm row i

theorem GoesAround.same_iff (h : GoesAround row visits) (hnd : row.Nodup) {i j : Nat}
    (hij : i ≤ j) (hj : j < visits.length) :
    visits[i]? = visits[j]? ↔ row.length ∣ j - i := by
  rw [h i (by omega), h j hj, ← Nat.modEq_iff_dvd' hij]
  have hpos : 0 < row.length := by
    have := h j hj
    rw [List.getElem?_eq_getElem hj] at this
    exact List.length_pos_of_mem (List.mem_of_getElem? this.symm)
  exact List.getElem?_inj (Nat.mod_lt _ hpos) hnd

/-- Nobody is visited twice more than another. -/
theorem GoesAround.count_eq [DecidableEq α] {a : α} (h : GoesAround row visits)
    (hnd : row.Nodup) (ha : a ∈ row) :
    visits.count a = visits.length / row.length ∨
      visits.count a = (visits.length + row.length - 1) / row.length := by
  have hpos : 0 < row.length := List.length_pos_of_mem ha
  induction hn : visits.length using Nat.strong_induction_on generalizing visits with
  | _ n ih =>
    by_cases hlt : n < row.length
    · -- less than one turn: a part of the row
      have hone : visits.count a ≤ 1 := by
        rw [h.take_eq (by omega)]
        exact List.nodup_iff_count_le_one.mp (hnd.sublist (List.take_sublist _ _)) a
      rcases Nat.eq_zero_or_pos (visits.count a) with hz | hz
      · exact .inl (by rw [hz, Nat.div_eq_of_lt hlt])
      · have hlen : 0 < visits.length := List.length_pos_of_mem (List.count_pos_iff.mp hz)
        refine .inr (Nat.le_antisymm ?_ ?_)
        · have : 1 ≤ (n + row.length - 1) / row.length := Nat.div_pos (by omega) hpos
          omega
        · have : (n + row.length - 1) / row.length < 2 := Nat.div_lt_of_lt_mul (by omega)
          omega
    · -- one turn, and what comes after it
      have hturn : (visits.take row.length).count a = 1 := by
        have hperm := h.covers (i := 0) (by omega)
        rw [List.drop_zero] at hperm
        rw [hperm.count_eq, List.count_eq_one_of_mem hnd ha]
      have hrest := ih (n - row.length) (by omega)
        (List.rotate_length row ▸ h.drop row.length) (by simp [hn])
      have hsplit : visits.count a = 1 + (visits.drop row.length).count a := by
        rw [← hturn, ← List.count_append, List.take_append_drop]
      have hfloor : n / row.length = (n - row.length) / row.length + 1 := by
        rw [Nat.div_eq_sub_div hpos (by omega)]
      have hceil : (n + row.length - 1) / row.length =
          (n - row.length + row.length - 1) / row.length + 1 := by
        rw [Nat.div_eq_sub_div hpos (by omega)]
        congr 2
        omega
      omega

end GoesAround

/-! ## Failing attempts one after another -/

/-- What attempts on connections do to a pool if all of them fail. -/
def failing (cs : List Connection) : List PoolStep :=
  cs.flatMap fun c => [.taken c, .markedDead c]

/-- Failing attempts go around the line. -/
theorem goesAround_of_failing {cs : List Connection} (h : p.WellFormed)
    (hroom : p.HasRoom (failing cs)) (hr : p.replay (failing cs) = some q) :
    GoesAround p.queue cs := by
  induction cs generalizing p with
  | nil => exact fun i hi => absurd hi (Nat.not_lt_zero i)
  | cons c cs ih =>
    obtain ⟨p₁, htake, hr⟩ := replay_cons.mp hr
    obtain ⟨p₂, hmark, hr⟩ := replay_cons.mp hr
    have hroom₁ := hroom.tail htake
    have h₁ := h.follow hroom.head htake
    have h₂ := h₁.follow hroom₁.head hmark
    obtain ⟨k, hk, hk'⟩ := queue_rotates h (takes_of_take? (follow_taken.mp htake))
    cases hmark
    have hrest := ih h₂ (hroom₁.tail rfl) hr
    rw [hk'] at hrest
    exact hk ▸ hrest.cons

/-- Visits that treat all alike: whoever was visited is visited again after as many visits as there
are to make, and not before. -/
structure TakesTurns {α : Type} [DecidableEq α] (all visits : List α) : Prop where
  again : ∀ i j, i ≤ j → j < visits.length → (visits[i]? = visits[j]? ↔ all.length ∣ j - i)
  covers : ∀ i, i + all.length ≤ visits.length → ((visits.drop i).take all.length).Perm all
  fair : ∀ a ∈ all, visits.count a = visits.length / all.length ∨
    visits.count a = (visits.length + all.length - 1) / all.length

theorem takesTurns_of_failing {cs : List Connection} (h : p.WellFormed)
    (hroom : p.HasRoom (failing cs)) (hr : p.replay (failing cs) = some q) :
    TakesTurns p.connections cs := by
  have haround := goesAround_of_failing h hroom hr
  have hnd : p.queue.Nodup := (queue_perm p).nodup_iff.mpr h.connections_nodup
  have hlen : p.queue.length = p.connections.length := (queue_perm p).length_eq
  refine ⟨fun i j hij hj => ?_, fun i hi => ?_, fun c hc => ?_⟩
  · rw [← hlen]
    exact haround.same_iff hnd hij hj
  · rw [← hlen] at hi ⊢
    exact (haround.covers hi).trans (queue_perm p)
  · rw [← hlen]
    exact haround.count_eq hnd ((queue_perm p).mem_iff.mpr hc)

end ClusterOutput.Pool
