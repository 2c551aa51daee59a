/-
What a journal says was done to a pool, done again. `replay` refuses a journal
in which a connection was handed out that the pool would not have handed out
then, so where it gives a pool, the journal tells the whole truth about it.

`replay_wellFormed`: as long as the places in the queue do not run out, a pool
stays well formed through everything that is done to it.
-/
import ClusterOutput.Proofs.Pool.Invariant
import ClusterOutput.Session

namespace ClusterOutput

/-- A failed attempt was recorded. -/
def PoolStep.isFailure : PoolStep → Bool
  | .markedDead _ => true
  | .taken _ | .markedLive _ => false

namespace Pool

/-- Does a step again, if the pool allows it. -/
def follow (p : Pool) : PoolStep → Option Pool
  | .taken c => p.take?.bind fun r => if r.1 = c then some r.2 else none
  | .markedDead c => some (p.markDead c)
  | .markedLive c => some (p.markLive c)

/-- Does steps again, one after another. -/
def replay (p : Pool) : List PoolStep → Option Pool
  | [] => some p
  | step :: steps => (p.follow step).bind (·.replay steps)

/-- The queue of the dead has a place for each failure among the steps: places are counted in 64
bits, and the count does not run over. -/
def HasRoom (p : Pool) (steps : List PoolStep) : Prop :=
  p.nextDeadOrder.toNat + steps.countP (·.isFailure) < UInt64.size

variable {p q r : Pool} {c : Connection} {step : PoolStep} {steps later : List PoolStep}

/-! ## Steps one after another -/

theorem follow_taken : p.follow (.taken c) = some q ↔ p.take? = some (c, q) := by
  simp only [follow, Option.bind_eq_some_iff]
  constructor
  · rintro ⟨⟨d, q'⟩, ht, h⟩
    split at h
    next hd => cases h; exact hd ▸ ht
    next => cases h
  · exact fun h => ⟨_, h, by simp⟩

theorem replay_cons : p.replay (step :: steps) = some r ↔
    ∃ q, p.follow step = some q ∧ q.replay steps = some r := by
  simp [replay, Option.bind_eq_some_iff]

theorem replay_singleton : p.replay [step] = p.follow step := by
  simp [replay]

theorem replay_append :
    p.replay (steps ++ later) = some r ↔ ∃ q, p.replay steps = some q ∧ q.replay later = some r := by
  induction steps generalizing p with
  | nil => simp [replay]
  | cons step steps ih =>
    simp only [List.cons_append, replay_cons, ih]
    constructor
    · rintro ⟨q₁, h₁, q₂, h₂, h₃⟩
      exact ⟨q₂, ⟨q₁, h₁, h₂⟩, h₃⟩
    · rintro ⟨q₂, ⟨q₁, h₁, h₂⟩, h₃⟩
      exact ⟨q₁, h₁, q₂, h₂, h₃⟩

/-! ## What no step changes -/

theorem takes_slots (h : p.Takes c q) : q.slots = p.slots ∧ q.nextDeadOrder = p.nextDeadOrder := by
  cases h <;> exact ⟨rfl, rfl⟩

theorem takes_connections (h : p.Takes c q) : q.connections = p.connections := by
  rw [connections, (takes_slots h).1, connections]

theorem takes_mem (h : p.Takes c q) : c ∈ p.connections := by
  cases h with
  | live hturn => exact mem_connections.mpr ⟨_, mem_inTurn.mp (hturn ▸ by simp), rfl⟩
  | oldest _ hs => exact mem_connections.mpr ⟨_, hs, rfl⟩

theorem follow_connections (h : p.follow step = some q) : q.connections = p.connections := by
  cases step with
  | taken c => exact takes_connections (takes_of_take? (follow_taken.mp h))
  | markedDead c => cases h; exact markDead_connections p c
  | markedLive c => cases h; exact markLive_connections p c

theorem replay_connections (h : p.replay steps = some q) : q.connections = p.connections := by
  induction steps generalizing p with
  | nil => cases h; rfl
  | cons step steps ih =>
    obtain ⟨p', hf, hr⟩ := replay_cons.mp h
    rw [ih hr, follow_connections hf]

/-- Only connections of the pool are handed out. -/
theorem replay_taken_mem (h : p.replay steps = some q) (hc : .taken c ∈ steps) :
    c ∈ p.connections := by
  induction steps generalizing p with
  | nil => cases hc
  | cons step steps ih =>
    obtain ⟨p', hf, hr⟩ := replay_cons.mp h
    rcases List.mem_cons.mp hc with rfl | hc
    · exact takes_mem (takes_of_take? (follow_taken.mp hf))
    · exact follow_connections hf ▸ ih hr hc

/-! ## Room in the queue -/

/-- The next place of the queue counts the failures, unless there is no more room. -/
theorem markDead_nextDeadOrder (hroom : p.nextDeadOrder.toNat + 1 < UInt64.size) (c : Connection) :
    p.nextDeadOrder ≤ (p.markDead c).nextDeadOrder ∧
      (p.markDead c).nextDeadOrder.toNat ≤ p.nextDeadOrder.toNat + 1 := by
  cases hs : p.slot? c with
  | none => simp [markDead_none hs]
  | some s =>
    have hadd : (p.nextDeadOrder + 1).toNat = p.nextDeadOrder.toNat + 1 := by
      rw [UInt64.toNat_add]
      exact Nat.mod_eq_of_lt hroom
    simp [markDead_some hs, UInt64.le_iff_toNat_le, hadd]

theorem follow_nextDeadOrder (hroom : p.HasRoom [step]) (h : p.follow step = some q) :
    p.nextDeadOrder ≤ q.nextDeadOrder ∧
      q.nextDeadOrder.toNat ≤ p.nextDeadOrder.toNat + [step].countP (·.isFailure) := by
  cases step with
  | taken c =>
    rw [(takes_slots (takes_of_take? (follow_taken.mp h))).2]
    exact ⟨UInt64.le_refl _, Nat.le_add_right _ _⟩
  | markedDead c => cases h; exact markDead_nextDeadOrder hroom c
  | markedLive c => cases h; simp

theorem HasRoom.head (h : p.HasRoom (step :: steps)) : p.HasRoom [step] := by
  unfold HasRoom at h ⊢
  rw [List.countP_cons] at h ⊢
  simp only [List.countP_nil]
  omega

theorem HasRoom.tail (h : p.HasRoom (step :: steps)) (hf : p.follow step = some q) :
    q.HasRoom steps := by
  have hq := (follow_nextDeadOrder h.head hf).2
  unfold HasRoom at h ⊢
  rw [List.countP_cons] at h hq
  simp only [List.countP_nil] at hq
  omega

theorem HasRoom.append_left (h : p.HasRoom (steps ++ later)) : p.HasRoom steps := by
  unfold HasRoom at h ⊢
  rw [List.countP_append] at h
  omega

theorem HasRoom.append_right (h : p.HasRoom (steps ++ later)) (hr : p.replay steps = some q) :
    q.HasRoom later := by
  induction steps generalizing p with
  | nil => cases hr; exact h
  | cons step steps ih =>
    obtain ⟨p', hf, hr'⟩ := replay_cons.mp hr
    exact ih (h.tail hf) hr'

/-! ## Well-formed pools stay so -/

theorem WellFormed.follow (h : p.WellFormed) (hroom : p.HasRoom [step])
    (hf : p.follow step = some q) : q.WellFormed := by
  cases step with
  | taken c => exact h.takes (takes_of_take? (follow_taken.mp hf))
  | markedDead c => cases hf; exact h.markDead (markDead_nextDeadOrder hroom c).1
  | markedLive c => cases hf; exact h.markLive c

theorem replay_wellFormed (h : p.WellFormed) (hroom : p.HasRoom steps)
    (hr : p.replay steps = some q) : q.WellFormed := by
  induction steps generalizing p with
  | nil => cases hr; exact h
  | cons step steps ih =>
    obtain ⟨p', hf, hr'⟩ := replay_cons.mp hr
    exact ih (h.follow hroom.head hf) (hroom.tail hf) hr'

end Pool

end ClusterOutput
