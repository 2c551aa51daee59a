/-
Which connection a pool hands out, said without places: the first live one in
the order of the turn, and where none is live one that no other precedes in the
queue of the dead.
-/
import ClusterOutput.Pool.Basic
import Mathlib.Data.List.Find
import Mathlib.Data.List.Rotate

namespace ClusterOutput.Pool

/-- The slots in the order of the turn: from the cursor on, and around. -/
def inTurn (p : Pool) : List Slot := p.slots.rotate p.cursor

/-- What it is to hand out a connection, and which pool remains. -/
inductive Takes (p : Pool) : Connection → Pool → Prop
  /-- The first live one, which ends its turn. -/
  | live {l m : List Slot} {s : Slot} (hturn : p.inTurn = l ++ s :: m)
    (hl : ∀ t ∈ l, t.isLive = false) (hs : s.isLive = true) :
    Takes p s.connection { p with cursor := (p.cursor + l.length + 1) % p.slots.length }
  /-- None is live: one that has waited longest. -/
  | oldest {s : Slot} (hall : ∀ t ∈ p.slots, t.isLive = false) (hs : s ∈ p.slots)
    (hle : ∀ t ∈ p.slots, s.deadOrder ≤ t.deadOrder) : Takes p s.connection p

theorem mem_inTurn {p : Pool} {s : Slot} : s ∈ p.inTurn ↔ s ∈ p.slots := List.mem_rotate

theorem inTurn_getElem? (p : Pool) {i : Nat} (h : i < p.slots.length) :
    p.slots[(p.cursor + i) % p.slots.length]? = p.inTurn[i]? := by
  rw [inTurn, List.getElem?_rotate h, Nat.add_comm]

/-! ## The first live one -/

theorem nextLive?_eq (p : Pool) :
    p.nextLive? = ((List.range p.slots.length).find? fun i => p.inTurn[i]?.any (·.isLive)).map
      fun i => (p.cursor + i) % p.slots.length := by
  rw [nextLive?, turn, List.find?_map]
  congr 1
  refine List.find?_congr fun i hi => ?_
  simp only [Function.comp_apply, inTurn_getElem? p (List.mem_range.mp hi)]

theorem choice?_of_live {p : Pool} {l m : List Slot} {s : Slot} (hturn : p.inTurn = l ++ s :: m)
    (hl : ∀ t ∈ l, t.isLive = false) (hs : s.isLive = true) :
    p.choice? = some (.live ((p.cursor + l.length) % p.slots.length) s) := by
  have hlt : l.length < p.slots.length := by
    rw [← List.length_rotate p.slots p.cursor, ← inTurn, hturn]
    simp
  have hat : p.inTurn[l.length]? = some s := by simp [hturn]
  have hfind : (List.range p.slots.length).find? (fun i => p.inTurn[i]?.any (·.isLive)) =
      some l.length := by
    rw [List.find?_range_eq_some]
    refine ⟨by simp [hat, hs], List.mem_range.mpr hlt, fun j hj => ?_⟩
    simp [hturn, List.getElem?_append_left hj, List.getElem?_eq_getElem hj,
      hl _ (List.getElem_mem hj)]
  rw [choice?, nextLive?_eq, hfind]
  simp only [Option.map_some, inTurn_getElem? p hlt, hat]

theorem choice?_of_dead {p : Pool} (hall : ∀ s ∈ p.slots, s.isLive = false) :
    p.choice? = (oldest? p.slots).map .oldestDead := by
  have hfind : (List.range p.slots.length).find? (fun i => p.inTurn[i]?.any (·.isLive)) = none := by
    rw [List.find?_eq_none]
    intro i _
    cases hi : p.inTurn[i]? with
    | none => simp
    | some s => simp [hall s (mem_inTurn.mp (List.mem_of_getElem? hi))]
  rw [choice?, nextLive?_eq, hfind]
  rfl

/-! ## The oldest of the dead -/

theorem oldest?_eq_none {l : List Slot} : oldest? l = none ↔ l = [] := by
  cases l with
  | nil => simp [oldest?]
  | cons s l =>
    simp only [oldest?, reduceCtorEq, iff_false]
    split
    · simp
    · split <;> simp

theorem oldest?_spec {l : List Slot} {s : Slot} (h : oldest? l = some s) :
    s ∈ l ∧ ∀ t ∈ l, s.deadOrder ≤ t.deadOrder := by
  induction l generalizing s with
  | nil => simp [oldest?] at h
  | cons a l ih =>
    simp only [oldest?] at h
    split at h
    next hn =>
      obtain rfl := oldest?_eq_none.mp hn
      simp_all
    next b hb =>
      obtain ⟨hmem, hle⟩ := ih hb
      split at h
      next hlt =>
        cases h
        refine ⟨List.mem_cons_of_mem _ hmem, List.forall_mem_cons.mpr ⟨UInt64.le_of_lt hlt, hle⟩⟩
      next hge =>
        obtain rfl : a = s := by simpa using h
        have hab : a.deadOrder ≤ b.deadOrder := UInt64.not_lt.mp hge
        exact ⟨List.mem_cons_self, List.forall_mem_cons.mpr
          ⟨UInt64.le_refl _, fun t ht => UInt64.le_trans hab (hle t ht)⟩⟩

/-! ## What is handed out -/

/-- Some slot is live, and then one comes first in the turn, or none is. -/
theorem live_or_dead (p : Pool) :
    (∃ l s m, p.inTurn = l ++ s :: m ∧ (∀ t ∈ l, t.isLive = false) ∧ s.isLive = true) ∨
      ∀ s ∈ p.slots, s.isLive = false := by
  cases hfind : p.inTurn.find? (·.isLive) with
  | some s =>
    obtain ⟨hs, l, m, hturn, hl⟩ := List.find?_eq_some_iff_append.mp hfind
    exact .inl ⟨l, s, m, hturn, fun t ht => by simpa using hl t ht, hs⟩
  | none =>
    refine .inr fun s hs => ?_
    simpa using List.find?_eq_none.mp hfind s (mem_inTurn.mpr hs)

theorem takes_of_take? {p q : Pool} {c : Connection} (h : p.take? = some (c, q)) : p.Takes c q := by
  rcases p.live_or_dead with ⟨l, s, m, hturn, hl, hs⟩ | hall
  · simp only [take?, choice?_of_live hturn hl hs, Option.map_some, Option.some.injEq,
      Prod.mk.injEq] at h
    obtain ⟨rfl, rfl⟩ := h
    simp only [Choice.slot, after, Nat.mod_add_mod]
    exact .live hturn hl hs
  · simp only [take?, choice?_of_dead hall, Option.map_map, Option.map_eq_some_iff,
      Function.comp_apply, Prod.mk.injEq] at h
    obtain ⟨s, hs, rfl, rfl⟩ := h
    obtain ⟨hmem, hle⟩ := oldest?_spec hs
    exact .oldest hall hmem hle

/-- A connection is handed out wherever there is one. -/
theorem take?_eq_none {p : Pool} : p.take? = none ↔ p.slots = [] := by
  rcases p.live_or_dead with ⟨l, s, m, hturn, hl, hs⟩ | hall
  · have hne : p.slots ≠ [] := List.ne_nil_of_mem (mem_inTurn.mp (hturn ▸ by simp : s ∈ p.inTurn))
    simp [take?, choice?_of_live hturn hl hs, hne]
  · simp [take?, choice?_of_dead hall, oldest?_eq_none]

end ClusterOutput.Pool
