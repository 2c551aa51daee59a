/-
Attempts that fail, one after another. Whichever requests they belong to, the
connections take turns at them (`serve_takesTurns`), so that a request is not
spent on a few nodes while others may be up.
-/
import ClusterOutput.Proofs.Client.Series
import ClusterOutput.Proofs.Pool.Rotation

namespace ClusterOutput.Session

variable {world : World} {s s₁ : Session} {hist : List Attempt}

/-- Attempts that failed, as the pool sees them. -/
theorem steps_failing {fails : List Exchange} (h : ∀ x ∈ fails, x.reply.fails = true) :
    (fails.map Attempt.completed).flatMap Attempt.steps = Pool.failing (fails.map (·.connection)) := by
  rw [Pool.failing, List.flatMap_map, List.flatMap_map]
  refine List.flatMap_congr fun x hx => ?_
  simp [Attempt.steps, Exchange.mark, h x hx]

/-- If the pool saw nothing but exchanges that were completed, these are the attempts. -/
theorem Ran.completed (h : s.Ran world hist s₁)
    (hsteps : s₁.stepsSince s = ((s₁.sentSince s).map Attempt.completed).flatMap Attempt.steps) :
    s.Ran world ((s₁.sentSince s).map .completed) s₁ := by
  unfold Ran
  rw [exchanges_completed, ← hsteps, h.stepsSince_eq, h.sentSince_eq]
  exact h

/-- **Failing attempts take turns**: attempts that fail one after another, with nothing else done
to the pool between them, go to all connections in turn, from whatever history the pool comes and
whichever requests the attempts belong to. -/
theorem serve_takesTurns (world : World) (asks : List Ask) (hreach : s.pool.Reachable)
    (hroom : s.pool.HasRoom ((s.serve world asks).2.stepsSince s)) :
    (∃ hist, s.Ran world hist (s.serve world asks).2) ∧
      ∀ hist, s.Ran world hist (s.serve world asks).2 →
        ∀ (before later : List Attempt) (fails : List Exchange),
          hist = before ++ fails.map .completed ++ later →
          (∀ x ∈ fails, x.reply.fails = true) →
          Pool.TakesTurns s.pool.connections (fails.map (·.connection)) := by
  refine ⟨serve_ran world s asks, fun hist hran before later fails hhist hfails => ?_⟩
  have hpool := hran.pool
  rw [hran.stepsSince_eq] at hroom
  simp only [hhist, List.flatMap_append, steps_failing hfails, List.append_assoc] at hpool hroom
  obtain ⟨p, hp, hpool⟩ := Pool.replay_append.mp hpool
  obtain ⟨q, hq, -⟩ := Pool.replay_append.mp hpool
  have hwf : p.WellFormed := Pool.replay_wellFormed hreach.wellFormed hroom.append_left hp
  have hturns := Pool.takesTurns_of_failing hwf (hroom.append_right hp).append_left hq
  rwa [Pool.replay_connections hp] at hturns

/-- Two requests of three attempts each, and no node answers: six attempts go to two nodes. -/
theorem serve_takesTurns_down :
    let fails := (twoNodes.serve .down [.search, .search]).2.sentSince twoNodes
    twoNodes.pool.Reachable ∧
      twoNodes.pool.HasRoom ((twoNodes.serve .down [.search, .search]).2.stepsSince twoNodes) ∧
      (∀ x ∈ fails, x.reply.fails = true) ∧ fails.length = 6 ∧
      Pool.TakesTurns twoNodes.pool.connections (fails.map (·.connection)) := by
  intro fails
  have hreach : twoNodes.pool.Reachable := .setConnections _ _ .empty
  have hroom : twoNodes.pool.HasRoom
      ((twoNodes.serve .down [.search, .search]).2.stepsSince twoNodes) := by
    unfold Pool.HasRoom
    decide +kernel
  obtain ⟨⟨hist, hran⟩, hall⟩ :=
    serve_takesTurns .down [.search, .search] hreach hroom
  have hfails : ∀ x ∈ fails, x.reply.fails = true := by decide +kernel
  have hran' := hran.completed (by decide +kernel)
  exact ⟨hreach, hroom, hfails, by decide +kernel,
    hall _ hran' [] [] fails (by simp [fails]) hfails⟩

end ClusterOutput.Session
