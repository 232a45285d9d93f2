import Lightspeed.Harness.ForkPoint
import Lightspeed.Harness.GatedCalls
import Lightspeed.Harness.Inputs
import Lightspeed.Harness.Recovery

/-!
# Between appends

How a session stands when no append is under way, whatever was admitted, answered and planned before.
-/

namespace Lightspeed.Harness

open Lib

variable {sessionId : SessionId} {s : CoreAgentState} {log : List CoreAgentEntry}

/-- A session that waits for the decision on a call of a batch, with an approval of the provider's open. -/
theorem gatedRun_reached : ∃ s log, Reachable "session" s log ∧
    s.runs.active.any (fun run => run.pendingApprovals ≠ [] ∧ run.activeToolBatchId ≠ none) = true := by
  obtain ⟨⟨s, log⟩, hexec, hwaits⟩ : ∃ p ∈ (drive "session").exec (gatedRun [sampleApproval]),
      p.1.runs.active.any (fun run => run.pendingApprovals ≠ [] ∧ run.activeToolBatchId ≠ none) = true := by
    decide +kernel
  exact ⟨s, log, EventSource.exec_reaches hexec, hwaits⟩

/-- A run has a turn open or a batch, and never both. The open turn is its latest, and the open batch holds the
calls of the latest turn's answer, each under an id of its own. -/
structure ActiveRun.OneStep (run : ActiveRun) : Prop where
  alone : run.activeTurnId = none ∨ run.activeToolBatchId = none
  turn : ∀ id, run.activeTurnId = some id → ∃ turn, run.turns.last? = some (id, turn) ∧ turn.status.isOpen = true
  batch : ∀ id, run.activeToolBatchId = some id → ∃ batch turn facts, run.toolBatches.get? id = some batch ∧
    run.turns.last? = some (batch.turnId, turn) ∧ turn.facts = some facts ∧
    batch.calls.map (·.call) = facts.toolCalls ∧ (batch.calls.map (·.call.callId)).Nodup

theorem one_step_at_a_time (h : Reachable sessionId s log) : s.ForActive ActiveRun.OneStep := by
  intro run hactive
  have hrun := (reachable_inv h).1.run run hactive
  refine ⟨Classical.or_iff_not_imp_left.mpr hrun.openAlone, fun id hid => ?_, fun id hid => ?_⟩
  · obtain ⟨turn, hlast, hopen⟩ := hrun.openTurn id hid
    exact ⟨turn, hlast, hopen.status⟩
  · obtain ⟨batch, turn, facts, hget, -, -, hcalls, hlast, -, hfacts, hsame⟩ := hrun.openBatch id hid
    exact ⟨batch, turn, facts, hget, hlast, hfacts, hsame, hcalls.distinct⟩

theorem one_step_at_a_time_gatedRun : ∃ s log, Reachable "session" s log ∧ s.ForActive ActiveRun.OneStep := by
  obtain ⟨s, log, h, -⟩ := gatedRun_reached
  exact ⟨s, log, h, one_step_at_a_time h⟩

/-- The runs that a scan of the log finds open are the active one and the queued ones, each since the entry that
accepted it. -/
theorem open_runs_scanned (h : Reachable sessionId s log) (runId : RunId) (first : EventSeq) :
    openRange log runId = some first ↔ (runId, first) ∈ s.runs.openRuns :=
  (reachable_ranges h).opens runId first

theorem open_runs_scanned_gatedRun : ∃ s log, Reachable "session" s log ∧
    ∀ runId first, openRange log runId = some first ↔ (runId, first) ∈ s.runs.openRuns := by
  obtain ⟨s, log, h, -⟩ := gatedRun_reached
  exact ⟨s, log, h, open_runs_scanned h⟩

end Lightspeed.Harness
