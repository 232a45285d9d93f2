import Lightspeed.Session.DriveKept

/-!
# What the loop keeps outside the drive

The beginning of a session, and what a pass serves before the drive.
-/

namespace Lightspeed.Session

open Lib Harness Program

variable {args : AgentSessionArgs}
  {meets : (request : SessionRequest) → AgentSessionWorkflow → SessionReply request → Prop}
  {allowed : DriveInput → Prop} {I J P : AgentSessionWorkflow → Prop} {s t : AgentSessionWorkflow}

/-! ## Beginning -/

theorem Kept.appendCommand (h : Kept args meets allowed I) (command : CoreAgentCommand) :
    SessionKeeps meets P I (appendCommand args command) := by
  refine .bind (h.admitAndAppendCommand command) fun result => ?_
  cases result with
  | accepted => exact .pure _
  | rejected => exact keeps_raise trivial

theorem Kept.openNewSession (h : Kept args meets allowed I) :
    SessionKeeps meets P I (openNewSession args) := by
  refine .bind (h.ask fun _ => trivial) fun reply => ?_
  cases reply with
  | none => exact keeps_raise trivial
  | some instructionsRef => exact .bind (h.appendCommand _) fun _ => h.appendCommand _

theorem Kept.failUnsafeCodeToolCalls (h : Kept args meets allowed I) :
    SessionKeeps meets P I (failUnsafeCodeToolCalls args) := by
  refine .bind keeps_read fun s => ?_
  dsimp only
  split
  · exact .pure _
  · refine .bind h.putBoundaryErrorBlob fun errorRef => .forM fun origin => ?_
    exact .bind (h.admitAndAppendCommand _) fun _ => .pure _

theorem Kept.failInterruptedRun (h : Kept args meets allowed I) :
    SessionKeeps meets P I (failInterruptedRun args) := by
  refine .bind keeps_read fun s => ?_
  split
  · exact .pure _
  · exact .bind h.putRefusalBlob fun _ => h.appendCommand _

theorem Kept.recoverInterruptedWork (h : Kept args meets allowed I) :
    SessionKeeps meets P I (recoverInterruptedWork args) := by
  refine .bind (h.change fun _ => .queues rfl rfl rfl rfl rfl rfl rfl) fun _ => ?_
  refine .bind h.failUnsafeCodeToolCalls fun _ => .bind h.failInterruptedRun fun _ => ?_
  refine .bind (h.change fun _ => .queues rfl rfl rfl rfl rfl rfl rfl) fun _ => ?_
  exact h.change fun _ => ⟨rfl, rfl, rfl, rfl, fun _ => rfl, id, .inr (.inl rfl)⟩

/-! ## Serving -/

/-- A satisfied wait is claimed with an unpark, and nothing else changes. -/
theorem Kept.processSatisfiedAwait (h : Kept args meets allowed I)
    (hunpark : ∀ s command, I s →
      I { s with pendingToolBatchUnparks := s.pendingToolBatchUnparks ++ [command] }) :
    SessionKeeps meets P I processSatisfiedAwait := by
  have houtput : ∀ core suspension, SessionKeeps meets P I (unparkOutput core suspension) := by
    intro core suspension
    cases suspension with
    | awaitTool callId spec =>
      refine .bind (h.ask fun _ => trivial) fun reply => ?_
      cases reply with
      | none => exact keeps_raise trivial
      | some materialized => exact .pure _
    | joinedWorkflowCalls calls spec =>
      unfold unparkOutput
      dsimp only
      split
      · refine .bind (h.ask fun _ => trivial) fun reply => ?_
        cases reply with
        | none => exact keeps_raise trivial
        | some entries => exact .pure _
      · exact .pure _
  refine .bind keeps_read fun s => ?_
  split
  · exact .pure _
  · refine .bind (houtput _ _) fun output => ?_
    exact Preserves.act fun t ht => hunpark t _ ht

theorem Kept.serve (h : Kept args meets allowed I)
    (hunpark : ∀ s command, I s →
      I { s with pendingToolBatchUnparks := s.pendingToolBatchUnparks ++ [command] }) :
    SessionKeeps meets P I (serve args) := by
  refine .bind h.processPendingCodeTools fun _ => .bind h.flushPendingEmissions fun _ => ?_
  refine .bind h.processPendingSourceResolutions fun _ => .bind h.processPendingStarts fun _ => ?_
  refine .bind h.flushPendingPromiseCancellations fun _ => .bind h.processExecutionCancels fun _ => ?_
  refine .bind (h.processSatisfiedAwait hunpark) fun _ => ?_
  exact .bind h.processDuePromiseDeadlines fun _ => h.processDue

theorem reconciled_beside (s : AgentSessionWorkflow) (nowMs : Nat) :
    Beside s ((s.reconcileCancellingWatchdog nowMs).reconcilePolls nowMs) :=
  .queues rfl rfl rfl rfl rfl rfl rfl

end Lightspeed.Session
