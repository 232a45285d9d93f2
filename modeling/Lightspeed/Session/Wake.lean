import Lightspeed.Session.Services

/-!
# Waking

The predicates of `wait_loop.rs` and the watchdog: when the session loop has something to do, at what time
it will have, and what holds a continue-as-new back.
-/

namespace Lightspeed.Session

open Lib Harness

/-! ## The watchdog -/

def cancellingWatchdogMs : Nat := 60000

/-- `cancelling_run_id`. -/
def cancellingRunId (core : CoreAgentState) : Option RunId :=
  (core.runs.active.filter fun run => run.status == .cancelling).map ActiveRun.runId

/-- `next_cancelling_watchdog`. -/
def nextCancellingWatchdog (cancelling : Option RunId) (previous : Option CancellingWatchdog)
    (nowMs : Nat) : Option CancellingWatchdog :=
  cancelling.map fun runId =>
    match previous with
    | some watchdog => if watchdog.runId = runId then watchdog else ⟨runId, nowMs⟩
    | none => ⟨runId, nowMs⟩

/-- `reconcile_cancelling_watchdog_for_state`. -/
def AgentSessionWorkflow.reconcileCancellingWatchdog (s : AgentSessionWorkflow) (nowMs : Nat) :
    AgentSessionWorkflow :=
  { s with cancellingWatchdog :=
      nextCancellingWatchdog (cancellingRunId s.coreState) s.cancellingWatchdog nowMs }

/-- `cancelling_watchdog_wake_ms`. -/
def cancellingWatchdogWake? (s : AgentSessionWorkflow) : Option Nat :=
  s.cancellingWatchdog.map fun watchdog => saturatingAdd watchdog.sinceMs cancellingWatchdogMs

/-- The run that has been cancelling past the watchdog's deadline. -/
def expiredRun? (s : AgentSessionWorkflow) : Option RunId := do
  let watchdog ← s.cancellingWatchdog
  if saturatingAdd watchdog.sinceMs cancellingWatchdogMs ≤ s.nowMs ∧
      cancellingRunId s.coreState = some watchdog.runId then some watchdog.runId
  else none

/-! ## Immediate work -/

/-- `is_closed_and_quiescent`. -/
def isClosedAndQuiescent (s : AgentSessionWorkflow) : Bool :=
  codeToolsQuiescent s && s.coreState.lifecycle.status == .closed && s.runPreparation.isNone &&
    s.pendingToolsets.isEmpty && s.pendingAdmissions.isEmpty &&
    s.pendingToolBatchUnparks.isEmpty && s.pendingEmissions.isEmpty &&
    s.pendingSourceResolutions.isEmpty && s.pendingPromiseCancellations.isEmpty &&
    s.pendingExecutionCancels.isEmpty && s.coreState.runs.active.isNone &&
    s.coreState.runs.queued.isEmpty

/-- Whether an active run goes on without waiting: on a parked batch, or parked on approvals. -/
def runNeedsDrive (core : CoreAgentState) (run : ActiveRun) : Bool :=
  (parkedToolBatch core).isNone && !(run.status == .parked && !run.pendingApprovals.isEmpty)

/-- Whether the core state has something for the drive. -/
def coreNeedsDrive (core : CoreAgentState) : Bool :=
  -- A queued run waits behind an active one, so it is no work while that one is parked.
  (core.runs.active.isNone && !core.runs.queued.isEmpty) || core.context.compaction.isPending ||
    core.runs.active.any (runNeedsDrive core)

/-- `workflow_state_needs_core_drive_for_state`. -/
def needsCoreDrive (s : AgentSessionWorkflow) : Bool :=
  s.ready && ((!s.pendingToolsets.isEmpty && !toolsFrozen s.coreState) || coreNeedsDrive s.coreState)

/-- `workflow_state_has_immediate_work`. -/
def stateHasImmediateWork (s : AgentSessionWorkflow) : Bool :=
  isClosedAndQuiescent s || (!s.ready && s.setupRequested) || hasAdmissibleAdmissions s ||
    !s.pendingToolBatchUnparks.isEmpty || hasCodeToolWork s || hasDueEmissions s 0 ||
    !s.pendingSourceResolutions.isEmpty || !s.pendingPromiseCancellations.isEmpty ||
    !s.pendingExecutionCancels.isEmpty || hasSatisfiedAwait s || hasImmediatePoll s ||
    hasImmediateStart s || needsCoreDrive s

/-! ## Times -/

/-- The times of `nearest_workflow_wake_ms_for_state`. -/
def wakeTimes (s : AgentSessionWorkflow) : List Nat :=
  (awaitDeadline? s).toList ++ pollTimes s ++ (cancellingWatchdogWake? s).toList ++
    emissionRetries s ++ startBackoffTimes s ++ promiseDeadlines s ++ codeToolDeadlines s

/-- `nearest_workflow_wake_ms_for_state`. -/
def nearestWake (s : AgentSessionWorkflow) : Option Nat := (wakeTimes s).min?

/-- `workflow_has_immediate_work`. -/
def hasImmediateWork (s : AgentSessionWorkflow) (nowMs : Nat) : Bool :=
  stateHasImmediateWork s || (nearestWake s).any fun deadline => deadline ≤ nowMs

/-! ## Rolling over -/

def defaultContinueAsNewHistoryThreshold : Nat := 10000

/-- `outer_loop_can_clear_now`. -/
def outerLoopCanClear (s : AgentSessionWorkflow) (nowMs : Nat) : Bool :=
  hasAdmissibleAdmissions s || !s.pendingToolBatchUnparks.isEmpty || hasDueEmissions s nowMs ||
    !s.pendingSourceResolutions.isEmpty || !s.pendingPromiseCancellations.isEmpty ||
    hasCodeToolWork s || hasDueStart s nowMs

/-- `forget_ended_rollover_blockers`. -/
def AgentSessionWorkflow.forgetEndedRolloverBlockers (s : AgentSessionWorkflow) (nowMs : Nat) :
    AgentSessionWorkflow :=
  (s.reconcileCancellingWatchdog nowMs).forgetStaleBackoffs

/-- `transport_work_due`. -/
def transportWorkDue (s : AgentSessionWorkflow) (nowMs : Nat) : Bool :=
  hasDueEmissions s nowMs || !s.pendingSourceResolutions.isEmpty ||
    !s.pendingPromiseCancellations.isEmpty || hasDueStart s nowMs ||
    hasDuePromiseDeadline s nowMs || !s.pendingExecutionCancels.isEmpty

/-- `should_continue_as_new`. -/
def shouldContinueAsNew (suggested : Bool) (historyLength : Nat) (threshold : Option Nat) : Bool :=
  suggested || threshold.getD defaultContinueAsNewHistoryThreshold ≤ historyLength

/-- `history_rollover_due`. -/
def historyRolloverDue (args : AgentSessionArgs) (s : AgentSessionWorkflow) : Bool :=
  s.executionHasRolloverCheckpoint &&
    shouldContinueAsNew s.continueAsNewSuggested s.historyLength args.continueAsNewHistoryThreshold

/-- `all_handlers_finished`: an update handler waits for its code tool request. -/
def allHandlersFinished (s : AgentSessionWorkflow) : Bool := s.codeTools.waiters == 0

/-- `workflow_state_allows_continue_as_new`. -/
def allowsContinueAsNew (s : AgentSessionWorkflow) : Bool :=
  s.ready && codeToolsQuiescent s && s.runPreparation.isNone && s.pendingToolsets.isEmpty &&
    s.pendingAdmissions.isEmpty && s.pendingToolBatchUnparks.isEmpty &&
    s.pendingEmissions.isEmpty && s.pendingSourceResolutions.isEmpty &&
    s.pendingPromiseCancellations.isEmpty && s.workflowStartBackoffs.entries.isEmpty &&
    s.cancellingWatchdog.isNone

/-- `workflow_state_should_complete`. -/
def shouldComplete (s : AgentSessionWorkflow) : Bool :=
  allHandlersFinished s && isClosedAndQuiescent s

/-- `can_continue_as_new`. -/
def canContinueAsNew (args : AgentSessionArgs) (s : AgentSessionWorkflow) : Bool :=
  !shouldComplete s && allHandlersFinished s && allowsContinueAsNew s && historyRolloverDue args s

end Lightspeed.Session
