import Lightspeed.Session.Wake

/-!
# The drive loop

`drive.rs`, `control.rs` and the rest of the watchdog: the harness's drive, run until it is idle. An effect
races the admissions that arrive meanwhile. A refused step fails only the work it was about, and a drive
that has come to rest rejects the approvals nobody can give and closes a session that is done.
-/

namespace Lightspeed.Session

open Lib Harness

/-- `DriveOutcome`. -/
inductive DriveOutcome where
  | idle
  | yieldForWorkflowWork
  | continueAsNew
  deriving DecidableEq

/-! ## Boundaries -/

/-- `history_boundary_outcome_for`. -/
def historyBoundaryOutcomeFor (rolloverDue continuationSafe outerLoopCanClear : Bool) :
    Option DriveOutcome :=
  if ¬ rolloverDue then none
  else if continuationSafe then some .continueAsNew
  else if outerLoopCanClear then some .yieldForWorkflowWork
  else none

/-- `history_boundary_outcome`. -/
def historyBoundaryOutcome (args : AgentSessionArgs) (s : AgentSessionWorkflow) :
    Option DriveOutcome :=
  historyBoundaryOutcomeFor (historyRolloverDue args s)
    (allHandlersFinished s && allowsContinueAsNew s) (outerLoopCanClear s s.nowMs)

/-- The state after a commit, in `drive_boundary_after_commit`. -/
def AgentSessionWorkflow.committed (s : AgentSessionWorkflow) : AgentSessionWorkflow :=
  { s with executionHasRolloverCheckpoint := true }.forgetEndedRolloverBlockers s.nowMs

/-- `drive_boundary_after_commit`. -/
def driveBoundaryAfterCommit (args : AgentSessionArgs) : SessionProgram (Option DriveOutcome) := do
  changeState AgentSessionWorkflow.committed
  let s ← readState
  pure ((historyBoundaryOutcome args s).or
    (if transportWorkDue s s.nowMs then some .yieldForWorkflowWork else none))

/-! ## Pending tools -/

/-- The loop of `publish_pending_tools`, at one toolset: a run whose tools cannot be published is
cancelled. -/
def publishPendingToolset (args : AgentSessionArgs) (pending : PendingToolset) :
    SessionProgram Unit := do
  if ← publishTools args pending.prepared then pure ()
  else
    match ← Program.attempt (admitAndAppendCommand args (.cancelRun pending.runId)) with
    | .ok .accepted => pure ()
    | _ => raise .fatal

/-- The loop of `publish_pending_tools`: it stops at a session that is not open. -/
def publishPendingToolsets (args : AgentSessionArgs) : List PendingToolset → SessionProgram Unit
  | [] => pure ()
  | pending :: rest => do
    let s ← readState
    if s.coreState.lifecycle.status ≠ .open then pure ()
    else
      publishPendingToolset args pending
      publishPendingToolsets args rest

/-- `publish_pending_tools`: whether there were any. -/
def publishPendingTools (args : AgentSessionArgs) : SessionProgram Bool := do
  let s ← readState
  if toolsFrozen s.coreState then pure false
  else
    let pending ← takeState fun s => (s.pendingToolsets, { s with pendingToolsets := [] })
    publishPendingToolsets args pending
    pure (!pending.isEmpty)

/-! ## Effects -/

/-- `generation_still_wanted`. -/
def generationStillWanted (runId : RunId) (turnId : TurnId) (core : CoreAgentState) : Bool :=
  core.runs.active.any fun run =>
    run.runId == runId && run.status == .running && run.activeTurnId == some turnId

/-- The wish of `call_context_compact`. -/
def compactionStillWanted (runId : Option RunId) (core : CoreAgentState) : Bool :=
  core.context.compaction.isPending && runId.all fun runId =>
    core.runs.active.any fun run => run.runId == runId && run.status == .running

/-- `tool_batch_abandoned`. -/
def toolBatchAbandoned (runId : RunId) (batchId : ToolBatchId) (core : CoreAgentState) : Bool :=
  !core.runs.active.any fun run =>
    run.runId == runId && (run.status == .running || run.status == .parked) &&
      run.activeToolBatchId == some batchId

/-- A result of an effect, committed. -/
def commitResume (args : AgentSessionArgs) (input : DriveInput) : SessionProgram Unit := do
  let s ← readState
  match proposeEntries args.sessionId s.coreState (s.nowMs, input) with
  | .ok entries => appendEvents args entries
  | .error _ => raise .refused

/-- An effect goes on while it is wanted; only a tool batch has more than one result. -/
def effectRound (args : AgentSessionArgs) (effect : Effect) (wanted : CoreAgentState → Bool) :
    SessionProgram (Unit ⊕ Unit) := do
  match ← ask (.effect effect) with
  | .over => pure (.inr ())
  | .failed => raise .fatal
  | .admissions =>
    let _ ← drainPendingAdmissions args
    let s ← readState
    pure (if wanted s.coreState then .inl () else .inr ())
  | .resume input =>
    commitResume args input
    let s ← readState
    pure (if effect = .invokeTools ∧ wanted s.coreState then .inl () else .inr ())

/-- `race_activity_with_admissions` and the loop of `execute_call_group`, with what they commit. -/
def callEffect (args : AgentSessionArgs) (effect : Effect) (wanted : CoreAgentState → Bool) :
    SessionProgram Unit :=
  .loop (fun (_ : Unit) => effectRound args effect wanted) ()

def cancelToolId : ToolId := "concurrency.cancel"
def detachToolId : ToolId := "concurrency.detach"

/-- Whether `promise_control_argument_request` asks for anything. -/
def hasPromiseControls (request : ToolInvocationBatchRequest) : Bool :=
  request.calls.any fun call => call.toolId == some cancelToolId || call.toolId == some detachToolId

/-- The `InvokeTools` arm of `drive_until_idle`. -/
def invokeTools (args : AgentSessionArgs) (request : ToolInvocationBatchRequest) :
    SessionProgram Unit := do
  if hasPromiseControls request then
    match ← ask .preparePromiseControls with
    | .error error => raise error
    | .ok _ => pure ()
  callEffect args .invokeTools fun core => !toolBatchAbandoned request.runId request.batchId core

/-! ## At rest -/

/-- `provider_mcp_approval_response` of a rejection. -/
def rejectedMcpResponse (providerRequestId : String) : ContextEntryInput where
  kind := .mcpApprovalResponse providerRequestId false
  content :=
    { contentRef := .fromBytes ("\x7b\"approval_request_id\":" ++ providerRequestId.quote ++
        ",\"approve\":false,\"type\":\"mcp_approval_response\"\x7d")
      mediaType := some "application/json"
      providerKind := some "openai.responses.mcp_approval_response" }
  preview := some "MCP tool call auto-rejected in unattended session"

def autoRejectNote : String :=
  "approval required, but no approval surface reaches this session"

/-- The response that a rejection gives the provider, stored first. -/
def rejectionResponse : ApprovalContinuation → SessionProgram (Option ContextEntryInput)
  | .providerMcp providerRequestId => do
    match ← ask .putBlob with
    | none => raise .fatal
    | some _ => pure (some (rejectedMcpResponse providerRequestId))
  | .runtimeMcp _ _ => pure none

/-- The loop of `auto_reject_pending_approvals`, at one approval. -/
def rejectApproval (args : AgentSessionArgs) (runId : RunId) (approval : ApprovalRequested) :
    SessionProgram Unit := do
  let response ← rejectionResponse approval.continuation
  match ← admitAndAppendCommand args (.decideApproval
      { runId, approvalId := approval.approvalId, decision := .rejected
        note := some autoRejectNote, response }) with
  | .accepted => pure ()
  | .rejected => raise .fatal

/-- `auto_reject_pending_approvals`: whether there were any. -/
def autoRejectPendingApprovals (args : AgentSessionArgs) : SessionProgram Bool := do
  let s ← readState
  match s.coreState.runs.active with
  | none => pure false
  | some run =>
    let pending := run.pendingApprovals.map ApprovalRecord.request
    pending.forM (rejectApproval args run.runId)
    pure (!pending.isEmpty)

/-- `should_close_on_terminal`. -/
def shouldCloseOnTerminal (args : AgentSessionArgs) (core : CoreAgentState) : Bool :=
  args.closeOnTerminal && core.lifecycle.status == .open && !core.runs.finished.isEmpty &&
    core.runs.active.isNone && core.runs.queued.isEmpty && !core.context.compaction.isPending &&
    !core.promises.pending.any fun promise => promise.scope == .session

/-- `maybe_close_on_terminal`. -/
def maybeCloseOnTerminal (args : AgentSessionArgs) : SessionProgram Unit := do
  let s ← readState
  if ¬ shouldCloseOnTerminal args s.coreState then pure ()
  else
    let _ ← admitAndAppendCommand args (.closeSession false)

/-- The approvals that the `Idle` arm rejects: whether there were any. -/
def rejectApprovals (args : AgentSessionArgs) : SessionProgram Bool :=
  if args.autoRejectApprovals then autoRejectPendingApprovals args else pure false

/-- The `Idle` arm of `drive_until_idle`: whether the drive is at rest. -/
def comeToRest (args : AgentSessionArgs) : SessionProgram Bool := do
  if ← rejectApprovals args then pure false
  else
    maybeCloseOnTerminal args
    pure true

/-! ## The loop -/

/-- `next_action_unbounded` of the live drive. -/
def planAction (args : AgentSessionArgs) : SessionProgram CoreAgentAction := do
  let s ← readState
  match nextActionUnbounded args.sessionId s.coreState s.nowMs with
  | .ok action => pure action
  | .error _ => raise .refused

/-- The plan again, when something was admitted or published. -/
def replan (args : AgentSessionArgs) (changed : Bool) (action : CoreAgentAction) :
    SessionProgram CoreAgentAction :=
  if changed then planAction args else pure action

/-- The arms of `drive_until_idle`: whether the drive is at rest. -/
def carryOut (args : AgentSessionArgs) : CoreAgentAction → SessionProgram Bool
  | .appendEvents entries => do
    appendEvents args entries
    pure false
  | .generateLlm request => do
    callEffect args .generate (generationStillWanted request.runId request.turnId)
    pure false
  | .compactContext _ => do
    let s ← readState
    callEffect args .compact (compactionStillWanted
      (s.coreState.context.compaction.pendingPlan.bind ContextCompactionPlan.runId))
    pure false
  | .invokeTools request => do
    invokeTools args request
    pure false
  | .idle | .closed => comeToRest args

/-- The loop of `drive_until_idle`. -/
def driveRound (args : AgentSessionArgs) (action : CoreAgentAction) :
    SessionProgram (CoreAgentAction ⊕ DriveOutcome) := do
  let published ← publishPendingTools args
  let action ← replan args published action
  -- Admissions land at every action boundary, and the plan is made again.
  let drained ← drainPendingAdmissions args
  let action ← replan args drained action
  if ← carryOut args action then pure (.inr .idle)
  else
    match ← driveBoundaryAfterCommit args with
    | some outcome => pure (.inr outcome)
    | none =>
      let action ← planAction args
      pure (.inl action)

/-- `drive_until_idle`. -/
def driveUntilIdle (args : AgentSessionArgs) : SessionProgram DriveOutcome := do
  let s ← readState
  match historyBoundaryOutcome args s with
  | some outcome => pure outcome
  | none =>
    if s.coreState.lifecycle.status = .closed then
      changeState AgentSessionWorkflow.abandonPendingRun
    let _ ← publishPendingTools args
    let action ← planAction args
    .loop (driveRound args) action

/-! ## Refusals -/

/-- `put_refusal_blob`. -/
def putRefusalBlob : SessionProgram BlobRef := do
  let stored ← ask .putBlob
  pure (stored.getD (.fromBytes runInternalFailureContent))

/-- The compaction of `fail_refused_work`. -/
def failedCompaction (args : AgentSessionArgs) (core : CoreAgentState) (failureRef : BlobRef) :
    ContextCompactionResult where
  sessionId := args.sessionId
  contextRevision := core.context.revision
  status := .failed
  failureRef := some failureRef

/-- The append of a failed compaction: a refusal of it is fatal. -/
def failRefusedCompaction (args : AgentSessionArgs) (failureRef : BlobRef) :
    SessionProgram Unit := do
  let s ← readState
  match proposeEntries args.sessionId s.coreState
      (s.nowMs, .resumeContextCompaction (failedCompaction args s.coreState failureRef)) with
  | .error _ | .ok [] => raise .fatal
  | .ok entries =>
    match ← Program.attempt (appendEvents args entries) with
    | .ok _ => pure ()
    | .error _ => raise .fatal

/-- `fail_refused_work`. -/
def failRefusedWork (args : AgentSessionArgs) : SessionError → SessionProgram Unit
  | .fatal => raise .fatal
  | .refused => do
    let s ← readState
    match s.coreState.runs.active with
    | some run =>
      let messageRef ← putRefusalBlob
      match ← Program.attempt (admitAndAppendCommand args (.failRun run.runId messageRef)) with
      | .ok .accepted => pure ()
      | _ => raise .fatal
    | none =>
      if ¬ s.coreState.context.compaction.isPending then raise .refused
      else
        let failureRef ← putRefusalBlob
        failRefusedCompaction args failureRef

/-- `drive_past_refusals`. -/
def drivePastRefusals (args : AgentSessionArgs) (step : SessionProgram DriveOutcome) :
    SessionProgram DriveOutcome := do
  let result ← Program.attempt step
  .loop (fun (result : Except SessionError DriveOutcome) =>
    match result with
    | .ok outcome => pure (.inr outcome)
    | .error error => do
      failRefusedWork args error
      let result ← Program.attempt (driveUntilIdle args)
      pure (.inl result)) result

/-! ## Unparks and the watchdog -/

/-- `process_pending_tool_batch_unparks`, at one unpark: only a claim that events overtook is
rejected. -/
def unparkToolBatch (args : AgentSessionArgs) (unpark : UnparkToolBatchCommand) :
    SessionProgram Unit := do
  let _ ← admitAndAppendCommand args (.unparkToolBatch unpark)

/-- `process_pending_tool_batch_unparks`. -/
def processPendingToolBatchUnparks (args : AgentSessionArgs) : SessionProgram DriveOutcome := do
  let unparks ← takeState fun s =>
    (s.pendingToolBatchUnparks, { s with pendingToolBatchUnparks := [] })
  if unparks.isEmpty then pure .idle
  else
    unparks.forM (unparkToolBatch args)
    driveUntilIdle args

/-- `process_cancelling_watchdog`. -/
def processCancellingWatchdog (args : AgentSessionArgs) : SessionProgram DriveOutcome := do
  let s ← readState
  match expiredRun? s with
  | none => pure .idle
  | some runId =>
    match ← admitAndAppendCommand args (.forceCancelRun runId) with
    | .rejected => pure .idle
    | .accepted =>
      changeState fun s => { s with cancellingWatchdog := none }
      driveUntilIdle args

end Lightspeed.Session
