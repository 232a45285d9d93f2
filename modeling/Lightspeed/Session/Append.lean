import Lightspeed.Session.Data

/-!
# Appending events

`append_events` and `admit_and_append_command` of `drive.rs`: every change of the core state. What an
append means for the queues is read from each entry as it applies: the executions to cancel, the receivers
to tell, the emissions to send, and the runs that detached promises start.
-/

namespace Lightspeed.Session

open Lib Harness

/-! ## Parked batches -/

/-- `ParkedBatchView` of `awaits.rs`. -/
structure ParkedBatchView where
  runId : RunId
  batchId : ToolBatchId
  suspension : ToolBatchSuspension

/-- `parked_tool_batch`. -/
def parkedToolBatch (core : CoreAgentState) : Option ParkedBatchView := do
  let run ← core.runs.active
  let parked ← run.parkedToolBatch
  let batch ← run.toolBatches.get? parked.batchId
  some ⟨batch.runId, parked.batchId, parked.suspension⟩

/-! ## What an entry means for the queues -/

/-- The promise that an event settles. -/
def settledPromise? : CoreAgentEvent → Option PromiseId
  | .promise (.resolved id _) | .promise (.failed id _) | .promise (.cancelled id) => some id
  | _ => none

/-- `promise_deadline_exceeded_ref`. -/
def promiseDeadlineExceededRef : BlobRef :=
  .fromBytes "deadline exceeded: no result arrived before this call's completion deadline\n"

/-- The promise whose receiver hears that the session stops waiting for it. -/
def abandonedPromise? : CoreAgentEvent → Option PromiseId
  | .promise (.cancelled id) => some id
  | .promise (.failed id errorRef) =>
    if errorRef = some promiseDeadlineExceededRef then some id else none
  | _ => none

/-- `queue_promise_cancellation_for_entry`. -/
def AgentSessionWorkflow.queuePromiseCancellation (s : AgentSessionWorkflow)
    (entry : CoreAgentEntry) : AgentSessionWorkflow :=
  match (abandonedPromise? entry.event).bind s.coreState.promises.promises.get? with
  | some promise =>
    { s with pendingPromiseCancellations :=
        s.pendingPromiseCancellations ++ [⟨promise.promiseId, promise.source⟩] }
  | none => s

/-- The start-on-call invocation that a promise is a completion of. -/
def startedInvocation? (core : CoreAgentState) (id : PromiseId) : Option WorkflowToolInvocation :=
  match (core.promises.promises.get? id).map Promise.source with
  | some (.workflow _ _ invocationId _) => core.workflowTools.startRequests.get? invocationId
  | _ => none

/-- The execution of a start-on-call invocation. -/
def startOf? (core : CoreAgentState) (invocation : WorkflowToolInvocation) : Option WorkflowStartRef :=
  match (core.workflowTools.bindings.get? invocation.workflowToolId).map WorkflowToolBinding.target with
  | some (.start start) => some start
  | _ => none

/-- `queue_execution_cancel_for_entry`. -/
def AgentSessionWorkflow.queueExecutionCancel (s : AgentSessionWorkflow) (entry : CoreAgentEntry) :
    AgentSessionWorkflow :=
  match (settledPromise? entry.event).bind (startedInvocation? s.coreState) with
  | none => s
  | some invocation =>
    match startOf? s.coreState invocation with
    | none => s
    | some start =>
      let executionId := workflowToolExecutionId invocation.invocationId start.recipeFingerprint
      if invocation.promiseIds.any (isPendingPromise s.coreState) ∨
          executionId ∈ s.pendingExecutionCancels then s
      else { s with pendingExecutionCancels := s.pendingExecutionCancels ++ [executionId] }

/-- `DetachedPromiseFollowup`: a promise of the session that settled, as it was then. -/
structure DetachedPromiseFollowup where
  promiseId : PromiseId
  status : PromiseStatus

/-- `detached_promise_followup_for_entry`. -/
def detachedPromiseFollowup? (core : CoreAgentState) (entry : CoreAgentEntry) :
    Option DetachedPromiseFollowup :=
  match entry.event with
  | .promise (.resolved id _) | .promise (.failed id _) =>
    match core.promises.promises.get? id with
    | none => none
    | some promise =>
      if promise.scope ≠ .session ∨ ¬ promise.status.isTerminal ∨
          (parkedToolBatch core).any (fun parked => id ∈ parked.suspension.spec.promiseIds) then none
      else some ⟨id, promise.status⟩
  | _ => none

/-- `apply_appended_entry`. -/
def AgentSessionWorkflow.applyAppendedEntry (s : AgentSessionWorkflow) (entry : CoreAgentEntry) :
    Option (AgentSessionWorkflow × Option DetachedPromiseFollowup) :=
  match applyEvent s.coreState entry with
  | .error _ => none
  | .ok core =>
    let s := ({ s with coreState := core }.queueExecutionCancel entry).queuePromiseCancellation entry
    some (s, detachedPromiseFollowup? s.coreState entry)

/-- The loop of `append_events` over the entries. -/
def AgentSessionWorkflow.applyAppendedEntries (s : AgentSessionWorkflow) :
    List CoreAgentEntry → Option (AgentSessionWorkflow × List DetachedPromiseFollowup)
  | [] => some (s, [])
  | entry :: rest => do
    let (s, followup) ← s.applyAppendedEntry entry
    let (s, followups) ← s.applyAppendedEntries rest
    some (s, followup.toList ++ followups)

/-- `terminal_run_id_for_event`. -/
def terminalRunId? : CoreAgentEvent → Option RunId
  | .run (.completed runId _) | .run (.failed runId _) | .run (.cancelled runId)
  | .run (.forceCancelled runId) | .run (.queuedCancelled runId) => some runId
  | _ => none

/-- `run_terminal_emissions`. -/
def runTerminalEmissions (record : RunRecord) : List PendingEmission :=
  record.notifyOnTerminal.map fun intent =>
    { receiverWorkflowId := intent.holderWorkflowId
      body := .runTerminal intent.token record.runId record.status }

/-- `queue_emissions_for_entries`, for one entry. -/
def emissionsForEntry (core : CoreAgentState) (entry : CoreAgentEntry) :
    Option (List PendingEmission) :=
  match entry.event with
  | .workflowTool (.invoked invocation) =>
    match (core.workflowTools.bindings.get? invocation.workflowToolId).map WorkflowToolBinding.target with
    | some (.bound receiver .push) =>
      some [{ receiverWorkflowId := receiver.workflowId, body := .toolInvocation invocation }]
    | some (.bound _ .pull) => some []
    | _ => none
  | event =>
    match (terminalRunId? event).bind
        (fun runId => core.runs.finished.find? (fun record => record.runId == runId)) with
    | some record => some (runTerminalEmissions record)
    | none => some []

/-- `abandon_pending_run`. -/
def AgentSessionWorkflow.abandonPendingRun (s : AgentSessionWorkflow) : AgentSessionWorkflow :=
  { s with runPreparation := none }

/-- What `append_events` makes of the entries that were stored: the state, and the promises that start
a run. -/
def AgentSessionWorkflow.applyAppended (s : AgentSessionWorkflow) (entries : List CoreAgentEntry) :
    Option (AgentSessionWorkflow × List DetachedPromiseFollowup) := do
  let (s, followups) ← s.applyAppendedEntries entries
  let emissions ← entries.mapM (emissionsForEntry s.coreState)
  let s := { s with
    pendingEmissions := s.pendingEmissions ++ emissions.flatten
    executionHasRolloverCheckpoint := true }
  some (if s.coreState.lifecycle.status = .closed then
      { s.abandonPendingRun with pendingToolsets := [] }
    else s, followups)

/-! ## Storing -/

/-- The store's answer to an append, applied. -/
def storeEntries (entries : List CoreAgentEntry) : SessionProgram (List DetachedPromiseFollowup) := do
  match ← ask (.appendEvents entries) with
  | .refused => raise .refused
  | .failed => raise .fatal
  | .stored =>
    let followups ← takeState fun s =>
      match s.applyAppended entries with
      | some (t, followups) => (some followups, t)
      | none => (none, s)
    match followups with
    | some followups => pure followups
    | none => raise .fatal

/-- The removal of a context entry that has lost its source. A refusal of it is fatal. -/
def removeInvalid (args : AgentSessionArgs) (invalidKey : CoreAgentState → Option ContextEntryKey) :
    SessionProgram Unit := do
  let s ← readState
  match invalidKey s.coreState with
  | none => pure ()
  | some key =>
    match proposeEntries args.sessionId s.coreState (s.nowMs, .admitCommand (.removeContext none key)) with
    | .error _ => raise .fatal
    | .ok [] => pure ()
    | .ok entries =>
      match ← Program.attempt (storeEntries entries) with
      | .ok _ => pure ()
      | .error _ => raise .fatal

/-- `detached_promise_submission_id`. -/
def detachedPromiseSubmissionId (id : PromiseId) : SubmissionId :=
  "detached_promise_" ++ digestText "detached_promise:" [id.text]

/-- `workflow_user_message_input`. -/
def workflowUserMessageInput (contentRef : BlobRef) (preview : Option String) : ContextEntryInput where
  kind := .message .user
  content := { contentRef }
  preview := preview

/-- `promise_status_name`. -/
def promiseStatusName : PromiseStatus → String
  | .pending => "pending"
  | .resolved => "resolved"
  | .failed => "failed"
  | .cancelled => "cancelled"

/-- The run that a detached promise starts. -/
def detachedPromiseRun (followup : DetachedPromiseFollowup) (summaryRef : BlobRef)
    (materialized : AwaitMaterialization) : CoreAgentCommand :=
  let label := "Detached promise " ++ followup.promiseId.text ++ " " ++ promiseStatusName followup.status
  .requestRun {
    submissionId := some (detachedPromiseSubmissionId followup.promiseId)
    source := ⟨[workflowUserMessageInput summaryRef (some label),
        workflowUserMessageInput materialized.resultRef (some (label ++ " content"))] ++
      materialized.additionalContext⟩ }

/-- The loop of `queue_detached_promise_followups`, at one promise. -/
def queueDetachedPromiseFollowup (followup : DetachedPromiseFollowup) : SessionProgram Unit := do
  match ← ask (.materializeAwaitResult [followup.promiseId]) with
  | none => raise .fatal
  | some materialized =>
    match ← ask .putBlob with
    | none => raise .fatal
    | some summaryRef =>
      changeState (·.queueAdmission (detachedPromiseRun followup summaryRef materialized))

/-- `queue_detached_promise_followups`. -/
def queueDetachedPromiseFollowups (followups : List DetachedPromiseFollowup) :
    SessionProgram Unit := do
  let s ← readState
  if s.coreState.lifecycle.status ≠ .open then pure ()
  else followups.forM queueDetachedPromiseFollowup

/-- `append_events`. -/
def appendEvents (args : AgentSessionArgs) (entries : List CoreAgentEntry) : SessionProgram Unit :=
  match entries with
  | [] => pure ()
  | _ => do
    let followups ← storeEntries entries
    args.sources.invalidKeys.forM (removeInvalid args)
    queueDetachedPromiseFollowups followups

/-! ## Commands -/

/-- `CommandAdmissionResult`. -/
inductive CommandAdmissionResult where
  | accepted
  | rejected

/-- `reissued_from_state`. -/
def reissuedFromState : CoreAgentCommand → Bool
  | .unparkToolBatch _ | .forceCancelRun _ | .failRun _ _ => true
  | _ => false

/-- The append of what a command proposes. The store's refusal rejects a command that has a sender. -/
def appendCommandEvents (args : AgentSessionArgs) (command : CoreAgentCommand)
    (entries : List CoreAgentEntry) : SessionProgram CommandAdmissionResult := do
  match ← Program.attempt (appendEvents args entries) with
  | .ok () => pure .accepted
  | .error .refused => if reissuedFromState command then raise .refused else pure .rejected
  | .error .fatal => raise .fatal

/-- `admit_and_append_command`. -/
def admitAndAppendCommand (args : AgentSessionArgs) (command : CoreAgentCommand) :
    SessionProgram CommandAdmissionResult := do
  let s ← readState
  if args.sources.publicationIsObsolete s.coreState command then pure .rejected
  else
    match proposeEntries args.sessionId s.coreState (s.nowMs, .admitCommand command) with
    | .error (.command (.rejected _ _)) => pure .rejected
    -- The reducer refused what admission proposed, and nothing was appended.
    | .error _ => if reissuedFromState command then raise .refused else pure .rejected
    | .ok entries => appendCommandEvents args command entries

end Lightspeed.Session
