import Lightspeed.Harness.ContextReduce
import Lightspeed.Harness.CodeTools

/-!
# Tool batches

The reducer of `components/tooling.rs` with the results that it records. A turn that ends in tool
calls opens one batch; each call of it is accepted or unavailable, then pending, then terminal; the
batch may park once on a suspension; and it completes when every call is terminal and every result
stands in context.
-/

namespace Lightspeed.Harness

open Lib

def maxRetainedSteeringBatches : Nat := 64

/-! ## Results -/

/-- `UNAVAILABLE_TOOL_RESULT_CONTENT`. -/
def unavailableToolResultContent : String :=
  "tool unavailable: this tool cannot be invoked in this session\n"

/-- `CANCELLED_TOOL_RESULT_CONTENT`. -/
def cancelledToolResultContent : String := "tool call cancelled before it completed\n"

/-- `AWAIT_REJECTED_CONTENT`. -/
def awaitRejectedContent : String :=
  "await rejected: a promise id is unknown, no longer retained or not awaitable by this run\n"

/-- `AWAIT_BATCH_CONFLICT_CONTENT`. -/
def awaitBatchConflictContent : String :=
  "tool call rejected: a batch may hold one await and no joined workflow tool beside it, and " ++
    "this call did not start\n"

/-- `RECEIVER_CANCELLED_CONTENT`. -/
def receiverCancelledContent : String := "tool call cancelled by its receiver\n"

/-- `EMPTY_SUCCESS_CONTENT`. -/
def emptySuccessContent : String := "tool call succeeded with no output\n"

/-- `FAILED_WITHOUT_DETAIL_CONTENT`. -/
def failedWithoutDetailContent : String := "tool call failed without detail\n"

/-- The one tool-result entry of a result that the harness writes itself. -/
def harnessResultEntry (call : ObservedToolCall) (status : ToolCallStatus) (content : BlobRef) :
    ContextEntryInput where
  kind := .toolResult call.callId status.isError
  content := { contentRef := content, providerKind := call.providerKind }

/-- A result that the harness writes itself, for a call that no executor answered. -/
def harnessToolResult (call : ObservedToolCall) (status : ToolCallStatus) (content : BlobRef) :
    ToolCallResult where
  callId := call.callId
  status := status
  modelVisibleContextEntries := [harnessResultEntry call status content]
  errorRef := some content

/-- `cancelled_tool_result`. -/
def cancelledToolResult (call : ObservedToolCall) : ToolCallResult :=
  harnessToolResult call .cancelled (.fromBytes cancelledToolResultContent)

/-- `unavailable_tool_result`. -/
def unavailableToolResult (call : ObservedToolCall) : ToolCallResult :=
  harnessToolResult call .unavailable (.fromBytes unavailableToolResultContent)

/-- Whether an entry is of the tool-result kind. -/
def ContextEntryKind.isToolResult : ContextEntryKind → Bool
  | .toolResult _ _ => true
  | _ => false

/-- The check of `validate_model_visible_tool_entries` on one entry. -/
def validateModelVisibleToolEntry (result : ToolCallResult) (entry : ContextEntryInput) :
    Result Unit :=
  let kind := entry.kind.debug
  match entry.kind with
  | .toolResult callId isError =>
    require (callId = result.callId ∧ isError = result.status.isError)
      (violation "tool-result context entry does not match terminal tool result")
  | .message .user | .providerOpaque => .ok ()
  | _ =>
    .error (violation
      s!"terminal tool result cannot add model-visible context entry kind {kind}")

/-- The entry with the call's provider kind, when it is a tool result that names none. -/
def withProviderKind (providerKind : Option String) (input : ContextEntryInput) :
    ContextEntryInput :=
  if input.kind.isToolResult ∧ input.content.providerKind.isNone then
    { input with content := { input.content with providerKind } }
  else input

/-- `tool_result_context_inputs`. -/
def toolResultContextInputs (result : ToolCallResult) (providerKind : Option String) :
    Result (List ContextEntryInput) := do
  let inputs := result.modelVisibleContextEntries
  require (inputs ≠ [])
    (violation "terminal tool result is missing model-visible context entries")
  inputs.forM (validateModelVisibleToolEntry result)
  require (inputs.any (fun input => input.kind.isToolResult))
    (violation "terminal tool result is missing a tool-result context entry")
  .ok (inputs.map (withProviderKind providerKind))

/-- Whether an entry stands for one of the tool results of a turn. -/
def ContextEntry.isToolOf (entry : ContextEntry) (runId : RunId) (turnId : TurnId) : Bool :=
  match entry.source with
  | .tool r t _ => r == runId && t == turnId
  | _ => false

/-- Whether a tool-result entry names the result's call and outcome; other entries always do. -/
def ContextEntryKind.answers (kind : ContextEntryKind) (result : ToolCallResult) : Bool :=
  match kind with
  | .toolResult callId isError => callId == result.callId && isError == result.status.isError
  | _ => true

/-- `tool_result_context_input_exists`. -/
def toolResultContextInputExists (s : CoreAgentState) (runId : RunId) (turnId : TurnId)
    (result : ToolCallResult) (input : ContextEntryInput) : Bool :=
  s.context.entries.any fun entry =>
    entry.isToolOf runId turnId && entry.kind == input.kind && entry.content == input.content &&
      entry.preview == input.preview && entry.provenanceRef == input.provenanceRef &&
      entry.tokenEstimate == input.tokenEstimate && entry.kind.answers result

/-- `tool_result_context_entry_exists`. -/
def toolResultContextEntryExists (s : CoreAgentState) (runId : RunId) (turnId : TurnId)
    (result : ToolCallResult) (providerKind : Option String) : Bool :=
  match toolResultContextInputs result providerKind with
  | .ok inputs => inputs.all (toolResultContextInputExists s runId turnId result)
  | .error _ => false

/-- The inputs of a result that are not in context yet, with the source that they take. -/
def missingResultInputs (s : CoreAgentState) (runId : RunId) (turnId : TurnId)
    (batchId : Option ToolBatchId) (result : ToolCallResult) (inputs : List ContextEntryInput) :
    List SourcedInput :=
  (inputs.filter (fun input => !toolResultContextInputExists s runId turnId result input)).map
    (fun input => (none, .tool runId turnId batchId, input))

/-! ## Starting a batch -/

/-- `validate_unique_tool_call_ids`. -/
def validateUniqueToolCallIds (calls : List ObservedToolCall) : Result Unit :=
  validateEach "duplicate tool call id" ObservedToolCall.callId (fun _ => .ok ()) [] calls

/-- `planned_tool_for_turn`. -/
def plannedToolForTurn (s : CoreAgentState) (turnId : TurnId) (toolId : ToolId) :
    Option ToolSpec := do
  let run ← s.runs.active
  let turn ← run.turns.get? turnId
  let _ ← turn.plannedRequest
  s.tooling.tools.get? toolId

/-- `initial_tool_call_state`. -/
def initialToolCallState (s : CoreAgentState) (turnId : TurnId) (call : ObservedToolCall) :
    ToolCallState :=
  if (call.toolId.bind (plannedToolForTurn s turnId)).any ToolSpec.invokesClientEffect then
    { call, status := .accepted }
  else { call, status := .unavailable, result := some (unavailableToolResult call) }

/-- `planned_toolset_revision_for_turn`. -/
def plannedToolsetRevisionForTurn (s : CoreAgentState) (runId : RunId) (turnId : TurnId) :
    Result Nat := do
  let run ← activeRunRef s runId
  let turn ← orError (run.turns.get? turnId) (violation s!"tool batch turn {turnId} is missing")
  let planned ← orError turn.plannedRequest
    (violation s!"tool batch turn {turnId} is missing planned request metadata")
  .ok planned.toolsetRevision

/-- `BatchStarted`. -/
def startToolBatch (s : CoreAgentState) (runId : RunId) (turnId : TurnId) (batchId : ToolBatchId)
    (toolsetRevision : Nat) (calls : List ObservedToolCall) : Result CoreAgentState := do
  require (calls ≠ []) (violation "tool batch must contain at least one call")
  validateUniqueToolCallIds calls
  let expected := s.idCursors.lastToolBatchId + 1
  require (batchId = expected) (violation s!"expected tool batch id {expected}, got {batchId}")
  let plannedRevision ← plannedToolsetRevisionForTurn s runId turnId
  require (toolsetRevision = plannedRevision)
    (violation (s!"tool batch toolset revision {toolsetRevision} does not match planned " ++
      s!"revision {plannedRevision}"))
  let revision := s.tooling.revision
  require (toolsetRevision = revision)
    (violation
      s!"tool batch toolset revision {toolsetRevision} does not match active revision {revision}")
  let run ← activeRunRef s runId
  require (run.status = .running ∨ run.status = .cancelling)
    (violation "tool batches can only start for active or cancelling runs")
  require run.activeToolBatchId.isNone
    (violation "cannot start tool batch while another batch is active")
  require (¬ run.toolBatches.contains batchId) (violation s!"duplicate tool batch id {batchId}")
  require (¬ run.completedToolBatches.contains batchId)
    (violation s!"duplicate completed tool batch id {batchId}")
  require (¬ run.hasBatchOf turnId) (violation s!"turn {turnId} already has a tool batch")
  let turn ← orError (run.turns.get? turnId) (violation s!"tool batch turn {turnId} is missing")
  require (turn.status = .completed ∧ turn.outcome = some .toolCallsQueued)
    (violation "tool batch requires completed turn with queued tool calls")
  let facts ← orError turn.facts (violation "tool batch turn is missing generation facts")
  require (facts.toolCalls = calls)
    (violation "tool batch calls do not match generation facts")
  let batch : ActiveToolBatch :=
    { batchId, runId, turnId
      calls := calls.map (initialToolCallState s turnId)
      promiseIdBase := saturatingAdd64 s.idCursors.lastPromiseId 1 }
  .ok { s.setActive { run with
      toolBatches := run.toolBatches.insert batchId batch
      activeToolBatchId := some batchId } with
    idCursors := { s.idCursors with lastToolBatchId := batchId } }

/-! ## Calls -/

/-- The batch of an event: the active one, with the event's run and turn. -/
def activeBatch (run : ActiveRun) (runId : RunId) (turnId : TurnId) (batchId : ToolBatchId)
    (mismatch : String) : Result ActiveToolBatch := do
  let batch ← orError (run.toolBatches.get? batchId)
    (violation s!"tool batch {batchId} is missing")
  require (batch.runId = runId ∧ batch.turnId = turnId) (violation mismatch)
  .ok batch

/-- The run's open batch with its calls rewritten. -/
def setBatchCalls (run : ActiveRun) (batchId : ToolBatchId) (calls : List ToolCallState) :
    ActiveRun :=
  { run with toolBatches := run.toolBatches.modify batchId (fun batch => { batch with calls }) }

/-- The calls with the first one that has this id rewritten. -/
def updateCall (callId : ToolCallId) (f : ToolCallState → Result ToolCallState)
    (missing : DomainError) : List ToolCallState → Result (List ToolCallState)
  | [] => .error missing
  | call :: rest =>
    if call.call.callId = callId then do
      let call ← f call
      .ok (call :: rest)
    else do
      let rest ← updateCall callId f missing rest
      .ok (call :: rest)

/-- `validate_tool_call_start`. -/
def validateToolCallStart (run : ActiveRun) (turnId : TurnId) (batchId : ToolBatchId)
    (callId : ToolCallId) (toolName : ToolName) (argumentsRef : BlobRef) : Result Unit := do
  require (run.activeToolBatchId = some batchId)
    (violation "tool call start does not match active tool batch")
  let batch ← orError (run.toolBatches.get? batchId)
    (violation s!"tool batch {batchId} is missing")
  require (batch.turnId = turnId) (violation "tool call start does not match tool batch turn")
  let call ← orError (batch.calls.find? (fun call => call.call.callId == callId))
    (violation s!"tool call start references missing call {callId}")
  require (call.call.toolName = toolName ∧ call.call.argumentsRef = argumentsRef)
    (violation "tool call start does not match accepted call")
  require (call.status = .accepted) (violation "tool call can only start from accepted state")
  require call.result.isNone (violation "tool call already has a result")

/-- `start_tool_call`, on the call. -/
def startCall (toolName : ToolName) (argumentsRef : BlobRef) (call : ToolCallState) :
    Result ToolCallState := do
  require (call.status = .accepted) (violation "tool call can only start from accepted state")
  require call.result.isNone (violation "tool call already has a result")
  require (call.call.toolName = toolName ∧ call.call.argumentsRef = argumentsRef)
    (violation "tool call start does not match observed tool call")
  .ok { call with status := .pending }

/-- `start_tool_call`. -/
def startToolCall (s : CoreAgentState) (runId : RunId) (turnId : TurnId) (batchId : ToolBatchId)
    (callId : ToolCallId) (toolName : ToolName) (argumentsRef : BlobRef) :
    Result CoreAgentState := do
  let run ← activeRunRef s runId
  validateToolCallStart run turnId batchId callId toolName argumentsRef
  require (run.status = .running) (violation "tool calls can only start for running runs")
  require run.activeTurnId.isNone (violation "tool calls cannot start while a turn is active")
  require (run.activeToolBatchId = some batchId)
    (violation "tool call start does not match active tool batch")
  require (¬ run.isParkedOn batchId) (violation "parked tool batch cannot start calls")
  let batch ← activeBatch run runId turnId batchId
    "tool call start does not match tool batch run/turn"
  let calls ← updateCall callId (startCall toolName argumentsRef)
    (violation s!"tool call start references missing call {callId}") batch.calls
  .ok (s.setActive (setBatchCalls run batchId calls))

/-- `complete_tool_call`, on the call. -/
def completeCall (result : ToolCallResult) (call : ToolCallState) : Result ToolCallState := do
  require (call.status = .pending ∨ (result.status = .cancelled ∧ call.status = .accepted))
    (violation "tool call completion requires a pending tool call")
  require call.result.isNone (violation "tool call already has a result")
  .ok { call with status := result.status, result := some result }

/-- `complete_tool_call`. -/
def completeToolCall (s : CoreAgentState) (runId : RunId) (turnId : TurnId)
    (batchId : ToolBatchId) (result : ToolCallResult) : Result CoreAgentState := do
  let callId := result.callId
  require (result.status = .succeeded ∨ result.status = .failed ∨ result.status = .cancelled)
    (violation "tool call completion must have a terminal call status")
  let run ← activeRunRef s runId
  require (run.activeToolBatchId = some batchId)
    (violation "tool call completion does not match active tool batch")
  require (¬ run.isParkedOn batchId)
    (violation "parked tool batch must be unparked before calls complete")
  let batch ← activeBatch run runId turnId batchId
    "tool call completion does not match tool batch run/turn"
  let calls ← updateCall callId (completeCall result)
    (violation s!"tool call completion references missing call {callId}") batch.calls
  .ok (s.setActive (setBatchCalls run batchId calls))

/-! ## Parking -/

/-- Whether a call of the batch is pending. -/
def ActiveToolBatch.hasPending (batch : ActiveToolBatch) (callId : ToolCallId) : Bool :=
  batch.calls.any (fun call => call.call.callId == callId && call.status == .pending)

/-- Whether a promise is the reply promise of an invocation. -/
def PromiseSource.repliesTo (source : PromiseSource) (invocation : WorkflowToolInvocationId) :
    Bool :=
  match source with
  | .workflow _ _ invocationId completionKey =>
    invocationId == invocation && completionKey == replyCompletionKey
  | .timer _ => false

/-- The loop of `park_tool_batch` over the joined calls. -/
def validateJoinedCalls (s : CoreAgentState) (runId : RunId) (batch : ActiveToolBatch)
    (seenCalls : List ToolCallId) (seenPromises : List PromiseId) :
    List JoinedWorkflowCall → Result Unit
  | [] => .ok ()
  | joined :: rest => do
    let callId := joined.callId
    let batchId := batch.batchId
    let invocation := joined.invocationId
    let promiseText := joined.promiseId.text
    require (callId ∉ seenCalls ∧ joined.promiseId ∉ seenPromises)
      (violation "joined workflow suspension contains duplicate call or Promise identity")
    require (batch.hasPending callId)
      (violation s!"joined workflow call {callId} is not pending in tool batch {batchId}")
    let promise ← orError (s.promises.promises.get? joined.promiseId)
      (violation s!"joined workflow call {callId} references missing Promise {promiseText}")
    require (promise.ownership = .runtime ∧ promise.scope = .run runId)
      (violation s!"joined workflow Promise {promiseText} is not runtime-owned by run {runId}")
    require (promise.source.repliesTo invocation)
      (violation (s!"joined workflow Promise {promiseText} does not match invocation " ++
        s!"{invocation} reply source"))
    validateJoinedCalls s runId batch (callId :: seenCalls) (joined.promiseId :: seenPromises) rest

/-- The checks of `park_tool_batch` on what the batch waits for. -/
def validateSuspension (s : CoreAgentState) (runId : RunId) (batchId : ToolBatchId)
    (batch : ActiveToolBatch) : ToolBatchSuspension → Result Unit
  | .awaitTool callId _ =>
    require (batch.hasPending callId)
      (violation s!"await call {callId} is not pending in tool batch {batchId}")
  | .joinedWorkflowCalls calls spec => do
    require (calls ≠ [] ∧ spec.mode = .all)
      (violation "joined workflow suspension requires a non-empty all-of Promise wait")
    validateJoinedCalls s runId batch [] [] calls
    require (spec.promiseIds = calls.map JoinedWorkflowCall.promiseId)
      (violation "joined workflow suspension wait set does not match its call mappings")

/-- `park_tool_batch`. -/
def parkToolBatch (s : CoreAgentState) (runId : RunId) (turnId : TurnId) (batchId : ToolBatchId)
    (suspension : ToolBatchSuspension) : Result CoreAgentState := do
  let run ← activeRunRef s runId
  require (run.status = .running) (violation "tool batches can only park for running runs")
  require run.activeTurnId.isNone (violation "tool batches cannot park while a turn is active")
  require (run.activeToolBatchId = some batchId)
    (violation "parked tool batch does not match active tool batch")
  require run.parkedToolBatch.isNone (violation s!"tool batch {batchId} is already parked")
  let batch ← activeBatch run runId turnId batchId "parked tool batch does not match run/turn"
  validateSuspension s runId batchId batch suspension
  require (¬ batch.calls.any (fun call => call.status == .accepted))
    (violation "tool batch deferral requires all invocable calls to be pending")
  .ok (s.setActive { run with parkedToolBatch := some ⟨batchId, suspension⟩, status := .parked })

/-- `unpark_tool_batch`. -/
def unparkToolBatch (s : CoreAgentState) (runId : RunId) (turnId : TurnId)
    (batchId : ToolBatchId) : Result CoreAgentState := do
  let run ← activeRunRef s runId
  require (run.activeToolBatchId = some batchId)
    (violation "unparked tool batch does not match active tool batch")
  let _ ← activeBatch run runId turnId batchId "unparked tool batch does not match run/turn"
  require (run.isParkedOn batchId) (violation s!"tool batch {batchId} is not parked")
  .ok (s.setActive { run with
    parkedToolBatch := none
    status := if run.status = .parked then .running else run.status })

/-! ## Completing a batch -/

/-- `prune_terminal_approvals`: a decided approval goes, unless its batch is still open. -/
def pruneTerminalApprovals (run : ActiveRun) : ActiveRun :=
  { run with
    approvals := run.approvals.filter fun _ record =>
      !record.status.isTerminal ||
        match record.request.continuation with
        | .runtimeMcp batchId _ => run.toolBatches.contains batchId
        | .providerMcp _ => false }

/-- The steering loop of `prune_settled_run_records`: of the `droppable` oldest batches, the consumed
ones go. -/
def pruneSteering : Nat → List SteeringBatch → List SteeringBatch
  | _, [] => []
  | 0, steering => steering
  | droppable + 1, steering :: rest =>
    if steering.consumedByTurnId.isNone then steering :: pruneSteering droppable rest
    else pruneSteering droppable rest

/-- `prune_settled_run_records`. -/
def pruneSettledRunRecords (run : ActiveRun) : ActiveRun :=
  let latest := run.turns.last?.map Prod.fst
  let turns := run.turns.filter fun turnId _ =>
    some turnId == latest || run.toolBatches.values.any (fun batch => batch.turnId == turnId)
  let settled := pruneTerminalApprovals { run with
    turns
    completedToolBatches :=
      run.completedToolBatches.filter (fun _ batch => turns.contains batch.turnId) }
  { settled with
    steering := pruneSteering (run.steering.length - maxRetainedSteeringBatches) run.steering }

/-- The result of one call of a batch that completes. -/
def settledResult (s : CoreAgentState) (runId : RunId) (turnId : TurnId) (call : ToolCallState) :
    Result ToolCallResult := do
  require call.status.isTerminal
    (violation "tool batch cannot complete before all calls are terminal")
  let result ← orError call.result (violation "terminal tool call is missing result")
  require (result.callId = call.call.callId ∧ result.status = call.status)
    (violation "terminal tool call result does not match call state")
  require (toolResultContextEntryExists s runId turnId result call.call.providerKind)
    (violation "tool batch cannot complete before result context entries are recorded")
  .ok result

/-- `complete_tool_batch`. -/
def completeToolBatch (s : CoreAgentState) (runId : RunId) (turnId : TurnId)
    (batchId : ToolBatchId) : Result CoreAgentState := do
  let run ← activeRunRef s runId
  require (run.activeToolBatchId = some batchId)
    (violation "completed tool batch does not match active tool batch")
  require (¬ run.completedToolBatches.contains batchId)
    (violation s!"duplicate completed tool batch id {batchId}")
  let batch ← activeBatch run runId turnId batchId "completed tool batch does not match run/turn"
  require (¬ run.isParkedOn batchId)
    (violation "parked tool batch cannot complete before it is unparked")
  let results ← batch.calls.mapM (settledResult s runId turnId)
  let completed : ActiveRun := { run with
    toolBatches := run.toolBatches.erase batchId
    completedToolBatches := run.completedToolBatches.insert batchId ⟨batchId, runId, turnId, results⟩
    activeToolBatchId := none }
  .ok (pruneFinishedWork (s.setActive (pruneSettledRunRecords completed)))

/-! ## The reducer -/

/-- `apply_event` of `components/tooling.rs`. -/
def applyToolEvent (s : CoreAgentState) : ToolEvent → Result CoreAgentState
  | .batchStarted runId turnId batchId revision calls =>
    startToolBatch s runId turnId batchId revision calls
  | .callStarted runId turnId batchId callId toolName argumentsRef =>
    startToolCall s runId turnId batchId callId toolName argumentsRef
  | .callCompleted runId turnId batchId result => completeToolCall s runId turnId batchId result
  | .batchParked runId turnId batchId suspension =>
    parkToolBatch s runId turnId batchId suspension
  | .batchUnparked runId turnId batchId => unparkToolBatch s runId turnId batchId
  | .batchCompleted runId turnId batchId => completeToolBatch s runId turnId batchId

/-- `ToolPatch::merged_into`. -/
def ToolPatch.mergedInto (patch : ToolPatch) (tools : ToolMap) : ToolMap :=
  patch.upsert.foldl (fun tools tool => tools.insert tool.id tool)
    (patch.remove.foldl (fun tools id => tools.erase id) tools)

/-- `apply_config_event` of `components/tooling.rs`. -/
def applyToolConfigEvent (s : CoreAgentState) (event : ToolConfigEvent) :
    Result CoreAgentState := do
  require (s.lifecycle.status = .open)
    (violation "tool config can only change while session is open")
  let (baseRevision, tools) :=
    match event with
    | .toolsReplaced baseRevision tools => (baseRevision, tools)
    | .toolsPatched baseRevision patch => (baseRevision, patch.mergedInto s.tooling.tools)
  let revision := s.tooling.revision
  require (baseRevision = revision)
    (violation
      s!"tool event base revision {baseRevision} does not match active revision {revision}")
  .ok { s with tooling := { revision := revision + 1, tools } }

/-- `tools_frozen`: from the start of a turn until its batch has finished. -/
def toolsFrozen (s : CoreAgentState) : Bool :=
  s.runs.active.any fun run =>
    run.activeTurnId.isSome || run.activeToolBatchId.isSome || hasUnstartedToolCallTurn run

end Lightspeed.Harness
