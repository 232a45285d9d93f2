import Lightspeed.Harness.Results

/-!
# Suspensions

Parking a batch on promises, waking it, and the tool calls that a workflow makes of its own. Parking and
waking are in `drive.rs`; the commands of a code-tool scope are in `components/code_tool.rs`.
-/

namespace Lightspeed.Harness

open Lib

/-! ## Parking -/

/-- `validate_await_spec_for_active_run`. -/
def validateAwaitSpecForActiveRun (s : CoreAgentState) (runId : RunId) (spec : AwaitSpec) :
    Result Unit := do
  require (spec.promiseIds ≠ []) (violation "await requires at least one promise id")
  spec.promiseIds.forM fun promiseId => do
    let text := promiseId.text
    let promise ← orError (s.promises.promises.get? promiseId)
      (violation s!"unknown promise {text}")
    require (promise.ownership = .model)
      (violation s!"promise {text} is runtime-owned and cannot be awaited by the model")
    match promise.scope with
    | .session => .ok ()
    | .run promiseRun =>
      require (promiseRun = runId)
        (violation s!"promise {text} is scoped to run {promiseRun}, not run {runId}")

/-- `ToolInvocationResult::tool_result_context_entry`. -/
def toolResultContextEntry (callId : ToolCallId) (status : ToolCallStatus) (content : BlobRef) :
    ContextEntryInput where
  kind := .toolResult callId status.isError
  content := { contentRef := content }

/-- `rejected_tool_result`: the harness answers a call whose batch cannot proceed. -/
def rejectedToolResult (content : String) (callId : ToolCallId) : ToolCallResult where
  callId := callId
  status := .failed
  modelVisibleContextEntries := [toolResultContextEntry callId .failed (.fromBytes content)]
  errorRef := some (.fromBytes content)

/-- Whether an effect of a result invokes a joined workflow tool. -/
def invokesJoined (s : CoreAgentState) : ToolEffect → Result Bool
  | .workflowInvoke invocation _ =>
    .ok ((s.workflowTools.bindings.get? invocation.workflowToolId).any
      (fun binding => binding.completion.isJoined))
  | .malformedInvoke error => .error error
  | _ => .ok false

/-- The results that invoke a joined workflow tool. -/
def joinedCallIds (s : CoreAgentState) (results : List ToolCallResult) :
    Result (List ToolCallId) := do
  let joined ← results.mapM fun result => do
    let effects ← result.effects.mapM (invokesJoined s)
    .ok (if effects.any id then [result.callId] else [])
  .ok joined.flatten

/-- Whether a call is to the await tool. -/
def ToolCallState.isAwait (call : ToolCallState) : Bool := call.call.toolId == some awaitToolId

/-- The batch result that a batch's own results make. -/
def ActiveToolBatch.result (batch : ActiveToolBatch) (results : List ToolCallResult) :
    ToolInvocationBatchResult where
  runId := batch.runId
  turnId := batch.turnId
  batchId := batch.batchId
  results := results

/-- The end of `tool_batch_parked_proposals`, once one await and no joined call is left: an await that
cannot be served is answered, another parks the batch. -/
def parkOnAwait (sessionId : SessionId) (s : CoreAgentState) (run : ActiveRun)
    (batch : ActiveToolBatch) (callId : ToolCallId) (results : List ToolCallResult)
    (spec : AwaitSpec) : Result (List CoreAgentEventProposal) := do
  require (batch.hasPending callId)
    (violation s!"await deferral references non-pending call {callId}")
  require (batch.calls.any (fun call => call.call.callId == callId && call.isAwait))
    (violation s!"parked call {callId} is not an await call")
  match validateAwaitSpecForActiveRun s run.runId spec with
  | .error _ =>
    toolBatchResultProposals sessionId s
      (batch.result (results ++ [rejectedToolResult awaitRejectedContent callId]))
  | .ok _ => do
    let completed ← toolCallCompletedProposals s ((batch.result results).scope (some sessionId))
      results
    .ok (completed ++ [⟨batch.joins,
      .tool (.batchParked batch.runId batch.turnId batch.batchId (.awaitTool callId spec))⟩])

/-- `tool_batch_parked_proposals`. -/
def toolBatchParkedProposals (sessionId : SessionId) (s : CoreAgentState) (batchId : ToolBatchId)
    (callId : ToolCallId) (results : List ToolCallResult) (spec : AwaitSpec) :
    Result (List CoreAgentEventProposal) := do
  let run ← orError s.runs.active (violation "no active run")
  require (run.activeToolBatchId = some batchId)
    (violation "parked tool batch does not match active tool batch")
  let batch ← orError (run.toolBatches.get? batchId)
    (violation s!"tool batch {batchId} is missing")
  require run.parkedToolBatch.isNone (violation s!"tool batch {batchId} is already parked")
  validateToolBatchResult (batch.result results)
  validateResultMatchesActiveToolBatch s (batch.result results) false
  require (batch.calls.any (fun call => call.status == .pending &&
      !(results.map ToolCallResult.callId).contains call.call.callId))
    (violation "tool batch deferral requires at least one pending call")
  require (¬ batch.calls.any (fun call => call.status == .accepted))
    (violation "tool batch deferral requires all invocable calls to be pending")
  let awaits := (batch.calls.filter (fun call => call.status == .pending && call.isAwait)).map
    (fun call => call.call.callId)
  let joined ← joinedCallIds s results
  if joined ≠ [] ∧ awaits ≠ [] then
    let answered := results.map fun result =>
      if result.callId ∈ joined then rejectedToolResult awaitBatchConflictContent result.callId
      else result
    toolBatchResultProposals sessionId s
      (batch.result (answered ++ awaits.map (rejectedToolResult awaitBatchConflictContent)))
  else if 1 < awaits.length then
    toolBatchResultProposals sessionId s
      (batch.result (results ++ awaits.map (rejectedToolResult awaitBatchConflictContent)))
  else parkOnAwait sessionId s run batch callId results spec

/-! ## Waking -/

/-- `AwaitOutcome` of `components/promise.rs`. -/
inductive AwaitOutcome where
  | terminal
  | timeout
  | cancelled
  deriving DecidableEq

/-- The `Debug` form of a wake. -/
def AwaitOutcome.debug : AwaitOutcome → String
  | .terminal => "Terminal"
  | .timeout => "Timeout"
  | .cancelled => "Cancelled"

/-- How many of the awaited promises are terminal. -/
def terminalCount (s : CoreAgentState) (promiseIds : List PromiseId) : Nat :=
  promiseIds.countP (fun id => (s.promises.promises.get? id).any
    (fun promise => promise.status.isTerminal))

/-- Whether the awaited promises satisfy a wait. -/
def AwaitSpec.satisfied (spec : AwaitSpec) (s : CoreAgentState) : Bool :=
  match spec.mode with
  | .all => terminalCount s spec.promiseIds == spec.promiseIds.length
  | .any => 1 ≤ terminalCount s spec.promiseIds

/-- `await_wake`. -/
def awaitWake (s : CoreAgentState) (nowMs : Nat) : Option AwaitOutcome := do
  let run ← s.runs.active
  let parked ← run.parkedToolBatch
  let spec := parked.suspension.spec
  if run.status = .cancelling then some .cancelled
  else if spec.deadlineAtMs.any (fun deadline => deadline ≤ nowMs) then some .timeout
  else if spec.promiseIds = [] then none
  else if spec.satisfied s then some .terminal
  else none

/-- The supplements of one joined promise. -/
structure PromiseContextEntries where
  promiseId : PromiseId
  entries : List ContextEntryInput

inductive ToolBatchUnparkOutput where
  | awaitTool (resultRef : BlobRef) (additionalContext : List ContextEntryInput)
  | joinedWorkflowCalls (additionalContext : List PromiseContextEntries)

/-- `UnparkToolBatchCommand` of `components/run.rs`. -/
structure UnparkToolBatchCommand where
  runId : RunId
  batchId : ToolBatchId
  claim : AwaitOutcome
  claimObservedAtMs : Nat
  output : ToolBatchUnparkOutput

/-- Whether a scope belongs to the batch and still has calls to reconcile. -/
def CodeToolScope.holdsUp (scope : CodeToolScope) (s : CoreAgentState) (runId : RunId)
    (batchId : ToolBatchId) : Bool :=
  (match codeToolParent s scope.spec with
    | .ok parent => parent.runId == runId && parent.toolBatchId == batchId
    | .error _ => false) &&
    scope.calls.values.any (fun call => !call.status.isTerminal)

/-- `overtaken_unpark_claim`. -/
def overtakenUnparkClaim (s : CoreAgentState) (command : UnparkToolBatchCommand)
    (observedAtMs : Nat) : Option String := do
  let run ← s.runs.active
  let parked ← run.parkedToolBatch
  if run.runId ≠ command.runId ∨ parked.batchId ≠ command.batchId then none
  else if s.codeTools.scopes.values.any
      (fun scope => scope.holdsUp s command.runId command.batchId) then
    some "outer tool batch cannot unpark before its code tool calls are reconciled"
  else if observedAtMs < command.claimObservedAtMs then
    some "tool batch unpark claim is observed in the future"
  else
    match awaitWake s command.claimObservedAtMs with
    | none => some "tool batch unpark claim has no satisfied wake"
    | some actual =>
      if actual ≠ command.claim then
        some ("tool batch unpark claim " ++ command.claim.debug ++
          " does not match current wake " ++ actual.debug)
      else none

/-- `validate_supplemental_entries`. -/
def validateSupplementalEntries (entries : List ContextEntryInput) (what : String) :
    Result Unit :=
  entries.forM fun entry =>
    let kind := entry.kind.debug
    require (entry.kind = .message .user)
      (violation s!"{what} supplemental entries must be user messages, got {kind}")

/-- `await_unpark_result`. -/
def awaitUnparkResult (run : ActiveRun) (parked : ParkedToolBatch) (callId : ToolCallId)
    (resultRef : BlobRef) (additionalContext : List ContextEntryInput) :
    Result ToolInvocationBatchResult := do
  validateSupplementalEntries additionalContext "await"
  let batchId := parked.batchId
  let batch ← orError (run.toolBatches.get? batchId)
    (violation s!"tool batch {batchId} is missing")
  .ok { runId := run.runId, turnId := batch.turnId, batchId := batch.batchId
        results := [{ callId, status := .succeeded, outputRef := some resultRef
                      modelVisibleContextEntries :=
                        toolResultContextEntry callId .succeeded resultRef :: additionalContext }] }

/-- `JoinedCallOutcome` of `components/promise.rs`. -/
structure JoinedCallOutcome where
  status : ToolCallStatus
  outputRef : Option BlobRef
  errorRef : Option BlobRef
  contentRef : BlobRef

/-- The outcome of a joined call that did not succeed. -/
def failedOutcome (status : ToolCallStatus) (errorRef : BlobRef) : JoinedCallOutcome :=
  { status, outputRef := none, errorRef := some errorRef, contentRef := errorRef }

/-- `joined_call_outcome`. -/
def joinedCallOutcome (promise : Promise) (cancelPending : Bool) : Option JoinedCallOutcome :=
  match promise.status with
  | .resolved =>
    some { status := .succeeded, outputRef := promise.payloadRef, errorRef := none
           contentRef := promise.payloadRef.getD (.fromBytes emptySuccessContent) }
  | .failed =>
    some (failedOutcome .failed (promise.errorRef.getD (.fromBytes failedWithoutDetailContent)))
  | .cancelled =>
    some (failedOutcome .cancelled
      (.fromBytes (if cancelPending then cancelledToolResultContent else receiverCancelledContent)))
  | .pending =>
    if cancelPending then
      some (failedOutcome .cancelled (.fromBytes cancelledToolResultContent))
    else none

/-- The result of one joined call, in `joined_workflow_unpark_result`. -/
def joinedResult (s : CoreAgentState) (cancelPending : Bool)
    (additionalContext : List PromiseContextEntries) (joined : JoinedWorkflowCall) :
    Result ToolCallResult := do
  let text := joined.promiseId.text
  let promise ← orError (s.promises.promises.get? joined.promiseId)
    (violation s!"joined Promise {text} is missing")
  let notTerminal := violation s!"joined Promise {text} is not a terminal runtime-owned Promise"
  require (promise.ownership = .runtime) notTerminal
  let outcome ← orError (joinedCallOutcome promise cancelPending) notTerminal
  let supplements :=
    if outcome.status = .succeeded then
      (additionalContext.filter (fun item => item.promiseId == joined.promiseId)).flatMap
        PromiseContextEntries.entries
    else []
  .ok { callId := joined.callId, status := outcome.status, outputRef := outcome.outputRef
        errorRef := outcome.errorRef
        modelVisibleContextEntries :=
          toolResultContextEntry joined.callId outcome.status outcome.contentRef :: supplements }

/-- `joined_workflow_unpark_result`. -/
def joinedWorkflowUnparkResult (s : CoreAgentState) (run : ActiveRun) (parked : ParkedToolBatch)
    (calls : List JoinedWorkflowCall) (cancelPending : Bool)
    (additionalContext : List PromiseContextEntries) : Result ToolInvocationBatchResult := do
  let batchId := parked.batchId
  let batch ← orError (run.toolBatches.get? batchId)
    (violation s!"tool batch {batchId} is missing")
  additionalContext.forM fun supplement => do
    let text := supplement.promiseId.text
    require (calls.any (fun joined => joined.promiseId == supplement.promiseId))
      (violation (s!"supplemental entries name promise {text}, which no joined call of this " ++
        "batch owns"))
    validateSupplementalEntries supplement.entries text
  let results ← calls.mapM (joinedResult s cancelPending additionalContext)
  .ok { runId := run.runId, turnId := batch.turnId, batchId := batch.batchId, results }

/-- Whether a promise is pending. -/
def isPendingPromise (s : CoreAgentState) (promiseId : PromiseId) : Bool :=
  (s.promises.promises.get? promiseId).any (fun promise => promise.status == .pending)

/-- The result with which a batch leaves its suspension. -/
def unparkResult (s : CoreAgentState) (run : ActiveRun) (parked : ParkedToolBatch)
    (command : UnparkToolBatchCommand) : Result ToolInvocationBatchResult :=
  match parked.suspension, command.output with
  | .awaitTool callId _, .awaitTool resultRef additionalContext =>
    awaitUnparkResult run parked callId resultRef additionalContext
  | .joinedWorkflowCalls calls _, .joinedWorkflowCalls additionalContext =>
    joinedWorkflowUnparkResult s run parked calls (command.claim == .cancelled) additionalContext
  | _, _ =>
    .error (violation "tool batch unpark output does not match the parked suspension")

/-- The joined promises that a cancelled wait gives up. -/
def abandonedPromises (s : CoreAgentState) (claim : AwaitOutcome) :
    ToolBatchSuspension → List PromiseId
  | .awaitTool _ _ => []
  | .joinedWorkflowCalls calls _ =>
    if claim = .cancelled then
      (calls.map JoinedWorkflowCall.promiseId).filter (isPendingPromise s)
    else []

/-- `unpark_tool_batch_proposals`. -/
def unparkToolBatchProposals (s : CoreAgentState) (command : UnparkToolBatchCommand) :
    Result (List CoreAgentEventProposal) :=
  match s.runs.active with
  | none => .ok []
  | some run =>
    match run.parkedToolBatch with
    | none => .ok []
    | some parked =>
      if run.runId ≠ command.runId ∨ parked.batchId ≠ command.batchId then .ok []
      else do
        let result ← unparkResult s run parked command
        validateToolBatchResult result
        validateResultMatchesActiveToolBatch s result true
        let completed ← toolCallCompletedProposals s (result.scope none) result.results
        .ok ((abandonedPromises s command.claim parked.suspension).map
            (fun promiseId => ⟨result.joins, .promise (.cancelled promiseId)⟩) ++
          [⟨result.joins, .tool (.batchUnparked result.runId result.turnId result.batchId)⟩] ++
          completed)

/-! ## Code tools -/

def maxCodeToolCallsPerScope : Nat := 1024
def maxCodeToolInFlight : Nat := 64

/-- `validate_id` of `components/code_tool.rs`. -/
def validateCodeToolId (kind value : String) : Result Unit := do
  require (value.utf8ByteSize ≤ 256) (violation s!"code tool {kind} exceeds 256 bytes")
  validateGeneralStringId kind value

/-- The checks of `validate_scope` on one binding. -/
def validateScopeBinding (s : CoreAgentState) (parentTool : ToolId) (bindingId : String)
    (toolId : ToolId) : Result Unit := do
  validateCodeToolId "binding_id" bindingId
  let tool ← orError (s.tooling.tools.get? toolId)
    (violation s!"code tool {toolId} is not granted")
  require (tool.invokesClientEffect ∧ toolId ≠ parentTool)
    (violation s!"tool {toolId} is not available for code tool execution")

/-- `validate_scope`. -/
def validateScope (s : CoreAgentState) (scope : CodeToolScopeSpec) : Result Unit := do
  validateCodeToolId "execution_id" scope.executionId
  validateRecordedScope s scope
  require (scope.maxCalls ≠ 0 ∧ scope.maxCalls ≤ maxCodeToolCallsPerScope ∧
      scope.maxInFlight ≠ 0 ∧ scope.maxInFlight ≤ maxCodeToolInFlight ∧
      scope.maxInFlight ≤ scope.maxCalls ∧ scope.bindings.entries.length ≤ 4096)
    (violation "code tool scope limits are outside their bounded ranges")
  let parent ← codeToolParent s scope
  let binding ← orError (s.workflowTools.bindings.get? parent.workflowToolId)
    (violation "code tool parent binding is missing")
  scope.bindings.entries.forM fun (bindingId, granted) =>
    validateScopeBinding s binding.definition.tool.id bindingId granted.toolId

/-- Whether a call of a batch of the active run has this id. -/
def isModelCall (s : CoreAgentState) (callId : ToolCallId) : Bool :=
  s.runs.active.any fun run =>
    run.toolBatches.values.any fun batch =>
      batch.calls.any (fun call => call.call.callId == callId)

/-- `validate_call`. -/
def validateCall (s : CoreAgentState) (call : CodeToolCallSpec) : Result Unit := do
  validateCodeToolId "request_id" call.origin.requestId
  let scope ← validateRecordedCall s call
  require ((s.tooling.tools.get? call.toolId).any ToolSpec.invokesClientEffect)
    (violation "code tool is outside the execution grant")
  require (scope.calls.entries.length < scope.spec.maxCalls)
    (violation "code tool execution exhausted its call budget")
  require (scope.calls.values.countP (fun call => !call.status.isTerminal) < scope.spec.maxInFlight)
    (violation "code tool execution exceeded its in-flight limit")
  require (¬ isModelCall s (codeToolCallId call.origin))
    (violation "code tool call identity collides with a model call")

/-- `scope_joins`. -/
def scopeJoins (s : CoreAgentState) (scope : CodeToolScopeSpec) : Result CoreAgentJoins := do
  let parent ← codeToolParent s scope
  .ok { runId := some parent.runId, turnId := some parent.turnId
        toolBatchId := some parent.toolBatchId }

/-- `joins` of `components/code_tool.rs`. -/
def codeToolJoins (s : CoreAgentState) (origin : CodeToolOrigin) : Result CoreAgentJoins := do
  let scope ← orError (s.codeTools.scopes.get? origin.executionId)
    (violation "unknown code tool execution scope")
  let joins ← scopeJoins s scope.spec
  .ok { joins with toolCallId := some (codeToolCallId origin) }

/-- `open_code_tool_scope_proposals`. -/
def openCodeToolScopeProposals (s : CoreAgentState) (scope : CodeToolScopeSpec) :
    Result (List CoreAgentEventProposal) :=
  match s.codeTools.scopes.get? scope.executionId with
  | some existing => do
    require (existing.spec = scope)
      (violation "code tool execution id reused with a different scope")
    .ok []
  | none => do
    validateScope s scope
    let joins ← scopeJoins s scope
    .ok [⟨joins, .codeTool (.scopeOpened scope)⟩]

/-- `admit_code_tool_call_proposals`. -/
def admitCodeToolCallProposals (s : CoreAgentState) (call : CodeToolCallSpec) :
    Result (List CoreAgentEventProposal) :=
  match codeToolCall s call.origin with
  | some existing => do
    require (existing.spec = call)
      (violation "code tool request id reused with different arguments or binding")
    .ok []
  | none => do
    validateCall s call
    let base ← orError (checkedAdd64 s.idCursors.lastPromiseId 1)
      (violation "promise counter exhausted")
    let _ ← orError (checkedAdd64 base (codeToolPromiseSlots - 1))
      (violation "promise counter exhausted")
    let joins ← codeToolJoins s call.origin
    .ok [⟨joins, .codeTool (.callAdmitted call base)⟩]

/-- The call of a command, with the parent of its scope. -/
def codeToolCallParent (s : CoreAgentState) (origin : CodeToolOrigin) :
    Result WorkflowToolInvocation := do
  let scope ← orError (s.codeTools.scopes.get? origin.executionId)
    (violation "unknown code tool execution scope")
  codeToolParent s scope.spec

/-- `complete_code_tool_call_proposals`. -/
def completeCodeToolCallProposals (s : CoreAgentState) (origin : CodeToolOrigin)
    (result : ToolCallResult) : Result (List CoreAgentEventProposal) := do
  let call ← orError (codeToolCall s origin) (violation "unknown code tool request")
  require (call.status = .pending) (violation "code tool request is not pending")
  validateResultFields call result.callId result.status
  let parent ← codeToolCallParent s origin
  validateToolBatchResult ⟨parent.runId, parent.turnId, parent.toolBatchId, [result]⟩
  toolCallCompletedProposals s
    { sessionId := some parent.sessionId, runId := parent.runId, turnId := parent.turnId
      batchId := parent.toolBatchId, origin := some origin } [result]

/-- `defer_code_tool_call_proposals`. -/
def deferCodeToolCallProposals (s : CoreAgentState) (origin : CodeToolOrigin)
    (spec : AwaitSpec) : Result (List CoreAgentEventProposal) := do
  let call ← orError (codeToolCall s origin) (violation "unknown code tool request")
  require (call.spec.toolId = awaitToolId)
    (violation "code tool await suspension requires concurrency.await")
  require (spec.promiseIds ≠ [] ∧ spec.promiseIds.length ≤ 32 ∧ spec.promiseIds.Nodup)
    (violation "code tool await requires 1..=32 distinct promise ids")
  let parent ← codeToolCallParent s origin
  match validateAwaitSpecForActiveRun s parent.runId spec with
  | .ok _ => .ok ()
  | .error _ => .error (violation (String.ofList (awaitRejectedContent.toList.dropLast)))
  let suspension : ToolBatchSuspension := .awaitTool call.callId spec
  match call.status with
  | .waiting existing => do
    require (existing = suspension) (violation "code tool await changed after admission")
    .ok []
  | .completed _ => .error (violation "code tool request already completed")
  | .pending => do
    let joins ← codeToolJoins s origin
    .ok [⟨joins, .codeTool (.callDeferred origin suspension)⟩]

/-- `code_tool_wake`. -/
def codeToolWake (s : CoreAgentState) (origin : CodeToolOrigin) (nowMs : Nat) :
    Option AwaitOutcome := do
  let scope ← s.codeTools.scopes.get? origin.executionId
  let call ← scope.calls.get? origin.requestId
  match call.status with
  | .waiting suspension =>
    if scope.closed || !(validateLiveParent s scope.spec).isOk then some .cancelled
    else if suspension.spec.deadlineAtMs.any (fun deadline => deadline ≤ nowMs) then some .timeout
    else if suspension.spec.satisfied s then some .terminal
    else none
  | _ => none

/-- Whether a joined promise is the runtime's and still pending. -/
def isPendingRuntimePromise (s : CoreAgentState) (promiseId : PromiseId) : Bool :=
  (s.promises.promises.get? promiseId).any
    (fun promise => promise.status == .pending && promise.ownership == .runtime)

/-- The joined promises that a call waits for. -/
def CodeToolCall.joinedPromises (call : CodeToolCall) : List PromiseId :=
  match call.status with
  | .waiting (.joinedWorkflowCalls calls _) => calls.map JoinedWorkflowCall.promiseId
  | _ => []

/-- The status that a joined reply gives its call. -/
def PromiseStatus.callStatus : PromiseStatus → ToolCallStatus
  | .resolved => .succeeded
  | .failed => .failed
  | .pending | .cancelled => .cancelled

/-- The joined part of `resume_code_tool_call_proposals`: the result matches its promise. -/
def validateJoinedReply (s : CoreAgentState) (call : CodeToolCall) (result : ToolCallResult) :
    Result Unit :=
  match call.joinedPromises with
  | [] => .ok ()
  | promiseId :: _ => do
    let promise ← orError (s.promises.promises.get? promiseId)
      (violation "code tool joined promise is missing")
    require (result.status = promise.status.callStatus ∧
        (promise.status = .resolved → result.outputRef = promise.payloadRef))
      (violation "code tool joined result does not match its completion promise")

/-- `resume_code_tool_call_proposals`. -/
def resumeCodeToolCallProposals (s : CoreAgentState) (origin : CodeToolOrigin)
    (result : ToolCallResult) (claimObservedAtMs observedAtMs : Nat) :
    Result (List CoreAgentEventProposal) := do
  let call ← orError (codeToolCall s origin) (violation "unknown code tool request")
  require (¬ call.status.isTerminal) (violation "code tool request already completed")
  validateResultFields call result.callId result.status
  let noWake := violation "code tool resume has no satisfied wake"
  require (claimObservedAtMs ≤ observedAtMs) noWake
  let wake ← orError (codeToolWake s origin claimObservedAtMs) noWake
  require (result.effects = []) (violation "code tool resume cannot introduce tool effects")
  validateJoinedReply s call result
  let joins ← codeToolJoins s origin
  let abandoned :=
    if wake = .terminal then [] else call.joinedPromises.filter (isPendingRuntimePromise s)
  .ok (abandoned.map (fun promiseId => ⟨joins, .promise (.cancelled promiseId)⟩) ++
    [⟨joins, .codeTool (.callCompleted origin result.toCodeResult)⟩])

/-- The cancellations of one call of a scope that closes. -/
def closedCallProposals (s : CoreAgentState) (call : CodeToolCall) :
    Result (List CoreAgentEventProposal) :=
  (call.joinedPromises.filter (isPendingRuntimePromise s)).mapM fun promiseId => do
    let joins ← codeToolJoins s call.spec.origin
    .ok ⟨joins, .promise (.cancelled promiseId)⟩

/-- `close_code_tool_scope_proposals`. -/
def closeCodeToolScopeProposals (s : CoreAgentState) (executionId : String) :
    Result (List CoreAgentEventProposal) :=
  match s.codeTools.scopes.get? executionId with
  | none => .ok []
  | some scope =>
    if scope.closed then .ok []
    else do
      let joins : CoreAgentJoins :=
        match scopeJoins s scope.spec with
        | .ok joins => joins
        | .error _ => {}
      let cancelled ← scope.calls.values.mapM (closedCallProposals s)
      .ok (⟨joins, .codeTool (.scopeClosed executionId)⟩ :: cancelled.flatten)

end Lightspeed.Harness
