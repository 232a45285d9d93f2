import Lightspeed.Harness.Promises

/-!
# Code tools

The reducer of `components/code_tool.rs` and the checks it shares with admission. A scope belongs to a
parked joined workflow call and lives while that call waits; a call of a scope reserves the promise
numbers that its executor may mint.
-/

namespace Lightspeed.Harness

open Lib

/-- `code_tool_call_id`, with the digest identified with what it digests. -/
def codeToolCallId (origin : CodeToolOrigin) : ToolCallId :=
  "code-tool:" ++ origin.executionId.quote ++ "," ++ origin.requestId.quote

/-- `CODE_TOOL_INTERRUPTED_CONTENT`. -/
def codeToolInterruptedContent : String :=
  "Code tool execution was interrupted when its owning run ended. Its outcome is unknown; " ++
    "an external side effect may already have occurred."

/-- `code_tool_interrupted_ref`. -/
def codeToolInterruptedRef : BlobRef := .fromBytes codeToolInterruptedContent

/-- The state with other code-tool scopes. -/
def CoreAgentState.setScopes (s : CoreAgentState) (scopes : OrdMap String CodeToolScope) :
    CoreAgentState :=
  { s with codeTools := { scopes } }

/-- The call with the outcome that force recovery records, unless it is terminal. -/
def CodeToolCall.interrupt (call : CodeToolCall) : CodeToolCall :=
  if call.status.isTerminal then call
  else { call with
    status := .completed
      { callId := call.callId, status := .unavailable, errorRef := some codeToolInterruptedRef } }

/-- `interrupt_code_tools_for_run`. -/
def interruptCodeToolsForRun (s : CoreAgentState) (runId : RunId) : CoreAgentState :=
  s.setScopes (s.codeTools.scopes.mapValues fun _ scope =>
    match codeToolParent s scope.spec with
    | .ok parent =>
      if parent.runId = runId then
        { scope with closed := true, calls := scope.calls.mapValues (fun _ call => call.interrupt) }
      else scope
    | .error _ => scope)

/-- Whether a suspension holds the parent's joined call, with its promise still pending. -/
def holdsPendingParent (s : CoreAgentState) (suspension : ToolBatchSuspension)
    (parent : WorkflowToolInvocation) : Bool :=
  match suspension with
  | .awaitTool _ _ => false
  | .joinedWorkflowCalls calls _ =>
    calls.any fun call =>
      call.invocationId == parent.invocationId && call.callId == parent.toolCallId &&
        (s.promises.promises.get? call.promiseId).any (fun promise => promise.status == .pending)

/-- `validate_live_parent`. -/
def validateLiveParent (s : CoreAgentState) (scope : CodeToolScopeSpec) : Result Unit := do
  let parent ← codeToolParent s scope
  let run ← orError s.runs.active (violation "code tool calls require an active run")
  require (run.runId = parent.runId ∧ (run.status = .running ∨ run.status = .parked))
    (violation "code tool parent run is not accepting calls")
  let parked ← orError run.parkedToolBatch (violation "code tool parent is not parked")
  require parked.suspension.isJoined
    (violation "code tool parent must be a joined workflow call")
  require (parked.batchId = parent.toolBatchId ∧ holdsPendingParent s parked.suspension parent)
    (violation "code tool parent joined call is no longer pending")

/-- `validate_recorded_scope`. -/
def validateRecordedScope (s : CoreAgentState) (scope : CodeToolScopeSpec) : Result Unit := do
  validateLiveParent s scope
  require (¬ s.codeTools.scopes.values.any
      (fun existing => existing.spec.parentInvocationId == scope.parentInvocationId))
    (violation "parent workflow invocation already owns a code tool scope")

/-- `validate_recorded_call`. -/
def validateRecordedCall (s : CoreAgentState) (call : CodeToolCallSpec) :
    Result CodeToolScope := do
  let scope ← orError (s.codeTools.scopes.get? call.origin.executionId)
    (violation "unknown code tool execution scope")
  require (¬ scope.closed) (violation "code tool execution scope is closed")
  validateLiveParent s scope.spec
  require (scope.toolsetRevision = s.tooling.revision)
    (violation "code tool scope catalog is stale after a toolset change")
  require ((scope.spec.bindings.get? call.bindingId).any (fun binding =>
      binding.toolId == call.toolId && binding.toolName == call.toolName))
    (violation "code tool is outside the execution grant")
  .ok scope

/-- `validate_result_fields`. -/
def validateResultFields (call : CodeToolCall) (callId : ToolCallId) (status : ToolCallStatus) :
    Result Unit :=
  require (callId = call.callId ∧
      (status = .succeeded ∨ status = .failed ∨ status = .cancelled))
    (violation "code tool result does not match its admitted call or is not terminal")

/-- The state with the status of a recorded code call set. -/
def setCodeCallStatus (s : CoreAgentState) (origin : CodeToolOrigin)
    (status : CodeToolCallStatus) : CoreAgentState :=
  s.setScopes (s.codeTools.scopes.modify origin.executionId fun scope =>
    { scope with
      calls := scope.calls.modify origin.requestId (fun call => { call with status }) })

/-- The checks of `CallDeferred` on what the call waits for. -/
def validateCodeSuspension (s : CoreAgentState) (call : CodeToolCall) :
    ToolBatchSuspension → Result Unit
  | .awaitTool callId spec => do
    require (callId = call.callId) (violation "code tool await call id mismatch")
    require (∀ id ∈ spec.promiseIds, s.promises.promises.contains id)
      (violation "code tool await references an unknown promise")
  | .joinedWorkflowCalls [joined] spec => do
    require (joined.callId = call.callId ∧ spec.promiseIds = [joined.promiseId] ∧ spec.mode = .all)
      (violation "code tool joined suspension does not match its call")
    let promise ← orError (s.promises.promises.get? joined.promiseId)
      (violation "code tool completion promise is missing")
    require (promise.status = .pending)
      (violation "code tool completion promise is already terminal")
  | .joinedWorkflowCalls _ _ =>
    .error (violation "code tool joined suspension does not match its call")

/-- `apply_code_tool_event`. -/
def applyCodeToolEvent (s : CoreAgentState) : CodeToolEvent → Result CoreAgentState
  | .scopeOpened scope => do
    require (¬ s.codeTools.scopes.contains scope.executionId)
      (violation "duplicate code tool scope event")
    validateRecordedScope s scope
    .ok (s.setScopes (s.codeTools.scopes.insert scope.executionId
      { toolsetRevision := s.tooling.revision, spec := scope, closed := false, calls := ∅ }))
  | .callAdmitted call promiseIdBase => do
    let _ ← validateRecordedCall s call
    require (codeToolCall s call.origin).isNone
      (violation "duplicate code tool admission event")
    require (some promiseIdBase = checkedAdd64 s.idCursors.lastPromiseId 1)
      (violation "code tool promise reservation is not contiguous")
    let last ← orError (checkedAdd64 promiseIdBase (codeToolPromiseSlots - 1))
      (violation "promise counter exhausted")
    let admitted : CodeToolCall :=
      { spec := call, callId := codeToolCallId call.origin, promiseIdBase, status := .pending }
    let opened := s.setScopes (s.codeTools.scopes.modify call.origin.executionId fun scope =>
      { scope with calls := scope.calls.insert call.origin.requestId admitted })
    .ok { opened with idCursors := { s.idCursors with lastPromiseId := last } }
  | .callCompleted origin result => do
    let call ← orError (codeToolCall s origin) (violation "unknown code tool request")
    validateResultFields call result.callId result.status
    require (¬ call.status.isTerminal) (violation "duplicate code tool completion event")
    .ok (setCodeCallStatus s origin (.completed result))
  | .callDeferred origin suspension => do
    let call ← orError (codeToolCall s origin) (violation "unknown code tool request")
    require (call.status = .pending)
      (violation "code tool request was already deferred or completed")
    validateCodeSuspension s call suspension
    .ok (setCodeCallStatus s origin (.waiting suspension))
  | .scopeClosed executionId => do
    require (s.codeTools.scopes.contains executionId)
      (violation "unknown code tool execution scope")
    .ok (s.setScopes
      (s.codeTools.scopes.modify executionId (fun scope => { scope with closed := true })))

end Lightspeed.Harness
