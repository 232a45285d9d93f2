import Lightspeed.Harness.Basic

/-!
# Promises, workflow tools and code tools

The reducers of `components/promise.rs`, `components/workflow_tool.rs` and
`components/code_tool.rs`. A promise is what a session waits on; a workflow-tool invocation creates
promises that a receiver resolves; a code-tool scope lets a workflow make tool calls of its own while
its parent call is parked. `pruneFinishedWork` is the session-wide half of pruning, which runs when a
batch completes and when a run ends.
-/

namespace Lightspeed.Harness

open Lib

def maxRetainedTerminalPromises : Nat := 256
def maxCompletionPromises : Nat := 32
def codeToolPromiseSlots : Nat := maxCompletionPromises
def replyCompletionKey : String := "reply"
def workflowToolExecutionKind : String := "workflow_tool.execution"

/-! ## Promises -/

/-- The state with another promise component. -/
def CoreAgentState.setPromises (s : CoreAgentState) (promises : PromiseComponentState) :
    CoreAgentState :=
  { s with promises := promises }

/-- `pending_promise_mut`. -/
def pendingPromise (s : CoreAgentState) (promiseId : PromiseId) : Result Promise := do
  let text := promiseId.text
  let promise ← orError (s.promises.promises.get? promiseId) (violation s!"unknown promise {text}")
  require (¬ promise.status.isTerminal) (violation s!"promise {text} is already terminal")
  .ok promise

/-- The promises with `promise` stored under its own id. -/
def PromiseComponentState.store (p : PromiseComponentState) (promise : Promise) :
    PromiseComponentState :=
  { p with promises := p.promises.insert promise.promiseId promise }

/-- The promises with a pending one made terminal, and listed as the latest settled. -/
def PromiseComponentState.settle (p : PromiseComponentState) (promiseId : PromiseId)
    (promise : Promise) : PromiseComponentState :=
  { promises := p.promises.insert promiseId promise, settled := p.settled ++ [promiseId] }

/-- `apply_event` of `components/promise.rs`. -/
def applyPromiseEvent (s : CoreAgentState) : PromiseEvent → Result CoreAgentState
  | .created promise => do
    let text := promise.promiseId.text
    require (promise.status = .pending) (violation "promises are created pending")
    require (¬ s.promises.promises.contains promise.promiseId)
      (violation s!"duplicate promise id {text}")
    match promise.scope with
    | .session => .ok ()
    | .run runId =>
      require (s.runs.active.any (fun active => active.runId == runId))
        (violation s!"promise {text} is scoped to run {runId} which is not active")
    .ok { s.setPromises (s.promises.store promise) with
      idCursors := { s.idCursors with
        lastPromiseId := max s.idCursors.lastPromiseId promise.promiseId.number } }
  | .resolved promiseId payloadRef => do
    let promise ← pendingPromise s promiseId
    .ok (s.setPromises
      (s.promises.settle promiseId { promise with status := .resolved, payloadRef }))
  | .failed promiseId errorRef => do
    let promise ← pendingPromise s promiseId
    .ok (s.setPromises (s.promises.settle promiseId { promise with status := .failed, errorRef }))
  | .cancelled promiseId => do
    let promise ← pendingPromise s promiseId
    .ok (s.setPromises (s.promises.settle promiseId { promise with status := .cancelled }))
  | .detached promiseId => do
    let promise ← pendingPromise s promiseId
    .ok (s.setPromises { s.promises with
      promises := s.promises.promises.insert promiseId { promise with scope := .session } })

/-- `prune_terminal_promises`: the oldest settled promises go once there are more than the cap. -/
def pruneTerminalPromises (s : CoreAgentState) : CoreAgentState :=
  let excess := s.promises.settled.length - maxRetainedTerminalPromises
  let dropped := s.promises.settled.take excess
  s.setPromises
    { promises := s.promises.promises.filter (fun id _ => id ∉ dropped)
      settled := s.promises.settled.drop excess }

/-- `promise_was_pruned`. -/
def promiseWasPruned (s : CoreAgentState) (promiseId : PromiseId) : Bool :=
  promiseId.number ≤ s.idCursors.lastPromiseId && !s.promises.promises.contains promiseId

/-! ## Workflow tools -/

/-- The state with other workflow tools. -/
def CoreAgentState.setWorkflowTools (s : CoreAgentState) (workflowTools : WorkflowToolState) :
    CoreAgentState :=
  { s with workflowTools := workflowTools }

/-- The promise ids that an invocation waits on. -/
def WorkflowToolInvocation.promiseIds (invocation : WorkflowToolInvocation) : List PromiseId :=
  match invocation.completionPromises with
  | some promises => promises.values
  | none => []

/-- The invocations that state holds: of bound receivers, and start intents. -/
def WorkflowToolState.invocations (w : WorkflowToolState) : List WorkflowToolInvocation :=
  w.boundInvocations.values ++ w.startRequests.values

/-- The finished invocations of `prune_finished_invocations`: nothing can still happen to them. -/
def finishedInvocations (s : CoreAgentState) : List WorkflowToolInvocationId :=
  (s.workflowTools.invocations.filter fun invocation =>
    invocation.promiseIds.all (fun id =>
        (s.promises.promises.get? id).all (fun promise => promise.status.isTerminal)) &&
      !s.codeTools.scopes.values.any (fun scope =>
        !scope.closed && scope.spec.parentInvocationId == invocation.invocationId)).map
    (fun invocation => invocation.invocationId)

/-- `prune_finished_invocations`. -/
def pruneFinishedInvocations (s : CoreAgentState) : CoreAgentState :=
  let finished := finishedInvocations s
  { s with
    workflowTools := { s.workflowTools with
      boundInvocations := s.workflowTools.boundInvocations.filter (fun id _ => id ∉ finished)
      startRequests := s.workflowTools.startRequests.filter (fun id _ => id ∉ finished)
      deliveryFailures := s.workflowTools.deliveryFailures.filter (fun id _ => id ∉ finished)
      startFailures := s.workflowTools.startFailures.filter (fun id _ => id ∉ finished) }
    codeTools := {
      scopes := s.codeTools.scopes.filter
        (fun _ scope => scope.spec.parentInvocationId ∉ finished) } }

/-- `prune_finished_work` of `components/run.rs`. -/
def pruneFinishedWork (s : CoreAgentState) : CoreAgentState :=
  pruneTerminalPromises (pruneFinishedInvocations s)

/-- `apply_config_event` of `components/workflow_tool.rs`. -/
def applyWorkflowToolConfigEvent (s : CoreAgentState) :
    WorkflowToolConfigEvent → Result CoreAgentState
  | .declaredBindingsAdmitted universeId version controller fingerprint bindings => do
    require (s.lifecycle.status = .open)
      (violation
        "session integration workflow bindings can only be admitted to an open session")
    require (s.workflowTools.sessionUniverseId.isNone ∧
        s.workflowTools.lifecycleController.isNone ∧
        s.workflowTools.declaredCreationFingerprint.isNone ∧
        s.workflowTools.bindings.entries.isEmpty)
      (violation "session integration workflow bindings are immutable after session creation")
    bindings.forM fun binding =>
      let toolId := binding.definition.workflowToolId
      require (binding.sessionUniverseId = universeId)
        (violation
          s!"workflow tool {toolId} source universe does not match the integrated session")
    .ok (s.setWorkflowTools { s.workflowTools with
      sessionUniverseId := some universeId
      lifecycleController := controller
      declarationVersion := some version
      declaredCreationFingerprint := some fingerprint
      bindings := OrdMap.ofList (bindings.map (fun b => (b.definition.workflowToolId, b))) })
  | .systemBindingAdmitted binding => do
    let toolId := binding.definition.workflowToolId
    require (s.lifecycle.status = .open)
      (violation "system workflow bindings can only be admitted to an open session")
    require (¬ s.workflowTools.bindings.contains toolId)
      (violation s!"system workflow tool {toolId} conflicts with an existing immutable binding")
    .ok (s.setWorkflowTools { s.workflowTools with
      systemBindingIds := s.workflowTools.systemBindingIds.insert toolId ()
      bindings := s.workflowTools.bindings.insert toolId binding })

/-- `code_tool_parent` of `components/code_tool.rs`. -/
def codeToolParent (s : CoreAgentState) (scope : CodeToolScopeSpec) :
    Result WorkflowToolInvocation :=
  orError ((s.workflowTools.boundInvocations.get? scope.parentInvocationId).or
      (s.workflowTools.startRequests.get? scope.parentInvocationId))
    (violation "code tool scope references unknown parent workflow invocation")

/-- `code_tool_call` of `components/code_tool.rs`. -/
def codeToolCall (s : CoreAgentState) (origin : CodeToolOrigin) : Option CodeToolCall :=
  (s.codeTools.scopes.get? origin.executionId).bind (fun scope => scope.calls.get? origin.requestId)

/-- `code_tool_call_for_id` of `components/code_tool.rs`. -/
def codeToolCallForId (s : CoreAgentState) (callId : ToolCallId) :
    Option (CodeToolScope × CodeToolCall) :=
  s.codeTools.scopes.values.findSome? fun scope =>
    (scope.calls.values.find? (fun call => call.callId == callId)).map (fun call => (scope, call))

/-- `validate_invocation_identity`. -/
def validateInvocationIdentity (binding : WorkflowToolBinding)
    (invocation : WorkflowToolInvocation) : Result Unit :=
  let id := invocation.invocationId
  require (invocation.sessionUniverseId = binding.sessionUniverseId ∧
      invocation.semanticType = binding.definition.semanticType ∧
      invocation.schemaRevision = binding.definition.schemaRevision ∧
      invocation.bindingFingerprint = binding.bindingFingerprint ∧
      invocation.workflowToolId = binding.definition.workflowToolId)
    (violation s!"workflow tool invocation {id} does not match its durable binding")

/-- `validate_code_tool_invocation`. -/
def validateCodeToolInvocation (s : CoreAgentState) (scope : CodeToolScope) (call : CodeToolCall)
    (binding : WorkflowToolBinding) (invocation : WorkflowToolInvocation) : Result Unit := do
  let parent ← codeToolParent s scope.spec
  require (invocation.runId = parent.runId ∧ invocation.turnId = parent.turnId ∧
      invocation.toolBatchId = parent.toolBatchId ∧ invocation.sessionId = parent.sessionId ∧
      invocation.sessionUniverseId = parent.sessionUniverseId ∧
      call.spec.toolId = binding.definition.tool.id ∧
      call.spec.argumentsRef = invocation.argumentsRef)
    (violation "code tool workflow invocation does not match its admitted scope and call")

/-- Whether a suspension holds the joined call of an invocation, with its reply promise. -/
def holdsJoinedCall (suspension : ToolBatchSuspension) (invocation : WorkflowToolInvocation) :
    Bool :=
  match suspension with
  | .awaitTool _ _ => false
  | .joinedWorkflowCalls calls _ =>
    calls.any fun joined =>
      joined.callId == invocation.toolCallId && joined.invocationId == invocation.invocationId &&
        invocation.completionPromises.bind (fun promises => promises.get? replyCompletionKey) ==
          some joined.promiseId

/-- Whether a batch waits for joined workflow replies. -/
def ToolBatchSuspension.isJoined : ToolBatchSuspension → Bool
  | .joinedWorkflowCalls _ _ => true
  | .awaitTool _ _ => false

/-- Whether a target is a receiver bound to the session. -/
def WorkflowToolTarget.isBound : WorkflowToolTarget → Bool
  | .bound _ _ => true
  | .start _ => false

/-- Whether a code call has come as far as an invocation with this completion needs: it waits for a
joined reply, or it succeeded. -/
def CodeToolCallStatus.carries (status : CodeToolCallStatus) (completion : WorkflowToolCompletion)
    (invocation : WorkflowToolInvocation) : Bool :=
  match completion, status with
  | .joined _ _, .waiting suspension => holdsJoinedCall suspension invocation
  | .accepted, .completed result => result.status == .succeeded
  | .promises _ _ _ _, .completed result => result.status == .succeeded
  | _, _ => false

/-- The model call behind a recorded invocation, in `validate_recorded_invocation`. -/
def validateRecordedModelCall (run : ActiveRun) (binding : WorkflowToolBinding)
    (invocation : WorkflowToolInvocation) : Result Unit := do
  let batchId := invocation.toolBatchId
  let callId := invocation.toolCallId
  let batch ← orError (run.toolBatches.get? batchId)
    (violation s!"workflow tool invocation references missing tool batch {batchId}")
  require (batch.turnId = invocation.turnId)
    (violation "workflow tool invocation does not match its tool batch turn")
  let call ← orError (batch.calls.find? (fun call => call.call.callId == callId))
    (violation s!"workflow tool invocation references missing tool call {callId}")
  require (call.call.toolId = some binding.definition.tool.id ∧
      call.call.argumentsRef = invocation.argumentsRef)
    (violation "workflow tool invocation does not match its durable tool call")
  match binding.completion with
  | .joined _ _ => do
    require (call.status = .pending)
      (violation "joined workflow tool invocation requires its original call to remain pending")
    let parked ← orError run.parkedToolBatch
      (violation "joined workflow tool invocation requires a parked tool batch")
    require parked.suspension.isJoined
      (violation "joined workflow tool invocation requires a joined-workflow suspension")
    require (parked.batchId = batchId ∧ holdsJoinedCall parked.suspension invocation)
      (violation "joined workflow tool invocation is missing its durable parked mapping")
  | _ =>
    require (call.status = .succeeded)
      (violation "workflow tool invocation does not match a successful durable tool call")

/-- The code call behind a recorded invocation, in `validate_recorded_invocation`. -/
def validateRecordedCodeCall (s : CoreAgentState) (scope : CodeToolScope) (call : CodeToolCall)
    (binding : WorkflowToolBinding) (invocation : WorkflowToolInvocation) : Result Unit := do
  validateCodeToolInvocation s scope call binding invocation
  require (call.status.carries binding.completion invocation)
    (violation "code tool workflow invocation does not match its durable completion or wait")

/-- `validate_recorded_invocation`, which returns the binding that it found. -/
def validateRecordedInvocation (s : CoreAgentState) (invocation : WorkflowToolInvocation) :
    Result WorkflowToolBinding := do
  let toolId := invocation.workflowToolId
  let binding ← orError (s.workflowTools.bindings.get? toolId)
    (violation s!"workflow tool invocation references unknown tool {toolId}")
  validateInvocationIdentity binding invocation
  let run ← orError s.runs.active
    (violation "workflow tool invocation can only be recorded for an active run")
  require (run.runId = invocation.runId)
    (violation "workflow tool invocation does not match the active run")
  match codeToolCallForId s invocation.toolCallId with
  | some (scope, call) => validateRecordedCodeCall s scope call binding invocation
  | none => validateRecordedModelCall run binding invocation
  (invocation.completionPromises.getD ∅).entries.forM fun (key, promiseId) =>
    require (s.promises.promises.contains promiseId)
      (violation ("workflow tool invocation references missing completion promise for key `" ++
        key ++ "`"))
  .ok binding

/-- The record of a terminal failure of an invocation: the first one stays. -/
def recordFailure (failures : OrdMap WorkflowToolInvocationId BlobRef)
    (invocationId : WorkflowToolInvocationId) (errorRef : BlobRef) (different : DomainError) :
    Result (OrdMap WorkflowToolInvocationId BlobRef) :=
  match failures.get? invocationId with
  | none => .ok (failures.insert invocationId errorRef)
  | some existing => do
    require (existing = errorRef) different
    .ok failures

/-- `apply_event` of `components/workflow_tool.rs`. -/
def applyWorkflowToolEvent (s : CoreAgentState) : WorkflowToolEvent → Result CoreAgentState
  | .invoked invocation => do
    let id := invocation.invocationId
    let binding ← validateRecordedInvocation s invocation
    let toolId := binding.definition.workflowToolId
    require binding.target.isBound
      (violation (s!"workflow tool {toolId} start-on-call targets do not produce " ++
        "bound-receiver invocations"))
    require (¬ s.workflowTools.boundInvocations.contains id)
      (violation s!"workflow tool invocation {id} is already recorded")
    .ok (s.setWorkflowTools { s.workflowTools with
      boundInvocations := s.workflowTools.boundInvocations.insert id invocation })
  | .startRequested invocation _ => do
    let id := invocation.invocationId
    let binding ← validateRecordedInvocation s invocation
    let toolId := binding.definition.workflowToolId
    require (¬ binding.target.isBound)
      (violation s!"workflow tool {toolId} bound targets do not produce start intents")
    require (¬ s.workflowTools.startRequests.contains id)
      (violation s!"workflow tool start intent {id} was already recorded")
    .ok (s.setWorkflowTools { s.workflowTools with
      startRequests := s.workflowTools.startRequests.insert id invocation })
  | .deliveryFailed invocationId errorRef => do
    require (s.workflowTools.boundInvocations.contains invocationId)
      (violation
        s!"workflow tool delivery failure references unknown invocation {invocationId}")
    let failures ← recordFailure s.workflowTools.deliveryFailures invocationId errorRef
      (violation (s!"workflow tool invocation {invocationId} already has a different " ++
        "delivery failure"))
    .ok (s.setWorkflowTools { s.workflowTools with deliveryFailures := failures })
  | .startFailed invocationId errorRef => do
    require (s.workflowTools.startRequests.contains invocationId)
      (violation
        s!"workflow tool start failure references unknown start intent {invocationId}")
    let failures ← recordFailure s.workflowTools.startFailures invocationId errorRef
      (violation (s!"workflow tool start intent {invocationId} already has a different " ++
        "terminal failure"))
    .ok (s.setWorkflowTools { s.workflowTools with startFailures := failures })

end Lightspeed.Harness
