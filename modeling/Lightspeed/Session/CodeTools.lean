import Lightspeed.Session.Admissions

/-!
# Code tools

`code_tools.rs`: the requests of code tool runners and the results of their calls wait in the workflow's
state, and one pass of the loop turns them into events. What waits for promises or a deadline goes on in
the same pass.
-/

namespace Lightspeed.Session

open Lib Harness

/-! ## What is there to do -/

/-- The waiting calls of a session's scopes. -/
def waitingCalls (core : CoreAgentState) : List (CodeToolOrigin × ToolBatchSuspension) :=
  core.codeTools.scopes.values.flatMap fun scope =>
    scope.calls.values.filterMap fun call =>
      match call.status with
      | .waiting suspension => some (call.spec.origin, suspension)
      | _ => none

/-- A scope whose parent no longer waits. -/
def scopeExpired (core : CoreAgentState) (scope : CodeToolScope) : Bool :=
  !scope.closed && !(validateLiveParent core scope.spec).isOk

/-- `code_tools::has_immediate_work`. -/
def hasCodeToolWork (s : AgentSessionWorkflow) : Bool :=
  !s.codeTools.pending.isEmpty || !s.codeTools.completions.isEmpty ||
    s.coreState.codeTools.scopes.values.any (scopeExpired s.coreState) ||
    (waitingCalls s.coreState).any fun (origin, _) => (codeToolWake s.coreState origin 0).isSome

/-- `code_tools::nearest_wake_ms`, as the deadlines it takes the least of. -/
def codeToolDeadlines (s : AgentSessionWorkflow) : List Nat :=
  (waitingCalls s.coreState).filterMap fun (_, suspension) => suspension.spec.deadlineAtMs

/-- `code_tools::is_quiescent`. -/
def codeToolsQuiescent (s : AgentSessionWorkflow) : Bool :=
  s.codeTools.waiters == 0 && s.codeTools.pending.isEmpty && s.codeTools.completions.isEmpty &&
    s.codeTools.inflight.isEmpty

/-- `blocks_parent_unpark`. -/
def blocksParentUnpark (s : AgentSessionWorkflow) : Bool :=
  s.coreState.codeTools.scopes.values.any fun scope =>
    scope.calls.values.any fun call => !call.status.isTerminal

/-! ## Applying facts -/

/-- The command of `code_tools.rs` that a fact makes: whether it was admitted. -/
def applyCodeToolCommand (args : AgentSessionArgs) (command : CoreAgentCommand) :
    SessionProgram Bool := do
  match ← admitAndAppendCommand args command with
  | .accepted => pure true
  | .rejected => pure false

/-- `apply_internal`. -/
def applyInternal (args : AgentSessionArgs) (command : CoreAgentCommand) : SessionProgram Unit := do
  if ← applyCodeToolCommand args command then pure () else raise .fatal

/-- `boundary_call_result`. -/
def boundaryCallResult (callId : ToolCallId) (status : ToolCallStatus) (errorRef : BlobRef) :
    ToolCallResult where
  callId := callId
  status := status
  errorRef := some errorRef
  modelVisibleContextEntries := [toolResultContextEntry callId status errorRef]

/-- `put_boundary_error_blob`, with the blob that every runtime guarantees when the store gives none. -/
def putBoundaryErrorBlob : SessionProgram BlobRef := do
  let stored ← ask .putBlob
  pure (stored.getD (.fromBytes "tool call failed at the runtime boundary"))

/-- The command of a completion. -/
def completionCommand (origin : CodeToolOrigin) : CodeToolInvokeActivityResult → CoreAgentCommand
  | .completed result => .completeCodeToolCall origin result
  | .deferred spec => .deferCodeToolCall origin spec

/-- Whether a call is pending. -/
def callIsPending (core : CoreAgentState) (origin : CodeToolOrigin) : Bool :=
  (codeToolCall core origin).any fun call =>
    match call.status with
    | .pending => true
    | _ => false

/-- The loop of `process_pending` over the completions: a result that the harness refuses fails its
call. -/
def processCompletion (args : AgentSessionArgs)
    (completion : CodeToolOrigin × CodeToolInvokeActivityResult) : SessionProgram Unit := do
  let (origin, outcome) := completion
  let s ← readState
  -- Only a pending call takes a result.
  if callIsPending s.coreState origin then
    let admitted ← applyCodeToolCommand args (completionCommand origin outcome)
    if admitted then pure ()
    else
      let errorRef ← putBoundaryErrorBlob
      applyInternal args (.completeCodeToolCall origin
        (boundaryCallResult (codeToolCallId origin) .failed errorRef))
  changeState fun s =>
    { s with codeTools := { s.codeTools with
        inflight := s.codeTools.inflight.filter (· ≠ origin) } }

/-! ## Requests -/

/-- `invocation_command`: the call that a runner may make, or has made before. -/
def invocationCommand (core : CoreAgentState) (request : InvokeCodeToolRequest) :
    Option CoreAgentCommand := do
  let scope ← core.codeTools.scopes.get? request.executionId
  match scope.calls.get? request.requestId with
  | some existing =>
    if existing.spec.bindingId ≠ request.bindingId ∨
        existing.spec.argumentsRef ≠ request.argumentsRef then none
  | none =>
    if scope.closed ∨ scope.spec.maxCalls ≤ scope.calls.entries.length ∨
        scope.spec.maxInFlight ≤
          (scope.calls.values.filter fun call => !call.status.isTerminal).length then none
  let binding ← scope.spec.bindings.get? request.bindingId
  some (.admitCodeToolCall
    { origin := ⟨request.executionId, request.requestId⟩
      bindingId := request.bindingId
      toolId := binding.toolId
      toolName := binding.toolName
      argumentsRef := request.argumentsRef })

/-- Whether two lists of tools hold the same ones. -/
def sameTools (a b : List ToolId) : Bool := a.all (· ∈ b) && b.all (· ∈ a)

/-- Whether a request to open a scope is the one that opened it. -/
def opensSameScope (existing : CodeToolScope) (request : OpenCodeToolScopeRequest) : Bool :=
  existing.spec.parentInvocationId == request.parentInvocationId &&
    existing.spec.maxCalls == request.maxCalls && existing.spec.maxInFlight == request.maxInFlight &&
    request.allowedTools.all
      (sameTools (existing.spec.bindings.values.map CodeToolBinding.toolId))

/-- Whether a request keeps the limits of scopes. -/
def keepsScopeLimits (request : OpenCodeToolScopeRequest) : Bool :=
  request.allowedTools.all (fun allowed => allowed.length ≤ 4096) && request.maxCalls != 0 &&
    request.maxCalls ≤ maxCodeToolCallsPerScope && request.maxInFlight != 0 &&
    request.maxInFlight ≤ maxCodeToolInFlight && request.maxInFlight ≤ request.maxCalls

/-- `select_code_tools`, as a check that the selection exists. -/
def selectsCodeTools (tools : ToolMap) (parent : ToolId) (allowed : Option (List ToolId)) : Bool :=
  allowed.all fun allowed =>
    allowed.all fun id => (tools.get? id).any fun tool => tool.id != parent

/-- What `admit_open` needs of the state before it prepares bindings. -/
def canPrepareScope (core : CoreAgentState) (request : OpenCodeToolScopeRequest) : Bool :=
  core.runs.active.any (fun run => run.runConfig.modelOverride.isSome || core.lifecycle.config.isSome) &&
    (((core.workflowTools.startRequests.get? request.parentInvocationId).or
        (core.workflowTools.boundInvocations.get? request.parentInvocationId)).bind
      (fun parent => core.workflowTools.bindings.get? parent.workflowToolId)).any
      fun parent => selectsCodeTools core.tooling.tools parent.definition.tool.id request.allowedTools

/-- `admit_open`: whether the scope is open afterwards, for this request. -/
def admitOpen (args : AgentSessionArgs) (request : OpenCodeToolScopeRequest) :
    SessionProgram Bool := do
  let s ← readState
  let core := s.coreState
  match core.codeTools.scopes.get? request.executionId with
  | some existing => pure (opensSameScope existing request)
  | none =>
    if ¬ keepsScopeLimits request ∨ ¬ canPrepareScope core request then pure false
    else
      match ← awaitActivity args .prepareCodeToolScope with
      | some (.bindings bindings) =>
        let t ← readState
        if t.coreState.tooling.revision ≠ core.tooling.revision ∨
            ¬ request.allowedTools.all (sameTools (bindings.values.map CodeToolBinding.toolId)) then
          pure false
        else
          applyCodeToolCommand args (.openCodeToolScope
            { executionId := request.executionId
              parentInvocationId := request.parentInvocationId
              bindings
              maxCalls := request.maxCalls
              maxInFlight := request.maxInFlight })
      | _ => pure false

/-- The loop of `process_pending` over the requests. -/
def processCodeToolRequest (args : AgentSessionArgs) (pending : Nat × CodeToolRequest) :
    SessionProgram Unit := do
  let (ticket, request) := pending
  let s ← readState
  let admitted ←
    match request with
    | .open request => admitOpen args request
    | .invoke request =>
      match invocationCommand s.coreState request with
      | some command => applyCodeToolCommand args command
      | none => pure false
    | .close executionId => applyCodeToolCommand args (.closeCodeToolScope executionId)
  changeState fun s =>
    { s with codeTools := { s.codeTools with
        receipts := s.codeTools.receipts ++ [(ticket, admitted)] } }

/-! ## Waits -/

/-- `code_tool_joined_result`. -/
def codeToolJoinedResult (core : CoreAgentState) (origin : CodeToolOrigin) (cancelPending : Bool) :
    Option ToolCallResult := do
  let call ← codeToolCall core origin
  let promiseId ← call.joinedPromises.head?
  let promise ← core.promises.promises.get? promiseId
  let outcome ← joinedCallOutcome promise cancelPending
  some { callId := call.callId, status := outcome.status, outputRef := outcome.outputRef
         errorRef := outcome.errorRef }

/-- The waiting calls that may go on. -/
def readyCalls (core : CoreAgentState) (nowMs : Nat) :
    List (CodeToolOrigin × ToolBatchSuspension × AwaitOutcome) :=
  (waitingCalls core).filterMap fun (origin, suspension) =>
    (codeToolWake core origin nowMs).map fun wake => (origin, suspension, wake)

/-- The loop of `reconcile_waits`, at one call. -/
def resumeWait (args : AgentSessionArgs) (claimObservedAtMs : Nat)
    (ready : CodeToolOrigin × ToolBatchSuspension × AwaitOutcome) : SessionProgram Unit := do
  let (origin, suspension, wake) := ready
  match suspension with
  | .awaitTool callId spec =>
    match ← ask (.materializeAwaitResult spec.promiseIds) with
    | none => raise .fatal
    | some materialized =>
      applyInternal args (.resumeCodeToolCall origin
        { callId, status := .succeeded, outputRef := some materialized.resultRef } claimObservedAtMs)
  | .joinedWorkflowCalls _ spec =>
    match ← ask (.prepareJoinedContext spec.promiseIds) with
    | none => raise .fatal
    | some _ =>
      let s ← readState
      match codeToolJoinedResult s.coreState origin (wake != .terminal) with
      | none => raise .refused
      | some result => applyInternal args (.resumeCodeToolCall origin result claimObservedAtMs)

/-- `reconcile_waits`. -/
def reconcileWaits (args : AgentSessionArgs) : SessionProgram Unit := do
  let s ← readState
  (readyCalls s.coreState s.nowMs).forM (resumeWait args s.nowMs)

/-! ## One pass -/

/-- `process_pending`. -/
def processPendingCodeTools (args : AgentSessionArgs) : SessionProgram Unit := do
  let completions ← takeState fun s =>
    (s.codeTools.completions, { s with codeTools := { s.codeTools with completions := [] } })
  completions.forM (processCompletion args)
  let pending ← takeState fun s =>
    (s.codeTools.pending, { s with codeTools := { s.codeTools with pending := [] } })
  pending.forM (processCodeToolRequest args)
  let s ← readState
  (s.coreState.codeTools.scopes.values.filter (scopeExpired s.coreState)).forM fun scope =>
    applyInternal args (.closeCodeToolScope scope.spec.executionId)
  reconcileWaits args

end Lightspeed.Session
