import Lightspeed.Harness.Plan
import Lightspeed.Harness.Workflows

/-!
# Effect results

What `drive.rs` proposes when a runtime comes back: the result of a generation, of a compaction, of
tool calls, and the end of a suspension. A result is checked against the state that it finds, which may
have moved since the request went out.
-/

namespace Lightspeed.Harness

open Lib

/-! ## Generations -/

/-- `LlmGenerationResult` of `io.rs`. -/
structure LlmGenerationResult where
  runId : RunId
  turnId : TurnId
  status : LlmGenerationStatus
  facts : LlmGenerationFacts
  contextEntries : List ContextEntryInput := []
  failureRef : Option BlobRef := none

/-- The call that a tool-call entry makes. -/
def ContextEntryKind.callId? : ContextEntryKind → Option ToolCallId
  | .toolCall callId _ => some callId
  | _ => none

/-- `generated_tool_calls_are_usable`: every call has its own id, and every call entry its own
call. -/
def generatedToolCallsAreUsable (result : LlmGenerationResult) : Bool :=
  let calls := result.facts.toolCalls.map ObservedToolCall.callId
  let entries := result.contextEntries.filterMap (fun entry => entry.kind.callId?)
  decide calls.Nodup && entries.all (fun callId => callId ∈ calls) && decide entries.Nodup

/-- Whether an input is the assistant's text. -/
def ContextEntryInput.isAssistantMessage (input : ContextEntryInput) : Bool :=
  input.kind == .message .assistant

/-- `final_output`. -/
def finalOutput (entries : List ContextEntryInput) : Option ContentRef :=
  (entries.reverse.find? ContextEntryInput.isAssistantMessage).map ContextEntryInput.content

/-- The outcome of a turn whose response is cut down to calls that cannot run. -/
def unusableToolCalls : TurnOutcome :=
  .failed (some (.fromBytes unusableToolCallsFailureContent))

/-- Whether the calls of a generation decide its outcome, whatever the provider's label. -/
def LlmFinish.leavesCallsToDecide : LlmFinish → Bool
  | .toolCalls | .stop | .unknown => true
  | _ => false

/-- The outcome of a turn whose generation succeeded. -/
def succeededTurnOutcome (result : LlmGenerationResult) : TurnOutcome :=
  if result.facts.finish.leavesCallsToDecide ∧ result.facts.toolCalls ≠ [] then
    if generatedToolCallsAreUsable result then .toolCallsQueued else unusableToolCalls
  else if result.facts.finish.leavesCallsToDecide ∧ result.facts.approvalRequests ≠ [] then
    .approvalsRequested
  else
    match result.facts.finish with
    | .toolCalls => unusableToolCalls
    | .contextLimit => .contextLimit result.failureRef
    | .cancelled => .cancelled
    | .failed | .contentFilter | .length => .failed result.failureRef
    | .stop | .unknown => .finalOutput (finalOutput result.contextEntries)

/-- `turn_outcome_for_generation_result`. -/
def turnOutcomeForGenerationResult (result : LlmGenerationResult) : TurnOutcome :=
  match result.status with
  | .cancelled => .cancelled
  | .failed => .failed result.failureRef
  | .rejected =>
    if result.facts.finish = .contextLimit then .contextLimit result.failureRef
    else .rejected result.failureRef
  | .succeeded => succeededTurnOutcome result

/-- `source_for_llm_context_entry`. -/
def sourceForLlmContextEntry (runId : RunId) (turnId : TurnId) (entry : ContextEntryInput) :
    ContextEntrySource :=
  if entry.kind = .reasoningState then .reasoning runId turnId else .assistantOutput runId turnId

/-- `context_entries_from_llm_result`: only a turn that queues its calls puts them in context. -/
def contextEntriesFromLlmResult (s : CoreAgentState) (result : LlmGenerationResult)
    (outcome : TurnOutcome) : List ContextEntry :=
  let kept := result.contextEntries.filter
    (fun entry => outcome == .toolCallsQueued || entry.kind.callId?.isNone)
  contextEntriesFromInputs s (kept.map fun entry =>
    (none, sourceForLlmContextEntry result.runId result.turnId entry, entry))

/-- Requests for approval, numbered after `last`. -/
def approvalRequestsAfter (runId : RunId) (last : Nat) :
    List ObservedApprovalRequest → List ApprovalRequested
  | [] => []
  | observed :: rest =>
    { approvalId := approvalId (last + 1), runId, subject := observed.subject
      continuation := observed.continuation } :: approvalRequestsAfter runId (last + 1) rest

/-- `generation_result_proposals`. -/
def generationResultProposals (s : CoreAgentState) (result : LlmGenerationResult) :
    Result (List CoreAgentEventProposal) := do
  let run ← orError s.runs.active (violation "no active run")
  require (run.runId = result.runId ∧ run.activeTurnId = some result.turnId)
    (violation "llm generation result does not match active turn")
  let overflow : Bool := result.facts.finish == .contextLimit
  let outcome := turnOutcomeForGenerationResult result
  let entries := if overflow then [] else contextEntriesFromLlmResult s result outcome
  let requests := if overflow then [] else result.facts.approvalRequests
  let propose := turnProposal result.runId result.turnId
  let applied : List CoreAgentEventProposal :=
    if entries = [] then [] else [propose (.context (.entriesApplied s.context.revision entries))]
  .ok (applied ++
    [propose (.turn (.generationCompleted result.turnId result.runId result.status result.facts))] ++
    (approvalRequestsAfter result.runId s.idCursors.lastApprovalId requests).map
      (fun approval => propose (.approval (.requested approval))) ++
    [propose (.turn (.completed result.turnId outcome))])

/-! ## Compactions -/

/-- `ContextCompactionResult` of `io.rs`. -/
structure ContextCompactionResult where
  sessionId : SessionId
  contextRevision : Nat
  status : ContextCompactionStatus
  contextEntries : List ContextEntryInput := []
  failureRef : Option BlobRef := none
  usage : Option LlmUsage := none
  calls : Nat := 0

/-- The entries that stand for what a compaction covered. -/
def compactionEntries (s : CoreAgentState) (inputs : List ContextEntryInput) :
    List ContextEntry :=
  contextEntriesFromInputs s (inputs.map fun input =>
    (none, .runtime standaloneCompactionSource, input))

/-- What a failed recovery of an overflow does to the run that asked for it: it writes the steering
down, and fails the run. -/
def overflowFailureProposals (s : CoreAgentState) (run : ActiveRun) (baseRevision : Nat)
    (failureRef : Option BlobRef) : List CoreAgentEventProposal :=
  let steering := missingSteeringEntries s
  let applied : List CoreAgentEventProposal :=
    if run.status = .running ∧ steering ≠ [] then
      [runProposal run.runId (.context (.entriesApplied baseRevision steering))]
    else []
  applied ++ [runProposal run.runId (.run (.failed run.runId
    (runFailure .contextFailure failureRef contextLimitFailureContent)))]

/-- `context_compaction_result_proposals`. -/
def contextCompactionResultProposals (s : CoreAgentState) (result : ContextCompactionResult) :
    Result (List CoreAgentEventProposal) := do
  let plan ← orError s.context.compaction.pendingPlan
    (violation "context compaction result received without pending request")
  let resultRevision := result.contextRevision
  let revision := s.context.revision
  require (resultRevision = revision)
    (violation (s!"context compaction result revision {resultRevision} does not match active " ++
      s!"context revision {revision}"))
  require (¬ (result.status = .succeeded ∧ result.contextEntries = []))
    (violation "successful compaction has no usable context")
  require (¬ (result.status = .failed ∧ result.contextEntries ≠ []))
    (violation "failed compaction cannot replace context")
  match result.status with
  | .succeeded =>
    .ok [sessionProposal (.context
        (.entriesRemoved revision plan.coveredEntryIds .providerCompacted)),
      sessionProposal (.context
        (.entriesApplied (revision + 1) (compactionEntries s result.contextEntries))),
      sessionProposal (.context (.compactionFinished (revision + 2) .succeeded result.failureRef
        result.usage result.calls))]
  | .failed =>
    let finished := sessionProposal (.context (.compactionFinished revision .failed
      result.failureRef result.usage result.calls))
    match s.runs.active with
    | some run =>
      if plan.trigger = .contextLimit then
        .ok (finished :: overflowFailureProposals s run (revision + 1) result.failureRef)
      else .ok [finished]
    | none => .ok [finished]

/-! ## Tool calls -/

/-- `ToolInvocationBatchResult` of `io.rs`. -/
structure ToolInvocationBatchResult where
  runId : RunId
  turnId : TurnId
  batchId : ToolBatchId
  results : List ToolCallResult

/-- The joins of a batch result. -/
def ToolInvocationBatchResult.joins (result : ToolInvocationBatchResult) : CoreAgentJoins where
  runId := some result.runId
  turnId := some result.turnId
  toolBatchId := some result.batchId

/-- `validate_tool_batch_result`. -/
def validateToolBatchResult (result : ToolInvocationBatchResult) : Result Unit :=
  validateEach "duplicate tool invocation result for call" ToolCallResult.callId
    (fun result =>
      require (result.status = .succeeded ∨ result.status = .failed ∨ result.status = .cancelled)
        (violation "tool invocation result must have a terminal call status"))
    [] result.results

/-- `validate_result_matches_active_tool_batch`. -/
def validateResultMatchesActiveToolBatch (s : CoreAgentState) (result : ToolInvocationBatchResult)
    (requireParked : Bool) : Result Unit := do
  let batchId := result.batchId
  let run ← orError s.runs.active (violation "no active run")
  require (run.runId = result.runId ∧ run.activeToolBatchId = some batchId)
    (violation "tool invocation result does not match active tool batch")
  let batch ← orError (run.toolBatches.get? batchId)
    (violation s!"tool batch {batchId} is missing")
  require (batch.turnId = result.turnId)
    (violation "tool invocation result does not match active turn")
  require (requireParked = true → run.isParkedOn batchId = true)
    (violation s!"tool batch {batchId} is not parked")
  require (requireParked = false → run.isParkedOn batchId = false)
    (violation "parked tool batch must be unparked by command")
  result.results.forM fun item => do
    let callId := item.callId
    let call ← orError (batch.calls.find? (fun call => call.call.callId == callId))
      (violation s!"tool invocation result references missing call {callId}")
    require (call.status = .pending)
      (violation "tool invocation result requires pending tool calls")

/-- What the loop of `tool_call_completed_proposals_inner` reads: the result's place in the session,
and the code call that it answers when no batch asked for it. -/
structure ResultScope where
  sessionId : Option SessionId
  runId : RunId
  turnId : TurnId
  batchId : ToolBatchId
  origin : Option CodeToolOrigin := none

/-- The number from which a result may mint promises, in `validate_minted_promise_id`. -/
def mintBase (s : CoreAgentState) (scope : ResultScope) (promiseId : PromiseId) : Result Nat :=
  let batchId := scope.batchId
  let runId := scope.runId
  match scope.origin with
  | some origin => do
    let call ← orError (codeToolCall s origin) (violation "unknown code tool promise reservation")
    require (promiseId.number < call.promiseIdBase + codeToolPromiseSlots)
      (violation "code tool effect exceeded its reserved promise ids")
    .ok call.promiseIdBase
  | none => do
    let batch ← orError ((s.runs.active.filter (fun run => run.runId == runId)).bind
        (fun run => run.toolBatches.get? batchId))
      (violation s!"tool batch {batchId} of run {runId} is not active")
    .ok batch.promiseIdBase

/-- `validate_minted_promise_id`. -/
def validateMintedPromiseId (s : CoreAgentState) (scope : ResultScope) (promiseId : PromiseId)
    (minted : List PromiseId) : Result Unit := do
  let text := promiseId.text
  let batchId := scope.batchId
  let base ← mintBase s scope promiseId
  require (base ≤ promiseId.number)
    (violation s!"promise {text} was minted below tool batch {batchId}'s promise base {base}")
  require (¬ s.promises.promises.contains promiseId ∧ promiseId ∉ minted)
    (violation s!"promise {text} already exists")

/-- The accumulators of `tool_call_completed_proposals_inner`. The first group spans the results, the
second is one result's own. -/
structure ResultScan where
  proposals : List CoreAgentEventProposal := []
  cancelled : List PromiseId := []
  minted : List PromiseId := []
  invocations : OrdMap WorkflowToolId Nat := ∅
  joinedCalls : List JoinedWorkflowCall := []
  joinedPromises : List CoreAgentEventProposal := []
  joinedTools : List CoreAgentEventProposal := []
  environmentSelected : Bool := false
  promises : List CoreAgentEventProposal := []
  tools : List CoreAgentEventProposal := []
  environment : List CoreAgentEventProposal := []
  invoked : Bool := false

/-- Whether an effect selects an environment. -/
def ToolEffect.isEnvironmentSelection : ToolEffect → Bool
  | .environmentActivate _ | .environmentDeactivate => true
  | _ => false

/-- `batch_has_terminal_environment_selection`. -/
def batchHasTerminalEnvironmentSelection (s : CoreAgentState) (batchId : ToolBatchId) : Bool :=
  (s.runs.active.bind (fun run => run.toolBatches.get? batchId)).any fun batch =>
    batch.calls.any fun call =>
      call.result.any (fun result => result.effects.any ToolEffect.isEnvironmentSelection)

/-- The joins of one call of a result. -/
def ResultScope.callJoins (scope : ResultScope) (callId : ToolCallId) : CoreAgentJoins where
  runId := some scope.runId
  turnId := some scope.turnId
  toolBatchId := some scope.batchId
  toolCallId := some callId

/-- An effect that selects an environment. -/
def scanEnvironment (s : CoreAgentState) (scope : ResultScope) (item : ToolCallResult)
    (scan : ResultScan) (event : EnvironmentEvent) : Result ResultScan := do
  let callId := item.callId
  require (¬ (scan.environmentSelected = true ∨
      (scope.origin = none ∧ batchHasTerminalEnvironmentSelection s scope.batchId)))
    (violation "tool batch produced more than one environment selection effect")
  require (item.status = .succeeded)
    (violation s!"failed tool call {callId} produced an environment selection effect")
  require (s.lifecycle.config.bind (fun config => config.features.environments)).isSome
    (violation "environment selection effect requires the environments feature")
  .ok { scan with
    environmentSelected := true
    environment := scan.environment ++ [⟨scope.callJoins callId, .environment event⟩] }

/-- The promise of a create effect: `promise_from_create_effect`. -/
def timerPromise (runId : RunId) (promiseId : PromiseId) (fireAtMs : Nat)
    (deadlineAtMs : Option Nat) : Promise where
  promiseId := promiseId
  source := .timer fireAtMs
  scope := .run runId
  ownership := .model
  status := .pending
  deadlineAtMs := deadlineAtMs

/-- The scan with one more promise event of its call. -/
def ResultScan.addPromise (scan : ResultScan) (scope : ResultScope) (callId : ToolCallId)
    (event : PromiseEvent) : ResultScan :=
  { scan with promises := scan.promises ++ [⟨scope.callJoins callId, .promise event⟩] }

/-- An effect that creates a timer promise. -/
def scanCreate (s : CoreAgentState) (scope : ResultScope) (item : ToolCallResult)
    (scan : ResultScan) (promise : Promise) : Result ResultScan := do
  validateMintedPromiseId s scope promise.promiseId scan.minted
  .ok { scan.addPromise scope item.callId (.created promise) with
    minted := promise.promiseId :: scan.minted }

/-- The promise that a model effect names, when it is still in state and the model's. A promise that
was pruned settled long ago. -/
def modelPromise (s : CoreAgentState) (promiseId : PromiseId) (verb done : String) :
    Result (Option Promise) :=
  let text := promiseId.text
  match s.promises.promises.get? promiseId with
  | none =>
    if promiseWasPruned s promiseId then .ok none
    else .error (violation s!"promise {verb} effect references unknown promise {text}")
  | some promise => do
    require (promise.ownership = .model)
      (violation s!"promise {text} is runtime-owned and cannot be {done} by the model")
    .ok (some promise)

/-- An effect that cancels a promise. -/
def scanCancel (s : CoreAgentState) (scope : ResultScope) (item : ToolCallResult)
    (scan : ResultScan) (promiseId : PromiseId) : Result ResultScan := do
  match ← modelPromise s promiseId "cancel" "cancelled" with
  | none => .ok scan
  | some promise =>
    if promise.status.isTerminal ∨ promiseId ∈ scan.cancelled then .ok scan
    else .ok { scan.addPromise scope item.callId (.cancelled promiseId) with
      cancelled := promiseId :: scan.cancelled }

/-- An effect that detaches a promise from its run. -/
def scanDetach (s : CoreAgentState) (scope : ResultScope) (item : ToolCallResult)
    (scan : ResultScan) (promiseId : PromiseId) : Result ResultScan := do
  let text := promiseId.text
  let resultRun := scope.runId
  match ← modelPromise s promiseId "detach" "detached" with
  | none => .ok scan
  | some promise =>
    if promise.status.isTerminal ∨ promiseId ∈ scan.cancelled then .ok scan
    else
      match promise.scope with
      | .session => .ok scan
      | .run runId => do
        require (runId = resultRun)
          (violation (s!"promise detach effect references promise {text} scoped to run {runId}, " ++
            s!"not result run {resultRun}"))
        .ok (scan.addPromise scope item.callId (.detached promiseId))

/-- Whether a completion is joined to its call. -/
def WorkflowToolCompletion.isJoined : WorkflowToolCompletion → Bool
  | .joined _ _ => true
  | _ => false

/-- The promise under one completion key of an invocation. -/
def completionPromise (binding : WorkflowToolBinding) (invocation : WorkflowToolInvocation)
    (runId : RunId) (deadlineAtMs : Option Nat) (key : String) (promiseId : PromiseId) :
    Promise where
  promiseId := promiseId
  source := completionPromiseSource binding invocation key
  scope := .run runId
  ownership := if binding.completion.isJoined then .runtime else .model
  status := .pending
  deadlineAtMs := deadlineAtMs

/-- The loop of an invocation over its completion keys: each key mints one promise. -/
def scanCompletions (s : CoreAgentState) (scope : ResultScope) (callId : ToolCallId)
    (promise : String → PromiseId → Promise) (scan : ResultScan) :
    List (String × PromiseId) → Result ResultScan
  | [] => .ok scan
  | (key, promiseId) :: rest => do
    validateMintedPromiseId s scope promiseId scan.minted
    scanCompletions s scope callId promise
      { scan.addPromise scope callId (.created (promise key promiseId)) with
        minted := promiseId :: scan.minted } rest

/-- The promises of an invocation, when it has any. -/
def scanInvocationPromises (s : CoreAgentState) (scope : ResultScope) (callId : ToolCallId)
    (binding : WorkflowToolBinding) (invocation : WorkflowToolInvocation)
    (deadline : Except DomainError (Option Nat)) (scan : ResultScan) : Result ResultScan :=
  match invocation.completionPromises with
  | none => .ok scan
  | some promises => do
    let deadlineAtMs ← deadline
    require (¬ (binding.completion.isJoined = true ∧
        (binding.completion.deadlineAfterMs.isSome ≠ deadlineAtMs.isSome ∨
          deadlineAtMs = some 0)))
      (violation ("joined workflow tool invocation does not carry the hard completion deadline " ++
        "its binding declares"))
    scanCompletions s scope callId
      (completionPromise binding invocation scope.runId deadlineAtMs) scan promises.entries

/-- The event that records an invocation, by the target of its binding. -/
def invocationEvent (binding : WorkflowToolBinding) (invocation : WorkflowToolInvocation) :
    WorkflowToolEvent :=
  match binding.target with
  | .bound _ _ => .invoked invocation
  | .start ref =>
    .startRequested invocation
      (workflowToolExecutionId invocation.invocationId ref.recipeFingerprint)

/-- The scan with an invocation recorded. A joined one leaves its call open: its events move behind
those of every other call. -/
def ResultScan.addInvocation (scan : ResultScan) (scope : ResultScope) (callId : ToolCallId)
    (binding : WorkflowToolBinding) (invocation : WorkflowToolInvocation) : Result ResultScan :=
  let recorded : CoreAgentEventProposal :=
    ⟨scope.callJoins callId, .workflowTool (invocationEvent binding invocation)⟩
  if binding.completion.isJoined then do
    let promiseId ← orError
      (invocation.completionPromises.bind (fun promises => promises.get? replyCompletionKey))
      (violation "Joined invocation validation requires one reply Promise")
    .ok { scan with
      joinedCalls := scan.joinedCalls ++ [⟨callId, invocation.invocationId, promiseId⟩]
      joinedPromises := scan.joinedPromises ++ scan.promises
      joinedTools := scan.joinedTools ++ scan.tools ++ [recorded]
      promises := []
      tools := [] }
  else .ok { scan with tools := scan.tools ++ [recorded] }

/-- An effect that invokes a workflow tool. -/
def scanInvoke (s : CoreAgentState) (scope : ResultScope) (item : ToolCallResult)
    (scan : ResultScan) (invocation : WorkflowToolInvocation)
    (deadline : Except DomainError (Option Nat)) : Result ResultScan := do
  let callId := item.callId
  let toolId := invocation.workflowToolId
  require (scan.invoked = false)
    (violation s!"tool call {callId} produced more than one workflow tool invoke effect")
  require (item.status = .succeeded)
    (violation s!"failed tool call {callId} produced a workflow tool invoke effect")
  let sessionId ← orError scope.sessionId
    (violation "workflow tool invoke effect was admitted without session identity")
  let pending := (scan.invocations.get? toolId).getD 0
  let binding ← validateInvokeEffect s ⟨sessionId, scope.runId, scope.turnId, scope.batchId, callId⟩
    invocation pending
  require (¬ (binding.completion.isJoined = true ∧ item.effects.length ≠ 1))
    (violation "joined workflow tool result must contain only its invoke effect")
  let scan ← scanInvocationPromises s scope callId binding invocation deadline
    { scan with invoked := true, invocations := scan.invocations.insert toolId (pending + 1) }
  scan.addInvocation scope callId binding invocation

/-- One step of the effect loop of `tool_call_completed_proposals_inner`. -/
def scanEffect (s : CoreAgentState) (scope : ResultScope) (item : ToolCallResult)
    (scan : ResultScan) : ToolEffect → Result ResultScan
  | .environmentActivate environmentId =>
    scanEnvironment s scope item scan (.activeEnvironmentSet environmentId)
  | .environmentDeactivate => scanEnvironment s scope item scan .activeEnvironmentCleared
  | .promiseCreate promiseId fireAtMs deadlineAtMs =>
    scanCreate s scope item scan (timerPromise scope.runId promiseId fireAtMs deadlineAtMs)
  | .promiseCancel promiseId => scanCancel s scope item scan promiseId
  | .promiseDetach promiseId => scanDetach s scope item scan promiseId
  | .workflowInvoke invocation deadline => scanInvoke s scope item scan invocation deadline
  | .malformedInvoke error | .malformed error => .error error
  | .other _ => .ok scan

/-- The result of a code call: `CodeToolCallResult::from`. -/
def ToolCallResult.toCodeResult (result : ToolCallResult) : CodeToolCallResult where
  callId := result.callId
  status := result.status
  outputRef := result.outputRef
  errorRef := result.errorRef

/-- The event that completes a call. -/
def ResultScope.completedEvent (scope : ResultScope) (item : ToolCallResult) : CoreAgentEvent :=
  match scope.origin with
  | some origin => .codeTool (.callCompleted origin item.toCodeResult)
  | none => .tool (.callCompleted scope.runId scope.turnId scope.batchId item)

/-- One step of the result loop of `tool_call_completed_proposals_inner`. -/
def scanResult (s : CoreAgentState) (scope : ResultScope) (scan : ResultScan)
    (item : ToolCallResult) : Result ResultScan := do
  let scan ← item.effects.foldlM (scanEffect s scope item)
    { scan with promises := [], tools := [], environment := [], invoked := false }
  if scan.joinedCalls.getLast?.any (fun joined => joined.callId == item.callId) then do
    require (scan.promises = [] ∧ scan.tools = [] ∧ scan.environment = [])
      (violation "joined workflow tool result mixed joined and unrelated effects")
    .ok scan
  else .ok { scan with
    proposals := scan.proposals ++
      ⟨scope.callJoins item.callId, scope.completedEvent item⟩ ::
        (scan.promises ++ scan.tools ++ scan.environment) }

/-- The event that defers a batch, or a code call, on its joined calls. -/
def ResultScope.deferredEvent (scope : ResultScope) (suspension : ToolBatchSuspension) :
    CoreAgentEvent :=
  match scope.origin with
  | some origin => .codeTool (.callDeferred origin suspension)
  | none => .tool (.batchParked scope.runId scope.turnId scope.batchId suspension)

/-- What a scan proposes once every result has been seen. -/
def ResultScan.finish (scan : ResultScan) (scope : ResultScope) : List CoreAgentEventProposal :=
  if scan.joinedCalls = [] then scan.proposals
  else
    let joins : CoreAgentJoins :=
      { runId := some scope.runId, turnId := some scope.turnId, toolBatchId := some scope.batchId
        toolCallId := scope.origin.map codeToolCallId }
    let suspension : ToolBatchSuspension := .joinedWorkflowCalls scan.joinedCalls
      { promiseIds := scan.joinedCalls.map JoinedWorkflowCall.promiseId, mode := .all }
    scan.proposals ++ scan.joinedPromises ++ [⟨joins, scope.deferredEvent suspension⟩] ++
      scan.joinedTools

/-- `tool_call_completed_proposals_inner`. -/
def toolCallCompletedProposals (s : CoreAgentState) (scope : ResultScope)
    (results : List ToolCallResult) : Result (List CoreAgentEventProposal) := do
  let scan ← results.foldlM (scanResult s scope) {}
  .ok (scan.finish scope)

/-- The place of a batch result in its session. -/
def ToolInvocationBatchResult.scope (result : ToolInvocationBatchResult)
    (sessionId : Option SessionId) : ResultScope where
  sessionId := sessionId
  runId := result.runId
  turnId := result.turnId
  batchId := result.batchId

/-- `tool_batch_result_proposals`. -/
def toolBatchResultProposals (sessionId : SessionId) (s : CoreAgentState)
    (result : ToolInvocationBatchResult) : Result (List CoreAgentEventProposal) := do
  validateToolBatchResult result
  validateResultMatchesActiveToolBatch s result false
  toolCallCompletedProposals s (result.scope (some sessionId)) result.results

end Lightspeed.Harness
