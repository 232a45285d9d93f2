import Lightspeed.Harness.Data

/-!
# The state and the events of a session

`CoreAgentState` of `components/state.rs` with the state of each component, and `CoreAgentEvent` of
`components/event.rs` with the events of each. A session is its log: the state is what reducing the
log's entries in order gives.
-/

namespace Lightspeed.Harness

open Lib

/-! ## Promises -/

/-- `PromiseSource` of `components/promise.rs`. -/
inductive PromiseSource where
  | timer (fireAtMs : Nat)
  | workflow (producerWorkflowId producerWorkflowKind invocationId completionKey : String)
  deriving DecidableEq

inductive PromiseScope where
  | run (runId : RunId)
  | session
  deriving DecidableEq

inductive PromiseOwnership where
  | model
  | runtime
  deriving DecidableEq

inductive PromiseStatus where
  | pending
  | resolved
  | failed
  | cancelled
  deriving DecidableEq

/-- `PromiseStatus::is_terminal`. -/
def PromiseStatus.isTerminal : PromiseStatus → Bool
  | .pending => false
  | _ => true

structure Promise where
  promiseId : PromiseId
  source : PromiseSource
  scope : PromiseScope
  ownership : PromiseOwnership
  status : PromiseStatus
  payloadRef : Option BlobRef := none
  errorRef : Option BlobRef := none
  deadlineAtMs : Option Nat := none
  deriving DecidableEq

structure PromiseComponentState where
  promises : OrdMap PromiseId Promise := ∅
  settled : List PromiseId := []

inductive PromiseResolution where
  | resolved (payloadRef : Option BlobRef)
  | failed (errorRef : Option BlobRef)
  | cancelled
  deriving DecidableEq

inductive PromiseEvent where
  | created (promise : Promise)
  | resolved (promiseId : PromiseId) (payloadRef : Option BlobRef)
  | failed (promiseId : PromiseId) (errorRef : Option BlobRef)
  | cancelled (promiseId : PromiseId)
  | detached (promiseId : PromiseId)
  deriving DecidableEq

/-! ## Workflow tools -/

structure WorkflowEndpointRef where
  workflowId : String
  workflowKind : String
  deriving DecidableEq

structure WorkflowStartRef where
  recipeFormat : Nat
  recipeRevision : Nat
  recipeRef : BlobRef
  recipeFingerprint : String
  deriving DecidableEq

inductive BoundWorkflowToolDispatch where
  | pull
  | push
  deriving DecidableEq

inductive WorkflowToolTarget where
  | bound (receiver : WorkflowEndpointRef) (dispatch : BoundWorkflowToolDispatch)
  | start (start : WorkflowStartRef)
  deriving DecidableEq

inductive WorkflowToolCompletionKeySource where
  | reply
  | stringArray (pointer : String)
  | arrayItemField (pointer field : String)
  | arrayIndices (pointer keyPrefix : String)
  deriving DecidableEq

inductive WorkflowToolCompletion where
  | accepted
  | joined (replySchemaRef : Option BlobRef) (deadlineAfterMs : Option Nat)
  | promises (replySchemaRef : Option BlobRef) (deadlineAfterMs : Option Nat) (maxPromises : Nat)
      (keySource : WorkflowToolCompletionKeySource)
  deriving DecidableEq

structure WorkflowToolDefinition where
  workflowToolId : WorkflowToolId
  schemaRevision : Nat
  semanticType : String
  tool : ToolSpec
  deriving DecidableEq

structure WorkflowToolBinding where
  sessionUniverseId : String
  definition : WorkflowToolDefinition
  target : WorkflowToolTarget
  completion : WorkflowToolCompletion
  bindingFingerprint : String
  deriving DecidableEq

structure WorkflowToolInvocation where
  invocationId : WorkflowToolInvocationId
  workflowToolId : WorkflowToolId
  semanticType : String
  schemaRevision : Nat
  bindingFingerprint : String
  sessionUniverseId : String
  sessionId : SessionId
  runId : RunId
  turnId : TurnId
  toolBatchId : ToolBatchId
  toolCallId : ToolCallId
  argumentsRef : BlobRef
  executionContextRef : Option BlobRef := none
  completionPromises : Option (OrdMap String PromiseId) := none
  deriving DecidableEq

structure WorkflowToolState where
  sessionUniverseId : Option String := none
  lifecycleController : Option WorkflowEndpointRef := none
  declarationVersion : Option Nat := none
  declaredCreationFingerprint : Option String := none
  bindings : OrdMap WorkflowToolId WorkflowToolBinding := ∅
  systemBindingIds : OrdMap WorkflowToolId Unit := ∅
  boundInvocations : OrdMap WorkflowToolInvocationId WorkflowToolInvocation := ∅
  deliveryFailures : OrdMap WorkflowToolInvocationId BlobRef := ∅
  startRequests : OrdMap WorkflowToolInvocationId WorkflowToolInvocation := ∅
  startFailures : OrdMap WorkflowToolInvocationId BlobRef := ∅

inductive WorkflowToolConfigEvent where
  | declaredBindingsAdmitted (sessionUniverseId : String) (declarationVersion : Nat)
      (lifecycleController : Option WorkflowEndpointRef) (creationFingerprint : String)
      (bindings : List WorkflowToolBinding)
  | systemBindingAdmitted (binding : WorkflowToolBinding)
  deriving DecidableEq

inductive WorkflowToolEvent where
  | invoked (invocation : WorkflowToolInvocation)
  | deliveryFailed (invocationId : WorkflowToolInvocationId) (errorRef : BlobRef)
  | startRequested (invocation : WorkflowToolInvocation) (executionId : String)
  | startFailed (invocationId : WorkflowToolInvocationId) (errorRef : BlobRef)
  deriving DecidableEq

/-! ## Tool calls and batches -/

/-- `ToolEffect` of `io.rs`, decoded. The source carries an effect as a kind with a map of texts
that `promise_from_create_effect` and its siblings decode; an effect of one of these kinds that
does not decode is `malformed`, with the decoder's error, and an invocation's deadline is decoded
on its own. -/
inductive ToolEffect where
  | environmentActivate (environmentId : EnvironmentId)
  | environmentDeactivate
  | promiseCreate (promiseId : PromiseId) (fireAtMs : Nat) (deadlineAtMs : Option Nat)
  | promiseCancel (promiseId : PromiseId)
  | promiseDetach (promiseId : PromiseId)
  | workflowInvoke (invocation : WorkflowToolInvocation)
      (completionDeadlineAtMs : Except DomainError (Option Nat))
  | malformedInvoke (error : DomainError)
  | malformed (error : DomainError)
  | other (kind : String)
  deriving DecidableEq

/-- `ToolCallResult` of `components/tooling.rs`, less its attachments and telemetry. -/
structure ToolCallResult where
  callId : ToolCallId
  status : ToolCallStatus
  outputRef : Option BlobRef := none
  modelVisibleContextEntries : List ContextEntryInput := []
  errorRef : Option BlobRef := none
  effects : List ToolEffect := []
  deriving DecidableEq

structure ToolCallState where
  call : ObservedToolCall
  status : ToolCallStatus
  result : Option ToolCallResult := none

structure ActiveToolBatch where
  batchId : ToolBatchId
  runId : RunId
  turnId : TurnId
  calls : List ToolCallState
  promiseIdBase : Nat

structure CompletedToolBatch where
  batchId : ToolBatchId
  runId : RunId
  turnId : TurnId
  results : List ToolCallResult

inductive AwaitMode where
  | all
  | any
  deriving DecidableEq

structure AwaitSpec where
  promiseIds : List PromiseId := []
  mode : AwaitMode := .all
  deadlineAtMs : Option Nat := none
  deriving DecidableEq

structure JoinedWorkflowCall where
  callId : ToolCallId
  invocationId : WorkflowToolInvocationId
  promiseId : PromiseId
  deriving DecidableEq

inductive ToolBatchSuspension where
  | awaitTool (callId : ToolCallId) (spec : AwaitSpec)
  | joinedWorkflowCalls (calls : List JoinedWorkflowCall) (spec : AwaitSpec)
  deriving DecidableEq

/-- `ToolBatchSuspension::spec`. -/
def ToolBatchSuspension.spec : ToolBatchSuspension → AwaitSpec
  | .awaitTool _ spec | .joinedWorkflowCalls _ spec => spec

structure ParkedToolBatch where
  batchId : ToolBatchId
  suspension : ToolBatchSuspension

structure ToolingState where
  revision : Nat := 0
  tools : ToolMap := ∅

inductive ToolConfigEvent where
  | toolsReplaced (baseRevision : Nat) (tools : ToolMap)
  | toolsPatched (baseRevision : Nat) (patch : ToolPatch)
  deriving DecidableEq

inductive ToolEvent where
  | batchStarted (runId : RunId) (turnId : TurnId) (batchId : ToolBatchId) (toolsetRevision : Nat)
      (calls : List ObservedToolCall)
  | callStarted (runId : RunId) (turnId : TurnId) (batchId : ToolBatchId) (callId : ToolCallId)
      (toolName : ToolName) (argumentsRef : BlobRef)
  | callCompleted (runId : RunId) (turnId : TurnId) (batchId : ToolBatchId)
      (result : ToolCallResult)
  | batchParked (runId : RunId) (turnId : TurnId) (batchId : ToolBatchId)
      (suspension : ToolBatchSuspension)
  | batchUnparked (runId : RunId) (turnId : TurnId) (batchId : ToolBatchId)
  | batchCompleted (runId : RunId) (turnId : TurnId) (batchId : ToolBatchId)
  deriving DecidableEq

/-! ## Code tools -/

structure CodeToolBinding where
  toolId : ToolId
  toolName : ToolName
  deriving DecidableEq

structure CodeToolScopeSpec where
  executionId : String
  parentInvocationId : WorkflowToolInvocationId
  bindings : OrdMap String CodeToolBinding
  maxCalls : Nat
  maxInFlight : Nat
  deriving DecidableEq

structure CodeToolOrigin where
  executionId : String
  requestId : String
  deriving DecidableEq

structure CodeToolCallSpec where
  origin : CodeToolOrigin
  bindingId : String
  toolId : ToolId
  toolName : ToolName
  argumentsRef : BlobRef
  deriving DecidableEq

structure CodeToolCallResult where
  callId : ToolCallId
  status : ToolCallStatus
  outputRef : Option BlobRef := none
  errorRef : Option BlobRef := none
  deriving DecidableEq

inductive CodeToolCallStatus where
  | pending
  | waiting (suspension : ToolBatchSuspension)
  | completed (result : CodeToolCallResult)
  deriving DecidableEq

/-- `CodeToolCallStatus::is_terminal`. -/
def CodeToolCallStatus.isTerminal : CodeToolCallStatus → Bool
  | .completed _ => true
  | _ => false

structure CodeToolCall where
  spec : CodeToolCallSpec
  callId : ToolCallId
  promiseIdBase : Nat
  status : CodeToolCallStatus

structure CodeToolScope where
  toolsetRevision : Nat
  spec : CodeToolScopeSpec
  closed : Bool
  calls : OrdMap String CodeToolCall

structure CodeToolState where
  scopes : OrdMap String CodeToolScope := ∅

inductive CodeToolEvent where
  | scopeOpened (scope : CodeToolScopeSpec)
  | callAdmitted (call : CodeToolCallSpec) (promiseIdBase : Nat)
  | callCompleted (origin : CodeToolOrigin) (result : CodeToolCallResult)
  | callDeferred (origin : CodeToolOrigin) (suspension : ToolBatchSuspension)
  | scopeClosed (executionId : String)
  deriving DecidableEq

/-! ## Approvals -/

inductive ApprovalSubject where
  | mcpToolCall (serverId serverLabel toolName : String) (argumentsRef : BlobRef)
  deriving DecidableEq

inductive ApprovalContinuation where
  | providerMcp (providerRequestId : String)
  | runtimeMcp (batchId : ToolBatchId) (callId : ToolCallId)
  deriving DecidableEq

structure ApprovalRequested where
  approvalId : ApprovalId
  runId : RunId
  subject : ApprovalSubject
  continuation : ApprovalContinuation
  deriving DecidableEq

structure ObservedApprovalRequest where
  subject : ApprovalSubject
  continuation : ApprovalContinuation
  deriving DecidableEq

inductive ApprovalDecision where
  | approved
  | rejected
  deriving DecidableEq

inductive ApprovalStatus where
  | pending
  | approved
  | rejected
  | cancelled
  deriving DecidableEq

/-- `ApprovalStatus::is_terminal`. -/
def ApprovalStatus.isTerminal : ApprovalStatus → Bool
  | .pending => false
  | _ => true

structure ApprovalRecord where
  request : ApprovalRequested
  requestedAtMs : Nat
  status : ApprovalStatus
  note : Option String := none
  deriving DecidableEq

inductive ApprovalEvent where
  | requested (approval : ApprovalRequested)
  | runParked (runId : RunId)
  | runUnparked (runId : RunId)
  | decided (approvalId : ApprovalId) (runId : RunId) (decision : ApprovalDecision)
      (note : Option String)
  | cancelled (approvalId : ApprovalId) (runId : RunId)
  deriving DecidableEq

/-! ## Context -/

inductive ContextRemovalReason where
  | providerCompacted
  deriving DecidableEq

inductive ContextCompactionTrigger where
  | manual
  | highWatermark
  | contextLimit
  deriving DecidableEq

structure ContextCompactionPlan where
  runId : Option RunId
  coveredEntryIds : List ContextEntryId
  trigger : ContextCompactionTrigger
  estimatedTokens : Option Nat := none
  deriving DecidableEq

inductive ContextCompactionPhase where
  | idle
  | queuedManual
  | pending (plan : ContextCompactionPlan)

inductive ContextCompactionStatus where
  | succeeded
  | failed
  deriving DecidableEq

structure ManualCompactionOutcome where
  revision : Nat
  status : ContextCompactionStatus
  failureRef : Option BlobRef

structure CompactionFailureFloor where
  tokens : Option Nat
  entries : Nat

structure ContextCompactionState where
  phase : ContextCompactionPhase := .idle
  lastFinishedRevision : Option Nat := none
  lastManualOutcome : Option ManualCompactionOutcome := none
  failureFloor : Option CompactionFailureFloor := none

/-- `ContextCompactionState::is_pending`. -/
def ContextCompactionState.isPending (c : ContextCompactionState) : Bool :=
  match c.phase with
  | .pending _ => true
  | _ => false

/-- `ContextCompactionState::is_queued`. -/
def ContextCompactionState.isQueued (c : ContextCompactionState) : Bool :=
  match c.phase with
  | .queuedManual => true
  | _ => false

/-- `ContextCompactionState::pending_plan`. -/
def ContextCompactionState.pendingPlan (c : ContextCompactionState) :
    Option ContextCompactionPlan :=
  match c.phase with
  | .pending plan => some plan
  | _ => none

structure ContextGenerationMetadata where
  model : ModelSelection
  inputLimitTokens : Option Nat

structure ContextUsageObservation where
  contextRevision : Nat
  tokens : Nat

structure ContextState where
  revision : Nat := 0
  entries : List ContextEntry := []
  compaction : ContextCompactionState := {}
  lastGeneration : Option ContextGenerationMetadata := none
  usageObservation : Option ContextUsageObservation := none

structure ContextSnapshot where
  apiKind : ProviderApiKind
  contextRevision : Nat
  entries : List ContextEntry
  tokenEstimate : Option TokenEstimate
  deriving DecidableEq

/-- `LlmUsage` of `components/turn.rs`. -/
structure LlmUsage where
  inputTokens : Option Nat := none
  outputTokens : Option Nat := none
  reasoningTokens : Option Nat := none
  totalTokens : Option Nat := none
  cachedInputTokens : Option Nat := none
  cacheWriteInputTokens : Option Nat := none
  cacheMissInputTokens : Option Nat := none
  deriving DecidableEq

inductive ContextEvent where
  | entriesApplied (baseRevision : Nat) (entries : List ContextEntry)
  | entriesRemoved (baseRevision : Nat) (entryIds : List ContextEntryId)
      (reason : ContextRemovalReason)
  | keysRemoved (baseRevision : Nat) (keys : List ContextEntryKey)
  | keyPrefixReplaced (baseRevision : Nat) (keyPrefix : ContextEntryKey)
      (entries : List ContextEntry)
  | entriesReplaced (baseRevision : Nat) (entries : List ContextEntry)
  | compactionRequested (baseRevision : Nat) (trigger : ContextCompactionTrigger)
      (plan : ContextCompactionPlan)
  | compactionQueued (baseRevision : Nat)
  | compactionFinished (baseRevision : Nat) (status : ContextCompactionStatus)
      (failureRef : Option BlobRef) (usage : Option LlmUsage) (calls : Nat)
  deriving DecidableEq

/-! ## Turns -/

/-- `WorkflowToolResultContract` of `components/llm.rs`. -/
structure WorkflowToolResultContract where
  completion : WorkflowToolCompletion
  startsWorkflow : Bool
  deriving DecidableEq

/-- `CodeModePresentation` of `components/llm.rs`. -/
structure CodeModePresentation where
  allowedTools : OrdMap ToolId Unit := ∅
  workflowResults : OrdMap ToolId WorkflowToolResultContract := ∅
  deriving DecidableEq

/-- The request inputs whose digest is a request's fingerprint. -/
structure RequestFingerprint where
  model : ModelSelection
  context : ContextSnapshot
  tools : List ToolSpec
  generation : GenerationConfig
  runId : RunId
  turnId : TurnId
  codeMode : Option CodeModePresentation
  deriving DecidableEq

structure PlannedRequestState where
  requestFingerprint : RequestFingerprint
  configRevision : Nat
  contextRevision : Nat
  toolsetRevision : Nat

inductive TurnStatus where
  | started
  | planned
  | generationPending
  | generationSettled
  | completed
  | failed
  | cancelled
  deriving DecidableEq

inductive TurnOutcome where
  | finalOutput (output : Option ContentRef)
  | toolCallsQueued
  | contextLimit (failureRef : Option BlobRef)
  | approvalsRequested
  | failed (failureRef : Option BlobRef)
  | rejected (failureRef : Option BlobRef)
  | cancelled
  deriving DecidableEq

inductive LlmGenerationStatus where
  | succeeded
  | failed
  | rejected
  | cancelled
  deriving DecidableEq

inductive LlmFinish where
  | stop
  | toolCalls
  | length
  | contentFilter
  | contextLimit
  | cancelled
  | failed
  | unknown
  deriving DecidableEq

/-- `LlmGenerationFacts` of `components/turn.rs`, less the response id and the duration that it
records. -/
structure LlmGenerationFacts where
  finish : LlmFinish
  usage : Option LlmUsage := none
  toolCalls : List ObservedToolCall := []
  approvalRequests : List ObservedApprovalRequest := []
  contextTokenEstimate : Option TokenEstimate := none
  deriving DecidableEq

structure TurnState where
  turnId : TurnId
  runId : RunId
  status : TurnStatus
  plannedRequest : Option PlannedRequestState := none
  generationStatus : Option LlmGenerationStatus := none
  facts : Option LlmGenerationFacts := none
  outcome : Option TurnOutcome := none

inductive TurnEvent where
  | started (turnId : TurnId) (runId : RunId)
  | planned (turnId : TurnId) (runId : RunId) (requestFingerprint : RequestFingerprint)
      (configRevision contextRevision toolsetRevision : Nat)
  | generationRequested (turnId : TurnId) (runId : RunId)
  | generationCompleted (turnId : TurnId) (runId : RunId) (status : LlmGenerationStatus)
      (facts : LlmGenerationFacts)
  | completed (turnId : TurnId) (outcome : TurnOutcome)
  | cancelled (turnId : TurnId) (runId : RunId)
  deriving DecidableEq

/-! ## Runs -/

inductive RunStatus where
  | running
  | parked
  | cancelling
  | completed
  | failed
  | cancelled
  deriving DecidableEq

inductive RunFailureKind where
  | contextFailure
  | modelFailure
  | requestRejected
  | outputTruncated
  | contentFiltered
  | limitExceeded
  | internal
  deriving DecidableEq

structure RunFailure where
  kind : RunFailureKind
  messageRef : Option BlobRef
  deriving DecidableEq

structure RunTerminalNotifyIntent where
  holderWorkflowId : String
  token : String
  deriving DecidableEq

/-- `RunSource` and `RunRequestSource` of `components/run.rs`, which have the same single form. -/
structure RunSource where
  input : List ContextEntryInput
  deriving DecidableEq

/-- `AcceptedRunEvent` of `components/run.rs`. -/
structure AcceptedRunEvent where
  runId : RunId
  submissionId : Option SubmissionId := none
  source : RunSource
  runConfig : RunConfig := {}
  inputLimitTokens : Option Nat := none
  configRevision : Nat
  notifyOnTerminal : List RunTerminalNotifyIntent := []
  deriving DecidableEq

structure AcceptedRun where
  runId : RunId
  submissionId : Option SubmissionId
  source : RunSource
  runConfig : RunConfig
  inputLimitTokens : Option Nat
  configRevision : Nat
  firstSeq : EventSeq
  acceptedAtMs : Nat
  notifyOnTerminal : List RunTerminalNotifyIntent

structure SteeringBatch where
  steeringId : SteeringId
  submissionId : SubmissionId
  input : List ContextEntryInput
  entryIds : List ContextEntryId := []
  consumedByTurnId : Option TurnId := none

structure ContextRecoveryState where
  attempts : Nat := 0
  recoveryAttemptedTurnId : Option TurnId := none

/-- `ActiveRun` of `components/run.rs`. -/
structure ActiveRun where
  contextRecovery : ContextRecoveryState := {}
  runId : RunId
  status : RunStatus
  submissionId : Option SubmissionId
  source : RunSource
  inputEntryIds : List ContextEntryId := []
  inputConsumedByTurnId : Option TurnId := none
  runConfig : RunConfig
  inputLimitTokens : Option Nat
  configRevision : Nat
  firstSeq : EventSeq
  acceptedAtMs : Nat
  startedAtMs : Option Nat
  usage : Option LlmUsage := none
  steering : List SteeringBatch := []
  turns : OrdMap TurnId TurnState := ∅
  turnCount : Nat := 0
  entryGuardAttempted : Bool := false
  activeTurnId : Option TurnId := none
  activeToolBatchId : Option ToolBatchId := none
  approvals : OrdMap ApprovalId ApprovalRecord := ∅
  parkedToolBatch : Option ParkedToolBatch := none
  toolBatches : OrdMap ToolBatchId ActiveToolBatch := ∅
  completedToolBatches : OrdMap ToolBatchId CompletedToolBatch := ∅
  notifyOnTerminal : List RunTerminalNotifyIntent := []

structure RunRecord where
  runId : RunId
  status : RunStatus
  submissionId : Option SubmissionId
  submissionDigest : Nat
  source : RunSource
  firstSeq : EventSeq
  terminalSeq : EventSeq
  acceptedAtMs : Nat
  startedAtMs : Option Nat
  finishedAtMs : Nat
  usage : Option LlmUsage
  output : Option ContentRef
  failure : Option RunFailure
  notifyOnTerminal : List RunTerminalNotifyIntent

structure RunsState where
  active : Option ActiveRun := none
  queued : List AcceptedRun := []
  finished : List RunRecord := []
  prunedThrough : Option RunId := none

inductive RunEvent where
  | accepted (event : AcceptedRunEvent)
  | started (runId : RunId)
  | steeringAccepted (runId : RunId) (steeringId : SteeringId) (submissionId : SubmissionId)
      (input : List ContextEntryInput)
  | cancellationRequested (runId : RunId)
  | completed (runId : RunId) (output : Option ContentRef)
  | failed (runId : RunId) (failure : RunFailure)
  | cancelled (runId : RunId)
  | forceCancelled (runId : RunId)
  | queuedCancelled (runId : RunId)
  deriving DecidableEq

/-! ## The session -/

inductive SessionStatus where
  | new
  | open
  | closed
  deriving DecidableEq

structure LifecycleState where
  status : SessionStatus := .new
  config : Option SessionConfig := none
  configRevision : Nat := 0

inductive LifecycleEvent where
  | opened (config : SessionConfig)
  | configChanged (config : SessionConfig) (revision : Nat)
  | closed
  deriving DecidableEq

structure EnvironmentState where
  activeEnvironmentId : Option EnvironmentId := none

inductive EnvironmentEvent where
  | activeEnvironmentSet (environmentId : EnvironmentId)
  | activeEnvironmentCleared
  deriving DecidableEq

/-- `CoreAgentState` of `components/state.rs`. `reducedTo` is the sequence number of the last
reduced entry. -/
structure CoreAgentState where
  reducedTo : Option EventSeq := none
  idCursors : IdCursors := {}
  lifecycle : LifecycleState := {}
  runs : RunsState := {}
  context : ContextState := {}
  environment : EnvironmentState := {}
  tooling : ToolingState := {}
  promises : PromiseComponentState := {}
  workflowTools : WorkflowToolState := {}
  codeTools : CodeToolState := {}

/-- `CoreAgentState::new`. -/
def CoreAgentState.new : CoreAgentState := {}

/-- `CoreAgentEvent` of `components/event.rs`. -/
inductive CoreAgentEvent where
  | lifecycle (event : LifecycleEvent)
  | run (event : RunEvent)
  | approval (event : ApprovalEvent)
  | turn (event : TurnEvent)
  | context (event : ContextEvent)
  | environment (event : EnvironmentEvent)
  | toolConfig (event : ToolConfigEvent)
  | tool (event : ToolEvent)
  | promise (event : PromiseEvent)
  | workflowToolConfig (event : WorkflowToolConfigEvent)
  | workflowTool (event : WorkflowToolEvent)
  | codeTool (event : CodeToolEvent)
  deriving DecidableEq

/-- `CoreAgentJoins` of `components/log.rs`. -/
structure CoreAgentJoins where
  runId : Option RunId := none
  turnId : Option TurnId := none
  toolBatchId : Option ToolBatchId := none
  toolCallId : Option ToolCallId := none
  submissionId : Option SubmissionId := none
  deriving DecidableEq

/-- `CoreAgentEntry` of `components/log.rs`: one committed event with its position. -/
structure CoreAgentEntry where
  seq : EventSeq
  observedAtMs : Nat
  joins : CoreAgentJoins := {}
  event : CoreAgentEvent
  deriving DecidableEq

/-- `CoreAgentEventProposal` of `transition.rs`. -/
structure CoreAgentEventProposal where
  joins : CoreAgentJoins
  event : CoreAgentEvent

end Lightspeed.Harness
