import Lightspeed.Harness.Drive
import Lightspeed.Lib.Program

/-!
# The session workflow

`AgentSessionWorkflow` of `workflows/session`: the state that the session loop and the workflow's signals
share, what the loop asks of the outside, and the programs over them. The core state is the harness's.
What signals bring waits in queues until a pass of the loop takes it.
-/

namespace Lightspeed.Session

open Lib Harness

/-! ## Queued work -/

/-- What the preparation of a session's tools found, of which the loop takes commands. The commands
depend on the state that they are for. -/
structure SessionToolsetPreparation where
  /-- `SessionToolsetSource::matches`, of the source that was prepared. -/
  isCurrent : CoreAgentState → Bool
  /-- The declarations, the tool patch and the catalog of the observation. -/
  commands : List (CoreAgentState → Option CoreAgentCommand)
  inputLimitTokens : Option Nat

/-- `SessionOperation`, less the profile, which only the preparation reads. -/
inductive SessionOperation where
  | configure (config : SessionConfig) (expectedRevision : Option Nat)
  | applyProfile (expectedConfigRevision expectedToolsRevision : Option Nat)
  | refreshContext

/-- `SessionOperationRequest`. -/
structure SessionOperationRequest where
  receipt : String
  operation : SessionOperation

/-- `SessionAdmission` of `preparation.rs`. -/
inductive SessionAdmission where
  | core (command : CoreAgentCommand)
  | operation (request : SessionOperationRequest)
  | preparedRun (command : CoreAgentCommand) (result : Option SessionToolsetPreparation)

/-- `SessionAdmission::core`. -/
def SessionAdmission.command? : SessionAdmission → Option CoreAgentCommand
  | .core command | .preparedRun command _ => some command
  | .operation _ => none

/-- `PendingToolset` of `preparation.rs`. -/
structure PendingToolset where
  prepared : SessionToolsetPreparation
  runId : RunId

/-- The body of a `PendingEmission`: a pushed invocation is sent again when its delivery fails. -/
inductive EmissionBody where
  | toolInvocation (invocation : WorkflowToolInvocation)
  | runTerminal (token : String) (runId : RunId) (status : RunStatus)

/-- `PendingEmission`. -/
structure PendingEmission where
  receiverWorkflowId : String
  body : EmissionBody
  attempts : Nat := 0
  nextAttemptAtMs : Nat := 0

/-- `PendingSourceResolution`, with the workflow that sent it. -/
structure PendingSourceResolution where
  promiseId : PromiseId
  resolution : PromiseResolution
  producer : String

/-- `PendingPromiseCancellation`. -/
structure PendingPromiseCancellation where
  promiseId : PromiseId
  source : PromiseSource

/-- `PromiseSourcePoll`. -/
structure PromiseSourcePoll where
  promiseId : PromiseId
  nextCheckAtMs : Nat
  pollAttempt : Nat := 0
  source : PromiseSource

/-- `CancellingWatchdog`. -/
structure CancellingWatchdog where
  runId : RunId
  sinceMs : Nat

/-- The limits that a code tool scope asks for. -/
structure OpenCodeToolScopeRequest where
  executionId : String
  parentInvocationId : WorkflowToolInvocationId
  allowedTools : Option (List ToolId)
  maxCalls : Nat
  maxInFlight : Nat

/-- `InvokeCodeToolRequest`. -/
structure InvokeCodeToolRequest where
  executionId : String
  requestId : String
  bindingId : String
  argumentsRef : BlobRef

/-- `Request` of `code_tools.rs`. -/
inductive CodeToolRequest where
  | open (request : OpenCodeToolScopeRequest)
  | invoke (request : InvokeCodeToolRequest)
  | close (executionId : String)

/-- `CodeToolInvokeActivityResult`, less the outcome that the dispatcher keeps to itself. -/
inductive CodeToolInvokeActivityResult where
  | completed (result : ToolCallResult)
  | deferred (spec : AwaitSpec)

/-- `CodeToolExecutionState`. A receipt is kept until its waiter takes it, and says whether the request
was admitted. -/
structure CodeToolExecutionState where
  nextTicket : Nat := 0
  waiters : Nat := 0
  pending : List (Nat × CodeToolRequest) := []
  receipts : List (Nat × Bool) := []
  completions : List (CodeToolOrigin × CodeToolInvokeActivityResult) := []
  inflight : List CodeToolOrigin := []

/-! ## The state -/

/-- `AgentSessionWorkflow`, with the clock and the history that its context reads, and two variables of
the loop: whether it owes the drive a pass, and whether it is in the drive. -/
structure AgentSessionWorkflow where
  coreState : CoreAgentState := .new
  pendingAdmissions : List SessionAdmission := []
  ready : Bool := false
  setupRequested : Bool := true
  operationReceipts : List String := []
  pendingToolsets : List PendingToolset := []
  runPreparation : Option CoreAgentCommand := none
  pendingToolBatchUnparks : List UnparkToolBatchCommand := []
  pendingEmissions : List PendingEmission := []
  pendingSourceResolutions : List PendingSourceResolution := []
  confirmedWorkflowStarts : List WorkflowToolInvocationId := []
  workflowStartBackoffs : OrdMap WorkflowToolInvocationId (Nat × Nat) := ∅
  pendingExecutionCancels : List String := []
  pendingPromiseCancellations : List PendingPromiseCancellation := []
  promiseSourcePolls : OrdMap PromiseId PromiseSourcePoll := ∅
  cancellingWatchdog : Option CancellingWatchdog := none
  executionHasRolloverCheckpoint : Bool := false
  codeTools : CodeToolExecutionState := {}
  nowMs : Nat := 0
  historyLength : Nat := 0
  continueAsNewSuggested : Bool := false
  driveOwed : Bool := false
  driving : Bool := false

/-- The rules about context entries that follow a source: when the observation that an entry publishes
is obsolete, and which entries of a state have lost theirs. They read features of the configuration that
the core state here does not keep. -/
structure ContextSources where
  entryIsObsolete : CoreAgentState → ContextEntryKey → ContextEntryInput → Bool
  invalidKeys : List (CoreAgentState → Option ContextEntryKey)

/-- The `.._publication_is_obsolete` of `drive.rs`, of a command. -/
def ContextSources.publicationIsObsolete (sources : ContextSources) (core : CoreAgentState) :
    CoreAgentCommand → Bool
  | .upsertContext _ key entry => sources.entryIsObsolete core key entry
  | _ => false

/-- `AgentSessionArgs`, what the loop reads of them. -/
structure AgentSessionArgs where
  sessionId : SessionId
  sessionConfig : SessionConfig
  /-- The universe of the session, and the tools that it is declared with. -/
  workflowTools : Option (String × DeclaredSessionWorkflowTools) := none
  closeOnTerminal : Bool
  autoRejectApprovals : Bool
  /-- Whether this execution takes over a session whose last execution stopped. -/
  restart : Bool := false
  continueAsNewHistoryThreshold : Option Nat := none
  hasProfile : Bool := false
  sources : ContextSources

/-! ## What the loop asks -/

/-- The effect of the drive that an activity runs. -/
inductive Effect where
  | generate
  | compact
  | invokeTools
  deriving DecidableEq

/-- The observations that prepare a session operation or a code tool scope. -/
inductive Observation where
  | prepareSessionToolset
  | prepareSessionProfile
  | putDefaultInstructions
  | runtimeProjectionRefresh
  | prepareCodeToolScope
  deriving DecidableEq

/-- What the session loop waits for. -/
inductive SessionRequest where
  | workflowWork (deadlineMs : Option Nat)
  | appendEvents (entries : List CoreAgentEntry)
  | putBlob
  | deliverEmission (emission : PendingEmission)
  | validateWorkflowToolReply (resolution : PromiseResolution) (replySchemaRef : Option BlobRef)
      (textReply : Bool)
  | startWorkflowToolExecution (invocation : WorkflowToolInvocation) (executionId : String)
  | signalCancellation (cancellation : PendingPromiseCancellation)
  | cancelWorkflowToolExecution (executionId : String)
  | materializeAwaitResult (promiseIds : List PromiseId)
  | prepareJoinedContext (promiseIds : List PromiseId)
  | checkWorkflowToolExecution (producerWorkflowId completionKey : String)
  | preparePromiseControls
  | observe (observation : Observation)
  | effect (effect : Effect)

/-- How a step of the loop fails: a refusal says something about the work, and anything else ends the
workflow. -/
inductive SessionError where
  | refused
  | fatal

/-- `append_failure`: the store wrote the events, refused what they carry, or failed. -/
inductive AppendReply where
  | stored
  | refused
  | failed
  deriving DecidableEq

/-- `WorkflowToolReplyValidationResult`, or a failure of the activity. -/
inductive ValidationReply where
  | valid
  | invalid (errorRef : BlobRef)
  | failed

/-- `WorkflowToolStartActivityResult`, or a failure of the activity. -/
inductive StartReply where
  | started
  | failedRetryable
  | failedTerminal
  | failed

/-- `PromiseSourceCheckResult`, or a failure of the activity. -/
inductive CheckReply where
  | pending
  | resolved (payloadRef : Option BlobRef)
  | failed (errorRef : Option BlobRef)
  | activityFailed

/-- What an observation brings: a control admission that interrupts it, a failure, or what was found. -/
inductive ObservationReply where
  | interrupted
  | failed
  | prepared (preparation : SessionToolsetPreparation) (defaultInstructions : CoreAgentState → Bool)
  | bindings (bindings : OrdMap String CodeToolBinding)

/-- What an effect of the drive brings: admissions that landed meanwhile, one of its results, its end, or
a failure of the infrastructure. -/
inductive EffectReply where
  | admissions
  | resume (input : DriveInput)
  | over
  | failed

/-- `AwaitMaterializationResult`. -/
structure AwaitMaterialization where
  resultRef : BlobRef
  additionalContext : List ContextEntryInput

/-- What the outside replies to a request; an activity that can fail for good replies `none`. -/
@[reducible] def SessionReply : SessionRequest → Type
  | .workflowWork _ | .signalCancellation _ | .cancelWorkflowToolExecution _ => Unit
  | .appendEvents _ => AppendReply
  | .putBlob => Option BlobRef
  | .deliverEmission _ => Bool
  | .validateWorkflowToolReply _ _ _ => ValidationReply
  | .startWorkflowToolExecution _ _ => StartReply
  | .materializeAwaitResult _ => Option AwaitMaterialization
  | .prepareJoinedContext _ => Option (List PromiseContextEntries)
  | .checkWorkflowToolExecution _ _ => CheckReply
  | .preparePromiseControls => Except SessionError Unit
  | .observe _ => ObservationReply
  | .effect _ => EffectReply

/-- Programs of the session workflow. -/
abbrev SessionProgram (α : Type) : Type 1 :=
  Program AgentSessionWorkflow SessionRequest SessionReply SessionError α

/-! ## Reading and changing the state -/

/-- `ctx.state`. -/
def readState : SessionProgram AgentSessionWorkflow := .act fun s => (s, s)

/-- `ctx.state_mut`. -/
def changeState (f : AgentSessionWorkflow → AgentSessionWorkflow) : SessionProgram Unit :=
  .act fun s => ((), f s)

/-- `ctx.state_mut`, with what it reads. -/
def takeState {α : Type} (f : AgentSessionWorkflow → α × AgentSessionWorkflow) : SessionProgram α :=
  .act f

/-- The outside's reply to a request. -/
def ask (request : SessionRequest) : SessionProgram (SessionReply request) := .wait request

/-- An error. -/
def raise {α : Type} (error : SessionError) : SessionProgram α := .fail error

/-- `AgentSessionWorkflow::queue_admission`. -/
def AgentSessionWorkflow.queueAdmission (s : AgentSessionWorkflow) (command : CoreAgentCommand) :
    AgentSessionWorkflow :=
  { s with pendingAdmissions := s.pendingAdmissions ++ [.core command] }

end Lightspeed.Session
