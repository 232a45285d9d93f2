import Lightspeed.Session.Drive

/-!
# The session loop

`AgentSessionWorkflow::run` with what comes before its loop: a new session is opened, and an open one is
taken over from its log. A pass of the loop sleeps until there is work, serves it, and ends with the
drive. A continue-as-new goes on with what its continuation carries and what the log keeps. The clock, the
history and the signals of clients, producers and code tools reach the state while the loop waits.
-/

namespace Lightspeed.Session

open Lib Harness

/-! ## Opening -/

/-- A command that has to be accepted: `append_command`. -/
def appendCommand (args : AgentSessionArgs) (command : CoreAgentCommand) : SessionProgram Unit := do
  match ← admitAndAppendCommand args command with
  | .accepted => pure ()
  | .rejected => raise .fatal

/-- The command that opens a session. -/
def openCommand (args : AgentSessionArgs) : CoreAgentCommand :=
  match args.workflowTools with
  | some (universeId, workflowTools) =>
    .openDeclaredSession args.sessionConfig universeId workflowTools
  | none => .openSession args.sessionConfig

/-- `open_new_session`. -/
def openNewSession (args : AgentSessionArgs) : SessionProgram Unit := do
  match ← ask .putBlob with
  | none => raise .fatal
  | some instructionsRef =>
    appendCommand args (openCommand args)
    appendCommand args (.upsertContext none "instructions.000.default"
      { kind := .instructions
        content := { contentRef := instructionsRef, mediaType := some "text/plain" } })

/-! ## Taking over -/

def resentRunTerminals : Nat := 8

/-- `interrupted_run`: the active run, unless it is parked. -/
def interruptedRun (core : CoreAgentState) : Option RunId :=
  (core.runs.active.filter fun run =>
    !(run.status == .parked || (run.status == .running && run.parkedToolBatch.isSome))).map
    ActiveRun.runId

/-- `unsafe_pending_code_tool_calls`. -/
def unsafePendingCodeToolCalls (core : CoreAgentState) : List CodeToolOrigin :=
  core.codeTools.scopes.values.flatMap fun scope =>
    scope.calls.values.filterMap fun call =>
      match call.status with
      | .pending =>
        if ((core.tooling.tools.get? call.spec.toolId).map ToolSpec.execution).any
            ToolExecutionSpec.retrySafe then none
        else some call.spec.origin
      | _ => none

/-- The loop of `fail_unsafe_code_tool_calls`: a call that cannot take a result is left. -/
def failUnsafeCodeToolCall (args : AgentSessionArgs) (errorRef : BlobRef) (origin : CodeToolOrigin) :
    SessionProgram Unit := do
  let _ ← admitAndAppendCommand args (.completeCodeToolCall origin
    (boundaryCallResult (codeToolCallId origin) .failed errorRef))

/-- `fail_unsafe_code_tool_calls`. -/
def failUnsafeCodeToolCalls (args : AgentSessionArgs) : SessionProgram Unit := do
  let s ← readState
  let origins := unsafePendingCodeToolCalls s.coreState
  if origins = [] then pure ()
  else
    let errorRef ← putBoundaryErrorBlob
    origins.forM (failUnsafeCodeToolCall args errorRef)

/-- `queue_recent_run_terminals`. -/
def AgentSessionWorkflow.queueRecentRunTerminals (s : AgentSessionWorkflow) : AgentSessionWorkflow :=
  let finished := s.coreState.runs.finished
  { s with pendingEmissions := s.pendingEmissions ++
      (finished.drop (finished.length - resentRunTerminals)).flatMap runTerminalEmissions }

/-- `invocation_is_awaited`. -/
def invocationIsAwaited (core : CoreAgentState) (invocation : WorkflowToolInvocation) : Bool :=
  (invocation.promiseIds.filterMap core.promises.promises.get?).any fun promise =>
    promise.status == .pending &&
      match promise.scope with
      | .session => true
      | .run runId => core.runs.active.any fun run => run.runId == runId

/-- The emission of an invocation that is pushed to its receiver. -/
def pushedInvocation? (core : CoreAgentState) (invocation : WorkflowToolInvocation) :
    Option PendingEmission :=
  match (core.workflowTools.bindings.get? invocation.workflowToolId).map WorkflowToolBinding.target with
  | some (.bound receiver .push) =>
    some { receiverWorkflowId := receiver.workflowId, body := .toolInvocation invocation }
  | _ => none

/-- `queue_unanswered_invocations`. -/
def AgentSessionWorkflow.queueUnansweredInvocations (s : AgentSessionWorkflow) :
    AgentSessionWorkflow :=
  let core := s.coreState
  let awaited := core.workflowTools.boundInvocations.values.filter (invocationIsAwaited core)
  { s with pendingEmissions := s.pendingEmissions ++ awaited.filterMap (pushedInvocation? core) }

/-- The failure of the run that an execution left behind. -/
def failInterruptedRun (args : AgentSessionArgs) : SessionProgram Unit := do
  let s ← readState
  match interruptedRun s.coreState with
  | none => pure ()
  | some runId =>
    let messageRef ← putRefusalBlob
    appendCommand args (.failRun runId messageRef)

/-- `recover_interrupted_work`. -/
def recoverInterruptedWork (args : AgentSessionArgs) : SessionProgram Unit := do
  changeState AgentSessionWorkflow.queueRecentRunTerminals
  failUnsafeCodeToolCalls args
  failInterruptedRun args
  changeState AgentSessionWorkflow.queueUnansweredInvocations
  changeState fun s => { s with ready := true }

/-! ## A pass -/

/-- How a pass of the loop ends. -/
inductive PassEnd where
  | again
  | continuedAsNew
  | completed

/-- `wait_for_workflow_work`, unless the loop owes the drive a pass. -/
def waitForWorkflowWork : SessionProgram Unit := do
  let s ← readState
  if s.driveOwed ∨ hasImmediateWork s s.nowMs then pure ()
  else ask (.workflowWork (nearestWake s))

/-- What a pass serves before the drive. -/
def serve (args : AgentSessionArgs) : SessionProgram Unit := do
  processPendingCodeTools args
  flushPendingEmissions args
  processPendingSourceResolutions
  processPendingStarts args
  flushPendingPromiseCancellations
  processExecutionCancels
  processSatisfiedAwait
  processDuePromiseDeadlines
  processDue

/-- A step of the drive, past its refusals. -/
def driveStep (args : AgentSessionArgs) (step : SessionProgram DriveOutcome) :
    SessionProgram DriveOutcome := do
  changeState fun s => { s with driving := true }
  let outcome ← drivePastRefusals args step
  changeState fun s => { s with driving := false }
  pure outcome

/-- A step of the drive, with what the loop does next when it is idle. -/
def thenWhenIdle (step : SessionProgram DriveOutcome) (next : SessionProgram PassEnd) :
    SessionProgram PassEnd := do
  match ← step with
  | .continueAsNew => pure .continuedAsNew
  | .yieldForWorkflowWork => do
    changeState fun s => { s with driveOwed := true }
    pure .again
  | .idle => next

/-- The end of a pass. -/
def endPass (args : AgentSessionArgs) : SessionProgram PassEnd := do
  let s ← readState
  if shouldComplete s then pure .completed
  else if canContinueAsNew args s then pure .continuedAsNew
  else pure .again

/-- The last drive of a pass: a yield leaves it owed. -/
def finishDrive (args : AgentSessionArgs) : SessionProgram PassEnd := do
  match ← driveStep args (driveUntilIdle args) with
  | .continueAsNew => pure .continuedAsNew
  | outcome => do
    changeState fun s => { s with driveOwed := decide (outcome = .yieldForWorkflowWork) }
    endPass args

/-- The admissions that a pass ends with, and the drive if it is owed or needed. -/
def admitAndDrive (args : AgentSessionArgs) : SessionProgram PassEnd := do
  let _ ← drainPendingAdmissions args
  let s ← readState
  if s.driveOwed ∨ needsCoreDrive s then finishDrive args else endPass args

/-- One round of the loop in `run`. -/
def pass (args : AgentSessionArgs) : SessionProgram PassEnd := do
  prepareInitialSession args
  let s ← readState
  if shouldComplete s then pure .completed
  else
    changeState fun s => (s.reconcileCancellingWatchdog s.nowMs).reconcilePolls s.nowMs
    waitForWorkflowWork
    serve args
    thenWhenIdle (driveStep args (processPendingToolBatchUnparks args)) <|
      -- A resume about to land is not pre-empted by the force for the case where none does.
      thenWhenIdle (driveStep args (processCancellingWatchdog args)) <|
        admitAndDrive args

/-! ## The loop -/

/-- `continuation_args`: what goes on in the next execution, which owes the drive a pass. -/
def AgentSessionWorkflow.continuation (s : AgentSessionWorkflow) : AgentSessionWorkflow where
  coreState := s.coreState
  ready := s.ready
  operationReceipts := s.operationReceipts
  pendingExecutionCancels := s.pendingExecutionCancels
  nowMs := s.nowMs
  driveOwed := s.ready

/-- One round of the loop: a continue-as-new starts the next execution. -/
def loopRound (args : AgentSessionArgs) : SessionProgram (Unit ⊕ Unit) := do
  match ← pass args with
  | .again => pure (.inl ())
  | .continuedAsNew =>
    changeState AgentSessionWorkflow.continuation
    pure (.inl ())
  | .completed => pure (.inr ())

/-- The loop of `run`. -/
def sessionLoop (args : AgentSessionArgs) : SessionProgram Unit :=
  .loop (fun (_ : Unit) => loopRound args) ()

/-- `run`. -/
def run (args : AgentSessionArgs) : SessionProgram Unit := do
  if args.restart then recoverInterruptedWork args else openNewSession args
  sessionLoop args

/-! ## The outside -/

/-- What reaches the state of a session while its loop waits. -/
inductive SessionSignal where
  | submitAdmissions (commands : List CoreAgentCommand)
  | prepareSession (request : SessionOperationRequest)
  | retrySetup
  | deliverEmission (resolution : PendingSourceResolution)
  | codeToolRequest (request : CodeToolRequest)
  | takeReceipt (ticket : Nat)
  | handlerFinished
  | dispatchCodeTool (origin : CodeToolOrigin)
  | codeToolCompleted (origin : CodeToolOrigin) (outcome : CodeToolInvokeActivityResult)
  | runPrepared (result : Option SessionToolsetPreparation)
  | clock (nowMs : Nat)
  | history (length : Nat) (continueAsNewSuggested : Bool)

def maxUpdateWaiters : Nat := 256

/-- `enqueue` of `code_tools.rs`. -/
def AgentSessionWorkflow.enqueueCodeTool (s : AgentSessionWorkflow) (request : CodeToolRequest) :
    AgentSessionWorkflow :=
  if ¬ s.ready ∨ s.coreState.lifecycle.status ≠ .open ∨ maxUpdateWaiters ≤ s.codeTools.waiters then s
  else
    let ticket := s.codeTools.nextTicket + 1
    { s with codeTools := { s.codeTools with
        nextTicket := ticket
        waiters := s.codeTools.waiters + 1
        pending := s.codeTools.pending ++ [(ticket, request)] } }

/-- What a signal makes of the state; the dispatcher takes pending calls, and answers those that it
took. -/
def AgentSessionWorkflow.receive (s : AgentSessionWorkflow) :
    SessionSignal → Option AgentSessionWorkflow
  | .submitAdmissions commands => some (commands.foldl AgentSessionWorkflow.queueAdmission s)
  | .prepareSession request =>
    some { s with pendingAdmissions := s.pendingAdmissions ++ [.operation request] }
  | .retrySetup => some { s with setupRequested := s.setupRequested || !s.ready }
  | .deliverEmission resolution =>
    some { s with pendingSourceResolutions := s.pendingSourceResolutions ++ [resolution] }
  | .codeToolRequest request => some (s.enqueueCodeTool request)
  | .takeReceipt ticket =>
    some { s with codeTools := { s.codeTools with
      receipts := s.codeTools.receipts.filter fun receipt => receipt.1 != ticket } }
  | .handlerFinished =>
    if s.codeTools.waiters = 0 then none
    else some { s with codeTools := { s.codeTools with waiters := s.codeTools.waiters - 1 } }
  | .dispatchCodeTool origin =>
    if callIsPending s.coreState origin ∧ origin ∉ s.codeTools.inflight then
      some { s with codeTools := { s.codeTools with
        inflight := s.codeTools.inflight ++ [origin] } }
    else none
  | .codeToolCompleted origin outcome =>
    if origin ∈ s.codeTools.inflight then
      some { s with codeTools := { s.codeTools with
        completions := s.codeTools.completions ++ [(origin, outcome)] } }
    else none
  | .runPrepared result =>
    s.runPreparation.map fun command =>
      { s with
        runPreparation := none
        pendingAdmissions := .preparedRun command result :: s.pendingAdmissions }
  | .clock nowMs => if s.nowMs ≤ nowMs then some { s with nowMs } else none
  | .history length suggested =>
    if s.historyLength ≤ length then
      some { s with historyLength := length, continueAsNewSuggested := suggested }
    else none

/-- The inputs that the results of an effect are. -/
def Effect.fits : Effect → DriveInput → Bool
  | .generate, .resumeGeneration _ | .compact, .resumeContextCompaction _ => true
  | .invokeTools, .resumeToolBatch _ | .invokeTools, .resumeToolCall _ _
  | .invokeTools, .requestRuntimeMcpApprovals _ _ | .invokeTools, .parkToolBatch _ _ _ _ => true
  | _, _ => false

/-- Whether an event carries nothing that a store can refuse. -/
def isBare : CoreAgentEvent → Bool
  | .lifecycle .closed => true
  | _ => false

/-- The replies that the outside gives: a sleep ends when there is work or its time has come, and
admissions interrupt what lets them. -/
def sessionAllows : (request : SessionRequest) → AgentSessionWorkflow → SessionReply request → Bool
  | .workflowWork deadlineMs, s, _ =>
    stateHasImmediateWork s || deadlineMs.any fun deadline => deadline ≤ s.nowMs
  | .appendEvents entries, _, reply =>
    reply != .refused || entries.any fun entry => !isBare entry.event
  | .observe observation, s, reply =>
    match reply with
    | .interrupted => s.pendingAdmissions.any controlAdmission
    | .failed => true
    | .prepared _ _ => observation != .prepareCodeToolScope
    | .bindings _ => observation == .prepareCodeToolScope
  | .effect effect, s, reply =>
    match reply with
    | .admissions => hasAdmissibleAdmissions s
    | .resume input => effect.fits input
    | .over | .failed => true
  | _, _, _ => true

/-- The outside of a session. -/
def sessionOutside : Program.Outside AgentSessionWorkflow SessionRequest SessionReply SessionSignal where
  allows := sessionAllows
  receive := AgentSessionWorkflow.receive

/-- How a session starts: new, or from its log in place of an execution that stopped. -/
structure Starts (args : AgentSessionArgs) (core : CoreAgentState) : Prop where
  reached : ∃ log, Reachable args.sessionId core log
  new : args.restart = false → core = .new
  opened : args.restart = true → core.lifecycle.status = .open

/-- The state that a session starts in. -/
def startState (args : AgentSessionArgs) (core : CoreAgentState) (nowMs : Nat) :
    AgentSessionWorkflow where
  coreState := core
  nowMs := nowMs
  driveOwed := args.restart

/-- A session, as a machine. -/
def session (args : AgentSessionArgs) :
    Machine (Program.Config AgentSessionWorkflow SessionRequest SessionReply SessionError Unit)
      (Program.Input SessionRequest SessionReply SessionSignal) :=
  Program.machine sessionOutside (run args) fun s =>
    ∃ core nowMs, Starts args core ∧ s = startState args core nowMs

end Lightspeed.Session
