import Lightspeed.Session.CodeTools

/-!
# Services of the loop

What a pass of the session loop does beside the drive: it sends emissions, takes in what producers
resolved, starts executions, polls, fails promises past their deadline and claims the wait of a parked
batch. Beside each service stand the predicates that say when the loop has to wake for it.
-/

namespace Lightspeed.Session

open Lib Harness

/-- `u64::saturating_add`. -/
def saturatingAdd (a b : Nat) : Nat := min (a + b) (u64Bound - 1)

/-! ## Emissions -/

def maxToolInvocationDeliveryAttempts : Nat := 5
def toolInvocationRetryBackoffMs : Nat := 2000

/-- `has_due_emissions`. -/
def hasDueEmissions (s : AgentSessionWorkflow) (nowMs : Nat) : Bool :=
  s.pendingEmissions.any fun pending => pending.nextAttemptAtMs ≤ nowMs

/-- `nearest_emission_retry_ms`, as the times it takes the least of. -/
def emissionRetries (s : AgentSessionWorkflow) : List Nat :=
  (s.pendingEmissions.map PendingEmission.nextAttemptAtMs).filter (0 < ·)

/-- The failure of an invocation that state still holds, with the words for it put first. -/
def failHeldInvocation (args : AgentSessionArgs)
    (held : CoreAgentState → OrdMap WorkflowToolInvocationId WorkflowToolInvocation)
    (failure : WorkflowToolInvocationId → BlobRef → CoreAgentCommand)
    (invocation : WorkflowToolInvocation) : SessionProgram Unit := do
  let s ← readState
  if ¬ (held s.coreState).contains invocation.invocationId then pure ()
  else
    match ← ask .putBlob with
    | none => raise .fatal
    | some errorRef => do
      let _ ← admitAndAppendCommand args (failure invocation.invocationId errorRef)

/-- `terminal_tool_invocation_delivery_failure`. -/
def terminalToolInvocationDeliveryFailure (args : AgentSessionArgs)
    (invocation : WorkflowToolInvocation) : SessionProgram Unit :=
  failHeldInvocation args (fun core => core.workflowTools.boundInvocations)
    .failWorkflowToolDelivery invocation

/-- The loop of `flush_pending_emissions`, at one emission: what is retained of it. -/
def flushEmission (args : AgentSessionArgs) (nowMs : Nat) (pending : PendingEmission) :
    SessionProgram (Option PendingEmission) := do
  if nowMs < pending.nextAttemptAtMs then pure (some pending)
  else
    let delivered ← ask (.deliverEmission pending)
    if delivered then pure none
    else
      match pending.body with
      | .runTerminal _ _ _ => pure none
      | .toolInvocation invocation =>
        let attempts := pending.attempts + 1
        if maxToolInvocationDeliveryAttempts ≤ attempts then
          terminalToolInvocationDeliveryFailure args invocation
          pure none
        else
          pure (some { pending with
            attempts, nextAttemptAtMs := nowMs + toolInvocationRetryBackoffMs * attempts })

/-- The loop of `flush_pending_emissions`: the emissions that are retained. -/
def flushEmissions (args : AgentSessionArgs) (nowMs : Nat) :
    List PendingEmission → SessionProgram (List PendingEmission)
  | [] => pure []
  | pending :: rest => do
    let kept ← flushEmission args nowMs pending
    let retained ← flushEmissions args nowMs rest
    pure (kept.toList ++ retained)

/-- `flush_pending_emissions`. -/
def flushPendingEmissions (args : AgentSessionArgs) : SessionProgram Unit := do
  let s ← readState
  let pending ← takeState fun s => (s.pendingEmissions, { s with pendingEmissions := [] })
  let retained ← flushEmissions args s.nowMs pending
  changeState fun s => { s with pendingEmissions := retained ++ s.pendingEmissions }

/-! ## Source resolutions -/

/-- `queue_resolution`. -/
def AgentSessionWorkflow.queueResolution (s : AgentSessionWorkflow) (promiseId : PromiseId)
    (resolution : PromiseResolution) : AgentSessionWorkflow :=
  s.queueAdmission (.resolvePromise promiseId resolution)

/-- `SourceResolutionGate`. -/
inductive SourceResolutionGate where
  | ingest (replySchemaRef : Option BlobRef) (textReply : Bool)
  | drop

/-- The completion of the binding that an invocation was made through. -/
def invocationCompletion? (core : CoreAgentState) (invocationId : WorkflowToolInvocationId) :
    Option WorkflowToolCompletion := do
  let invocation ← (core.workflowTools.boundInvocations.get? invocationId).or
    (core.workflowTools.startRequests.get? invocationId)
  let binding ← core.workflowTools.bindings.get? invocation.workflowToolId
  some binding.completion

/-- `source_resolution_gate`. -/
def sourceResolutionGate (core : CoreAgentState) (pending : PendingSourceResolution) :
    SourceResolutionGate :=
  match core.promises.promises.get? pending.promiseId with
  | none => .drop
  | some promise =>
    if promise.status.isTerminal then .drop
    else
      match promise.source with
      | .timer _ => .drop
      | .workflow producerWorkflowId _ invocationId _ =>
        -- Only the exact stored producer of a promise may settle it.
        if pending.producer ≠ producerWorkflowId then .drop
        else
          match invocationCompletion? core invocationId with
          | some (.joined replySchemaRef _) => .ingest replySchemaRef true
          | some (.promises replySchemaRef _ _ _) => .ingest replySchemaRef false
          | some .accepted | none => .ingest none false

/-- `resolution_needs_ingest_check`. -/
def resolutionNeedsIngestCheck (replySchemaRef : Option BlobRef) : PromiseResolution → Bool
  | .resolved payloadRef => payloadRef.isSome || replySchemaRef.isSome
  | .failed errorRef => errorRef.isSome
  | .cancelled => false

/-- A resolution as it passes the ingest check. -/
def ingestResolution (resolution : PromiseResolution) (replySchemaRef : Option BlobRef)
    (textReply : Bool) : SessionProgram PromiseResolution := do
  if resolutionNeedsIngestCheck replySchemaRef resolution then
    match ← ask (.validateWorkflowToolReply resolution replySchemaRef textReply) with
    | .valid => pure resolution
    | .invalid errorRef => pure (.failed (some errorRef))
    | .failed => raise .fatal
  else pure resolution

/-- The loop of `process_pending_source_resolutions`, at one resolution. -/
def processSourceResolution (pending : PendingSourceResolution) : SessionProgram Unit := do
  let s ← readState
  match sourceResolutionGate s.coreState pending with
  | .drop => pure ()
  | .ingest replySchemaRef textReply =>
    let resolution ← ingestResolution pending.resolution replySchemaRef textReply
    changeState (·.queueResolution pending.promiseId resolution)

/-- `process_pending_source_resolutions`. -/
def processPendingSourceResolutions : SessionProgram Unit := do
  let pending ← takeState fun s =>
    (s.pendingSourceResolutions,
      { s with
        pendingSourceResolutions := []
        executionHasRolloverCheckpoint :=
          s.executionHasRolloverCheckpoint || !s.pendingSourceResolutions.isEmpty })
  pending.forM processSourceResolution

/-! ## Polls -/

def workflowExecutionRecoveryPollMs : Nat := 10000
def workflowExecutionRecoveryPollMaxMs : Nat := 60000

/-- `initial_check_at_ms`. -/
def initialCheckAtMs (source : PromiseSource) (nowMs : Nat) : Nat :=
  match source with
  | .timer fireAtMs => fireAtMs
  | .workflow _ _ _ _ => nowMs + workflowExecutionRecoveryPollMs

/-- Whether a source is polled: a timer, or a started execution. -/
def isPolled : PromiseSource → Bool
  | .timer _ => true
  | .workflow _ producerWorkflowKind _ _ => producerWorkflowKind == workflowToolExecutionKind

/-- The pending promises that have a poll. -/
def polledPromises (core : CoreAgentState) : List Promise :=
  core.promises.pending.filter fun promise => isPolled promise.source

/-- The poll of a promise, unless there is one. -/
def addPoll (nowMs : Nat) (polls : OrdMap PromiseId PromiseSourcePoll) (promise : Promise) :
    OrdMap PromiseId PromiseSourcePoll :=
  if polls.contains promise.promiseId then polls
  else polls.insert promise.promiseId
    { promiseId := promise.promiseId, nextCheckAtMs := initialCheckAtMs promise.source nowMs
      source := promise.source }

/-- `reconcile_polls_for_state`. -/
def AgentSessionWorkflow.reconcilePolls (s : AgentSessionWorkflow) (nowMs : Nat) :
    AgentSessionWorkflow :=
  let pending := polledPromises s.coreState
  let kept := s.promiseSourcePolls.filter fun id _ =>
    pending.any fun promise => promise.promiseId == id
  { s with promiseSourcePolls := pending.foldl (addPoll nowMs) kept }

/-- `has_immediate_work` of `promise_sources.rs`. -/
def hasImmediatePoll (s : AgentSessionWorkflow) : Bool :=
  s.promiseSourcePolls.values.any fun poll => poll.nextCheckAtMs == 0

/-- `nearest_wake_ms` of `promise_sources.rs`, as the times it takes the least of. -/
def pollTimes (s : AgentSessionWorkflow) : List Nat :=
  s.promiseSourcePolls.values.map PromiseSourcePoll.nextCheckAtMs

/-- `advance`. -/
def PromiseSourcePoll.advance (poll : PromiseSourcePoll) (nowMs : Nat) : PromiseSourcePoll :=
  let pollAttempt := poll.pollAttempt + 1
  let nextCheckAtMs :=
    match poll.source with
    | .timer fireAtMs => fireAtMs
    | .workflow _ _ _ _ =>
      saturatingAdd nowMs
        (min (workflowExecutionRecoveryPollMs * 2 ^ pollAttempt) workflowExecutionRecoveryPollMaxMs)
  { poll with pollAttempt, nextCheckAtMs }

/-- `reinstall`: the schedule counts from the clock as it is now. -/
def AgentSessionWorkflow.reinstall (s : AgentSessionWorkflow) (poll : PromiseSourcePoll) :
    AgentSessionWorkflow :=
  { s with promiseSourcePolls := s.promiseSourcePolls.insert poll.promiseId (poll.advance s.nowMs) }

/-- The polls that are due, taken out. -/
def AgentSessionWorkflow.takeDuePolls (s : AgentSessionWorkflow) (nowMs : Nat) :
    List PromiseSourcePoll × AgentSessionWorkflow :=
  (s.promiseSourcePolls.values.filter fun poll => poll.nextCheckAtMs ≤ nowMs,
    { s with promiseSourcePolls :=
        s.promiseSourcePolls.filter fun _ poll => decide (nowMs < poll.nextCheckAtMs) })

/-- What a check found, in the queue that signals use. -/
def AgentSessionWorkflow.pushFound (s : AgentSessionWorkflow) (promiseId : PromiseId)
    (resolution : PromiseResolution) (producer : String) : AgentSessionWorkflow :=
  { s with pendingSourceResolutions :=
      s.pendingSourceResolutions ++ [⟨promiseId, resolution, producer⟩] }

/-- The check of an execution that is due: whether the execution is still to be waited for. -/
def checkExecution (poll : PromiseSourcePoll) (producerWorkflowId completionKey : String) :
    SessionProgram Bool := do
  match ← ask (.checkWorkflowToolExecution producerWorkflowId completionKey) with
  | .pending | .activityFailed =>
    changeState (·.reinstall poll)
    pure true
  | .resolved payloadRef =>
    changeState (·.pushFound poll.promiseId (.resolved payloadRef) producerWorkflowId)
    pure false
  | .failed errorRef =>
    changeState (·.pushFound poll.promiseId (.failed errorRef) producerWorkflowId)
    pure false

/-- The loop of `process_due`: an execution that runs is asked once in a sweep. -/
def processDuePolls (nowMs : Nat) : List String → List PromiseSourcePoll → SessionProgram Unit
  | _, [] => pure ()
  | pendingExecutions, poll :: rest => do
    match poll.source with
    | .timer fireAtMs =>
      changeState fun s =>
        if fireAtMs ≤ nowMs then s.queueResolution poll.promiseId (.resolved none)
        else s.reinstall poll
      processDuePolls nowMs pendingExecutions rest
    | .workflow producerWorkflowId _ _ completionKey =>
      if producerWorkflowId ∈ pendingExecutions then
        changeState (·.reinstall poll)
        processDuePolls nowMs pendingExecutions rest
      else
        let runs ← checkExecution poll producerWorkflowId completionKey
        processDuePolls nowMs
          (if runs then producerWorkflowId :: pendingExecutions else pendingExecutions) rest

/-- `process_due`. -/
def processDue : SessionProgram Unit := do
  let s ← readState
  let due ← takeState (·.takeDuePolls s.nowMs)
  processDuePolls s.nowMs [] due
  if due.isEmpty then pure ()
  else changeState fun s => { s with executionHasRolloverCheckpoint := true }

/-! ## Deadlines -/

/-- `nearest_promise_deadline_ms`, as the times it takes the least of. -/
def promiseDeadlines (s : AgentSessionWorkflow) : List Nat :=
  s.coreState.promises.pending.filterMap Promise.deadlineAtMs

/-- The pending promises whose deadline has passed. -/
def overduePromises (core : CoreAgentState) (nowMs : Nat) : List Promise :=
  core.promises.pending.filter fun promise =>
    promise.deadlineAtMs.any fun deadline => deadline ≤ nowMs

/-- `has_due_promise_deadline`. -/
def hasDuePromiseDeadline (s : AgentSessionWorkflow) (nowMs : Nat) : Bool :=
  !(overduePromises s.coreState nowMs).isEmpty

/-- `process_due_promise_deadlines`. -/
def processDuePromiseDeadlines : SessionProgram Unit :=
  changeState fun s =>
    (overduePromises s.coreState s.nowMs).foldl
      (fun s promise => s.queueResolution promise.promiseId
        (.failed (some promiseDeadlineExceededRef))) s

/-! ## Cancellations -/

/-- The loop of `flush_pending_promise_cancellations`, at one promise. -/
def flushPromiseCancellation (pending : PendingPromiseCancellation) : SessionProgram Unit :=
  match pending.source with
  | .timer _ => pure ()
  | .workflow _ _ _ _ => ask (.signalCancellation pending)

/-- `flush_pending_promise_cancellations`. -/
def flushPendingPromiseCancellations : SessionProgram Unit := do
  let pending ← takeState fun s =>
    (s.pendingPromiseCancellations, { s with pendingPromiseCancellations := [] })
  pending.forM flushPromiseCancellation

/-- `process_execution_cancels`. -/
def processExecutionCancels : SessionProgram Unit := do
  let due ← takeState fun s =>
    (s.pendingExecutionCancels, { s with pendingExecutionCancels := [] })
  due.forM fun executionId => ask (.cancelWorkflowToolExecution executionId)

/-! ## Starts -/

def maxWorkflowStartAttempts : Nat := 5
def workflowStartRetryBackoffMs : Nat := 2000

/-- `start_candidates`: the invocations still to be started, with the execution of each. -/
def startCandidates (s : AgentSessionWorkflow) : List (WorkflowToolInvocation × String) :=
  s.coreState.workflowTools.startRequests.values.filterMap fun invocation =>
    if s.coreState.workflowTools.startFailures.contains invocation.invocationId ∨
        invocation.invocationId ∈ s.confirmedWorkflowStarts ∨
        ¬ invocation.promiseIds.any (isPendingPromise s.coreState) then none
    else
      (startOf? s.coreState invocation).map fun start =>
        (invocation, workflowToolExecutionId invocation.invocationId start.recipeFingerprint)

/-- When a candidate that failed before is tried again. -/
def startBackoff? (s : AgentSessionWorkflow) (candidate : WorkflowToolInvocation × String) :
    Option Nat :=
  (s.workflowStartBackoffs.get? candidate.1.invocationId).map Prod.snd

/-- `has_immediate_work` of `workflow_starts.rs`. -/
def hasImmediateStart (s : AgentSessionWorkflow) : Bool :=
  (startCandidates s).any fun candidate => (startBackoff? s candidate).isNone

/-- Whether a candidate is due. -/
def startIsDue (s : AgentSessionWorkflow) (nowMs : Nat)
    (candidate : WorkflowToolInvocation × String) : Bool :=
  (startBackoff? s candidate).all fun nextAtMs => nextAtMs ≤ nowMs

/-- `has_due_start`. -/
def hasDueStart (s : AgentSessionWorkflow) (nowMs : Nat) : Bool :=
  (startCandidates s).any (startIsDue s nowMs)

/-- `nearest_wake_ms` of `workflow_starts.rs`, as the times it takes the least of. -/
def startBackoffTimes (s : AgentSessionWorkflow) : List Nat :=
  (startCandidates s).filterMap (startBackoff? s)

/-- `forget_stale_backoffs`. -/
def AgentSessionWorkflow.forgetStaleBackoffs (s : AgentSessionWorkflow) : AgentSessionWorkflow :=
  { s with workflowStartBackoffs := s.workflowStartBackoffs.filter fun id _ =>
      (startCandidates s).any fun candidate => candidate.1.invocationId == id }

/-- `terminal_start_failure`. -/
def terminalStartFailure (args : AgentSessionArgs) (invocation : WorkflowToolInvocation) :
    SessionProgram Unit := do
  failHeldInvocation args (fun core => core.workflowTools.startRequests)
    .failWorkflowToolStart invocation
  changeState fun s =>
    { s with workflowStartBackoffs := s.workflowStartBackoffs.erase invocation.invocationId }

/-- The loop of `process_pending_starts`, at one candidate. -/
def processStart (args : AgentSessionArgs) (nowMs : Nat)
    (candidate : WorkflowToolInvocation × String) : SessionProgram Unit := do
  let (invocation, executionId) := candidate
  match ← ask (.startWorkflowToolExecution invocation executionId) with
  | .failed => raise .fatal
  | .started =>
    changeState fun s => { s with
      workflowStartBackoffs := s.workflowStartBackoffs.erase invocation.invocationId
      confirmedWorkflowStarts := s.confirmedWorkflowStarts ++ [invocation.invocationId] }
  | .failedTerminal => terminalStartFailure args invocation
  | .failedRetryable =>
    let s ← readState
    let attempts := ((s.workflowStartBackoffs.get? invocation.invocationId).map Prod.fst).getD 0 + 1
    if maxWorkflowStartAttempts ≤ attempts then terminalStartFailure args invocation
    else
      changeState fun s => { s with
        workflowStartBackoffs := s.workflowStartBackoffs.insert invocation.invocationId
          (attempts, nowMs + workflowStartRetryBackoffMs * attempts) }

/-- `process_pending_starts`. -/
def processPendingStarts (args : AgentSessionArgs) : SessionProgram Unit := do
  changeState AgentSessionWorkflow.forgetStaleBackoffs
  let s ← readState
  ((startCandidates s).filter (startIsDue s s.nowMs)).forM (processStart args s.nowMs)

/-! ## Awaits -/

/-- Whether the parked batch has an unpark that waits to be admitted. -/
def unparkIsPending (s : AgentSessionWorkflow) (parked : ParkedBatchView) : Bool :=
  s.pendingToolBatchUnparks.any fun unpark => unpark.batchId == parked.batchId

/-- The latest time at which a wait has not run out. -/
def nonTimeoutMs (spec : AwaitSpec) : Nat :=
  match spec.deadlineAtMs with
  | none => u64Bound - 1
  | some deadline => deadline - 1

/-- `has_satisfied_await`. -/
def hasSatisfiedAwait (s : AgentSessionWorkflow) : Bool :=
  !blocksParentUnpark s &&
    (parkedToolBatch s.coreState).any fun parked =>
      !unparkIsPending s parked &&
        (awaitWake s.coreState (nonTimeoutMs parked.suspension.spec)).isSome

/-- `nearest_await_wake_ms`. -/
def awaitDeadline? (s : AgentSessionWorkflow) : Option Nat :=
  if blocksParentUnpark s then none
  else (parkedToolBatch s.coreState).bind fun parked => parked.suspension.spec.deadlineAtMs

/-- The wait that is satisfied now, with its claim. -/
def satisfiedAwait? (s : AgentSessionWorkflow) : Option (ParkedBatchView × AwaitOutcome) :=
  if blocksParentUnpark s then none
  else do
    let parked ← parkedToolBatch s.coreState
    if unparkIsPending s parked then none
    else
      let claim ← awaitWake s.coreState s.nowMs
      some (parked, claim)

/-- Whether a promise of a wait was resolved with a payload. -/
def hasResolvedPayload (core : CoreAgentState) (spec : AwaitSpec) : Bool :=
  spec.promiseIds.any fun id =>
    (core.promises.promises.get? id).any fun promise =>
      promise.status == .resolved && promise.payloadRef.isSome

/-- What a batch goes on with. -/
def unparkOutput (core : CoreAgentState) (suspension : ToolBatchSuspension) :
    SessionProgram ToolBatchUnparkOutput := do
  match suspension with
  | .awaitTool _ spec =>
    match ← ask (.materializeAwaitResult spec.promiseIds) with
    | none => raise .fatal
    | some materialized => pure (.awaitTool materialized.resultRef materialized.additionalContext)
  | .joinedWorkflowCalls _ spec =>
    if hasResolvedPayload core spec then
      match ← ask (.prepareJoinedContext spec.promiseIds) with
      | none => raise .fatal
      | some additionalContext => pure (.joinedWorkflowCalls additionalContext)
    else pure (.joinedWorkflowCalls [])

/-- `process_satisfied_await`. -/
def processSatisfiedAwait : SessionProgram Unit := do
  let s ← readState
  match satisfiedAwait? s with
  | none => pure ()
  | some (parked, claim) =>
    let output ← unparkOutput s.coreState parked.suspension
    let command : UnparkToolBatchCommand :=
      { runId := parked.runId, batchId := parked.batchId, claim
        claimObservedAtMs := s.nowMs, output }
    changeState fun s =>
      { s with pendingToolBatchUnparks := s.pendingToolBatchUnparks ++ [command] }

end Lightspeed.Session
