import Lightspeed.Harness.Requests

/-!
# The planners

`plan_next` of `planning.rs` with the five planners that it consults in order: approvals, runs, tools,
context, turns. A planner reads the state and proposes the next events, or nothing. The first planner
with something to propose decides.
-/

namespace Lightspeed.Harness

open Lib

/-- A proposal that carries the run's join. -/
def runProposal (runId : RunId) (event : CoreAgentEvent) : CoreAgentEventProposal where
  joins := { runId := some runId }
  event := event

/-- A proposal that carries the joins of a run and a turn. -/
def turnProposal (runId : RunId) (turnId : TurnId) (event : CoreAgentEvent) :
    CoreAgentEventProposal where
  joins := { runId := some runId, turnId := some turnId }
  event := event

/-- The joins of a tool batch. -/
def ActiveToolBatch.joins (batch : ActiveToolBatch) : CoreAgentJoins where
  runId := some batch.runId
  turnId := some batch.turnId
  toolBatchId := some batch.batchId

/-- A proposal that carries no join. -/
def sessionProposal (event : CoreAgentEvent) : CoreAgentEventProposal where
  joins := {}
  event := event

/-! ## Approvals -/

/-- `plan_approval_next`: an idle run with pending approvals parks. -/
def planApprovalNext (s : CoreAgentState) : List CoreAgentEventProposal :=
  match s.lifecycle.status, s.runs.active with
  | .open, some run =>
    if run.status ≠ .running ∨ run.activeTurnId.isSome ∨ run.activeToolBatchId.isSome ∨
        run.pendingApprovals = [] ∨ hasUnstartedToolCallTurn run then []
    else [runProposal run.runId (.approval (.runParked run.runId))]
  | _, _ => []

/-- `pending_approval_cancellations`. -/
def pendingApprovalCancellations (run : ActiveRun) : List CoreAgentEventProposal :=
  run.pendingApprovals.map fun record =>
    runProposal run.runId (.approval (.cancelled record.request.approvalId run.runId))

/-! ## Runs -/

def runInternalFailureContent : String :=
  "the run failed on an internal error and its message could not be recorded\n"
def turnLimitFailureContent : String :=
  "the run used every turn its maxTurns limit allows before the model finished\n"
def contextLimitFailureContent : String :=
  "the context is larger than the model accepts and compaction did not make it fit\n"
def entryGuardFailureContent : String :=
  "the session holds too many context entries to keep running and compaction did not bring them " ++
    "down; enable compaction or run it for this session\n"
def providerCancelledFailureContent : String :=
  "the provider cancelled the generation before it finished\n"
def outputTruncatedFailureContent : String :=
  "the provider cut the response off at its output limit\n"
def contentFilteredFailureContent : String :=
  "the provider refused the request or filtered the response\n"
def llmRuntimeBoundaryFailureContent : String :=
  "LLM call failed at the runtime boundary before its result could be recorded\n"
def unusableToolCallsFailureContent : String :=
  "the model response claimed tool calls but did not contain a usable set of them\n"

/-- The failure of a run, with the adapter's message or the harness's own. -/
def runFailure (kind : RunFailureKind) (recorded : Option BlobRef) (fallback : String) :
    RunFailure where
  kind := kind
  messageRef := some (recorded.getD (.fromBytes fallback))

/-- `turn_limit_failure`. -/
def turnLimitFailure (s : CoreAgentState) (run : ActiveRun) : Option RunEvent :=
  if turnLimitReached s run ∧ ¬ hasUnstartedToolCallTurn run then
    some (.failed run.runId (runFailure .limitExceeded none turnLimitFailureContent))
  else none

/-- Whether an overflowed turn cannot be recovered by another compaction. -/
def overflowIsTerminal (s : CoreAgentState) (run : ActiveRun) (turn : TurnState) : Bool :=
  !s.context.compaction.isPending &&
    run.contextRecovery.recoveryAttemptedTurnId != some turn.turnId &&
    (!s.lifecycle.config.any compactionEnabled ||
      maxContextRecoveryAttempts ≤ run.contextRecovery.attempts ||
      (standalonePrefixIds s).isEmpty)

/-- The failure of a run whose turn failed: the finish names the cause. -/
def turnFailure (turn : TurnState) (failureRef : Option BlobRef) : RunFailure :=
  match turn.facts.map LlmGenerationFacts.finish with
  | some .length => runFailure .outputTruncated failureRef outputTruncatedFailureContent
  | some .contentFilter => runFailure .contentFiltered failureRef contentFilteredFailureContent
  | _ => runFailure .modelFailure failureRef llmRuntimeBoundaryFailureContent

/-- The `Debug` form of an option. -/
def debugOption {α : Type} (debug : α → String) : Option α → String
  | none => "None"
  | some a => "Some(" ++ debug a ++ ")"

/-- The `Debug` form of a blob reference. -/
def BlobRef.debug (ref : BlobRef) : String := "BlobRef(" ++ ref.content.quote ++ ")"

/-- The `Debug` form of a content reference. -/
def ContentRef.debug (content : ContentRef) : String :=
  "ContentRef" ++ braces ("content_ref: " ++ content.contentRef.debug ++ ", media_type: " ++
    debugOption String.quote content.mediaType ++ ", provider_kind: " ++
    debugOption String.quote content.providerKind)

/-- The `Debug` form of a turn's status. -/
def TurnStatus.debug : TurnStatus → String
  | .started => "Started"
  | .planned => "Planned"
  | .generationPending => "GenerationPending"
  | .generationSettled => "GenerationSettled"
  | .completed => "Completed"
  | .failed => "Failed"
  | .cancelled => "Cancelled"

/-- The `Debug` form of a turn's outcome. -/
def TurnOutcome.debug : TurnOutcome → String
  | .finalOutput output => "FinalOutput" ++ braces ("output: " ++ debugOption ContentRef.debug output)
  | .toolCallsQueued => "ToolCallsQueued"
  | .contextLimit ref => "ContextLimit" ++ braces ("failure_ref: " ++ debugOption BlobRef.debug ref)
  | .approvalsRequested => "ApprovalsRequested"
  | .failed ref => "Failed" ++ braces ("failure_ref: " ++ debugOption BlobRef.debug ref)
  | .rejected ref => "Rejected" ++ braces ("failure_ref: " ++ debugOption BlobRef.debug ref)
  | .cancelled => "Cancelled"

/-- The error of a turn whose status does not go with its outcome. -/
def outcomeMismatch (turnId : TurnId) (turn : TurnState) : DomainError :=
  let status := turn.status.debug
  let outcome := debugOption TurnOutcome.debug turn.outcome
  violation s!"turn {turnId} status {status} does not match outcome {outcome}"

/-- The event that ends a run after its latest turn, before steering is considered. -/
def turnTerminalEvent (s : CoreAgentState) (run : ActiveRun) (turnId : TurnId)
    (turn : TurnState) : Result (Option RunEvent) :=
  let fail (failure : RunFailure) : Result (Option RunEvent) :=
    .ok (some (.failed run.runId failure))
  match turn.status, turn.outcome with
  | .completed, some (.contextLimit failureRef) =>
    if overflowIsTerminal s run turn then
      fail (runFailure .contextFailure failureRef contextLimitFailureContent)
    else .ok (turnLimitFailure s run)
  | .completed, some (.finalOutput output) =>
    if hasUnconsumedSteering run then .ok (turnLimitFailure s run)
    else .ok (some (.completed run.runId output))
  | .failed, some (.failed failureRef) => fail (turnFailure turn failureRef)
  | .failed, some (.rejected failureRef) =>
    fail (runFailure .requestRejected failureRef llmRuntimeBoundaryFailureContent)
  -- Only a running run gets here, so nobody asked for this cancellation.
  | .cancelled, some .cancelled =>
    fail (runFailure .modelFailure none providerCancelledFailureContent)
  | .completed, some .toolCallsQueued | .completed, some .approvalsRequested =>
    .ok (turnLimitFailure s run)
  | .completed, some _ | .failed, some _ | .cancelled, some _ =>
    .error (outcomeMismatch turnId turn)
  | .completed, none | .failed, none | .cancelled, none =>
    .error (violation s!"terminal turn {turnId} is missing outcome")
  | _, _ => .ok none

/-- Whether a run event is a failure. -/
def RunEvent.isFailed : RunEvent → Bool
  | .failed _ _ => true
  | _ => false

/-- `terminal_run_proposal`: a failing run writes its steering down first. -/
def terminalRunProposal (s : CoreAgentState) (run : ActiveRun) :
    Result (Option CoreAgentEventProposal) :=
  match run.turns.last? with
  | none => .ok none
  | some (turnId, turn) => do
    let event ← turnTerminalEvent s run turnId turn
    if event.any RunEvent.isFailed ∧ hasUnmaterializedSteering run then .ok none
    else .ok (event.map (fun event => turnProposal run.runId turnId (.run event)))

/-- `latest_turn_is_terminal_run_outcome`. -/
def latestTurnIsTerminalRunOutcome (s : CoreAgentState) (run : ActiveRun) : Result Bool := do
  let proposal ← terminalRunProposal s run
  .ok proposal.isSome

/-- The failure of a run that the entry guard stops. -/
def entryGuardFailure (run : ActiveRun) : RunEvent :=
  .failed run.runId (runFailure .contextFailure none entryGuardFailureContent)

/-- The end that the latest turn gives a running run. -/
def runningTerminalProposal (s : CoreAgentState) (run : ActiveRun) :
    Result (Option CoreAgentEventProposal) :=
  if run.status = .running then terminalRunProposal s run else .ok none

/-- `plan_next` of `components/run.rs`, for an active run. -/
def planActiveRun (s : CoreAgentState) (run : ActiveRun) :
    Result (List CoreAgentEventProposal) :=
  if run.activeTurnId.isSome ∨ run.activeToolBatchId.isSome then .ok []
  else if run.status = .cancelling ∧ ¬ hasUnstartedToolCallTurn run then
    .ok [runProposal run.runId (.run (.cancelled run.runId))]
  else do
    match ← runningTerminalProposal s run with
    | some proposal => .ok [proposal]
    | none =>
      if entryGuard s run = .failRun ∧ ¬ hasUnmaterializedSteering run then
        .ok [runProposal run.runId (.run (entryGuardFailure run))]
      else .ok []

/-- `plan_next` of `components/run.rs`. -/
def planRunNext (s : CoreAgentState) : Result (List CoreAgentEventProposal) :=
  if s.context.compaction.isPending ∨ (s.context.compaction.isQueued ∧ compactionSafeBoundary s) ∨
      s.lifecycle.status ≠ .open then .ok []
  else
    match s.runs.active, s.runs.queued with
    | some run, _ => planActiveRun s run
    | none, [] => .ok []
    | none, queued :: _ =>
      .ok [{ joins := { runId := some queued.runId, submissionId := queued.submissionId }
             event := .run (.started queued.runId) }]

/-! ## Tools -/

/-- The error of an active batch that the run does not hold. -/
def activeBatchMissing (batchId : ToolBatchId) : DomainError :=
  violation s!"active tool batch {batchId} is missing"

/-- A proposal about one call of a batch. -/
def ActiveToolBatch.callProposal (batch : ActiveToolBatch) (callId : ToolCallId)
    (event : ToolEvent) : CoreAgentEventProposal where
  joins := { batch.joins with toolCallId := some callId }
  event := .tool event

/-- `decide_active_tool_batch_invocations`: start every accepted call. -/
def decideActiveToolBatchInvocations (run : ActiveRun) (batchId : ToolBatchId) :
    Result (List CoreAgentEventProposal) := do
  let batch ← orError (run.toolBatches.get? batchId) (activeBatchMissing batchId)
  if run.isParkedOn batchId then .ok []
  else do
    let batchRun := batch.runId
    let runId := run.runId
    require (batchRun = runId)
      (violation s!"active tool batch {batchId} run id {batchRun} does not match active run {runId}")
    .ok ((batch.calls.filter (fun call => call.status == .accepted)).map fun call =>
      batch.callProposal call.call.callId
        (.callStarted batch.runId batch.turnId batch.batchId call.call.callId call.call.toolName
          call.call.argumentsRef))

/-- `decide_cancelling_tool_batch_calls`: cancel every call that is not terminal. -/
def decideCancellingToolBatchCalls (run : ActiveRun) (batchId : ToolBatchId) :
    Result (List CoreAgentEventProposal) := do
  let batch ← orError (run.toolBatches.get? batchId) (activeBatchMissing batchId)
  if run.isParkedOn batchId then .ok []
  else
    .ok ((batch.calls.filter (fun call => !call.status.isTerminal)).map fun call =>
      batch.callProposal call.call.callId
        (.callCompleted batch.runId batch.turnId batch.batchId (cancelledToolResult call.call)))

/-- The entries that one terminal call still owes context. -/
def callResultInputs (s : CoreAgentState) (batch : ActiveToolBatch) (call : ToolCallState) :
    Result (List SourcedInput) := do
  let result ← orError call.result (violation "terminal tool call is missing result")
  require (result.callId = call.call.callId ∧ result.status = call.status)
    (violation "terminal tool call result does not match call state")
  let inputs ← toolResultContextInputs result call.call.providerKind
  .ok (missingResultInputs s batch.runId batch.turnId (some batch.batchId) result inputs)

/-- `tool_result_context_entries`. -/
def toolResultContextEntries (s : CoreAgentState) (batch : ActiveToolBatch) :
    Result (List ContextEntry) := do
  let inputs ← batch.calls.mapM (callResultInputs s batch)
  .ok (contextEntriesFromInputs s inputs.flatten)

/-- `decide_active_tool_batch_completion`. -/
def decideActiveToolBatchCompletion (s : CoreAgentState) (run : ActiveRun)
    (batchId : ToolBatchId) : Result (List CoreAgentEventProposal) := do
  let batch ← orError (run.toolBatches.get? batchId) (activeBatchMissing batchId)
  if run.isParkedOn batchId ∨ ¬ batch.calls.all (fun call => call.status.isTerminal) then .ok []
  else do
    let entries ← toolResultContextEntries s batch
    let applied : List CoreAgentEventProposal :=
      if entries = [] then []
      else [⟨batch.joins, .context (.entriesApplied s.context.revision entries)⟩]
    .ok (applied ++
      [⟨batch.joins, .tool (.batchCompleted batch.runId batch.turnId batch.batchId)⟩])

/-- Whether the tooling planner owes the turn a batch. -/
def awaitsBatch (run : ActiveRun) (turnId : TurnId) (turn : TurnState) : Bool :=
  turn.status == .completed && turn.outcome == some .toolCallsQueued && !run.hasBatchOf turnId

/-- The loop of the tooling planner over the turns: the first one that is owed a batch starts it. -/
def planBatchStart (s : CoreAgentState) (run : ActiveRun) :
    List (TurnId × TurnState) → Result (List CoreAgentEventProposal)
  | [] => .ok []
  | (turnId, turn) :: rest =>
    if ¬ awaitsBatch run turnId turn then planBatchStart s run rest
    else do
      let facts ← orError turn.facts
        (violation s!"completed tool-call turn {turnId} is missing generation facts")
      if facts.toolCalls = [] then planBatchStart s run rest
      else do
        let planned ← orError turn.plannedRequest
          (violation s!"tool-call turn {turnId} is missing planned request metadata")
        let plannedRevision := planned.toolsetRevision
        let activeRevision := s.tooling.revision
        require (plannedRevision = activeRevision)
          (violation (s!"planned toolset revision {plannedRevision} does not match active " ++
            s!"revision {activeRevision}"))
        let batchId := s.idCursors.lastToolBatchId + 1
        .ok [{ joins := { runId := some run.runId, turnId := some turnId
                          toolBatchId := some batchId }
               event := .tool
                 (.batchStarted run.runId turnId batchId plannedRevision facts.toolCalls) }]

/-- The first of two plans, or the second when the first proposes nothing. -/
def planFirst (first second : Result (List CoreAgentEventProposal)) :
    Result (List CoreAgentEventProposal) := do
  let proposals ← first
  if proposals = [] then second else .ok proposals

/-- `plan_next` of `components/tooling.rs`, for an active run. -/
def planActiveBatch (s : CoreAgentState) (run : ActiveRun) :
    Result (List CoreAgentEventProposal) :=
  match run.activeToolBatchId with
  | some batchId =>
    match run.status with
    | .running =>
      planFirst (decideActiveToolBatchInvocations run batchId)
        (decideActiveToolBatchCompletion s run batchId)
    -- A cancelling run resolves its own batch and asks the runtime for nothing.
    | .cancelling =>
      planFirst (decideCancellingToolBatchCalls run batchId)
        (decideActiveToolBatchCompletion s run batchId)
    | _ => .ok []
  | none =>
    if run.status = .running ∨ run.status = .cancelling then planBatchStart s run run.turns.entries
    else .ok []

/-- `plan_next` of `components/tooling.rs`. -/
def planToolNext (s : CoreAgentState) : Result (List CoreAgentEventProposal) :=
  match s.lifecycle.status, s.runs.active with
  | .open, some run => if run.activeTurnId.isSome then .ok [] else planActiveBatch s run
  | _, _ => .ok []

/-! ## Context -/

/-- `entries_applied_proposal`. -/
def entriesAppliedProposal (s : CoreAgentState) (runId : RunId) (entries : List ContextEntry) :
    CoreAgentEventProposal :=
  runProposal runId (.context (.entriesApplied s.context.revision entries))

/-- `compaction_abandoned_proposal`. -/
def compactionAbandonedProposal (s : CoreAgentState) : CoreAgentEventProposal :=
  sessionProposal (.context (.compactionFinished s.context.revision .failed none none 0))

/-- `compaction_requested_proposal`. -/
def compactionRequestedProposal (s : CoreAgentState) (trigger : ContextCompactionTrigger)
    (estimatedTokens : Option Nat) : CoreAgentEventProposal :=
  sessionProposal (.context (.compactionRequested s.context.revision trigger
    { runId := s.runs.active.map (fun run => run.runId)
      coveredEntryIds := standalonePrefixIds s
      trigger, estimatedTokens }))

/-- `manual_compaction_requested_proposal`. -/
def manualCompactionRequestedProposal (s : CoreAgentState) : CoreAgentEventProposal :=
  if compactionSafeBoundary s then compactionRequestedProposal s .manual none
  else sessionProposal (.context (.compactionQueued s.context.revision))

/-- `run_input_context_keys`, at one index. -/
def runInputContextKey (runId : RunId) (index : Nat) : ContextEntryKey :=
  "run." ++ toString runId ++ ".input." ++ toString index

/-- `missing_run_input_entries`. -/
def missingRunInputEntries (s : CoreAgentState) (run : ActiveRun) : List ContextEntry :=
  contextEntriesFromInputs s
    ((run.source.input.zipIdx.drop run.inputEntryIds.length).map fun (input, index) =>
      (some (runInputContextKey run.runId index), .runInput run.runId index, input))

/-- The inputs of one steering batch that are not in context yet. -/
def SteeringBatch.missingInputs (runId : RunId) (steering : SteeringBatch) : List SourcedInput :=
  (steering.input.zipIdx.drop steering.entryIds.length).map fun (input, index) =>
    (none, .steering runId steering.steeringId index, input)

/-- `missing_steering_entries_after`. -/
def missingSteeringEntriesAfter (s : CoreAgentState) (lastEntryId : Nat) : List ContextEntry :=
  match s.runs.active with
  | none => []
  | some run =>
    contextEntriesAfter s lastEntryId (run.steering.flatMap (SteeringBatch.missingInputs run.runId))

/-- `missing_steering_entries`. -/
def missingSteeringEntries (s : CoreAgentState) : List ContextEntry :=
  missingSteeringEntriesAfter s s.idCursors.lastContextEntryId

/-- `is_provider_compaction_entry`. -/
def isProviderCompactionEntry (entry : ContextEntry) : Bool :=
  let isMessage :=
    match entry.kind with
    | .message _ => true
    | _ => false
  match entry.content.providerKind with
  | none => false
  | some kind =>
    (kind == openaiResponsesCompactionProviderKind && entry.kind == .providerOpaque) ||
      (kind == anthropicMessagesCompactionProviderKind &&
        (isMessage || entry.kind == .providerOpaque)) ||
      (kind == openaiCompletionsCompactionProviderKind && isMessage)

/-- `latest_provider_compaction_entry`. -/
def latestProviderCompactionEntry (s : CoreAgentState) : Option ContextEntry :=
  s.context.entries.reverse.find?
    (fun entry => isProviderCompactionEntry entry && !isStandalonePrefix entry)

/-- `is_provider_compaction_prunable_entry`. -/
def isProviderCompactionPrunableEntry (s : CoreAgentState) (entry : ContextEntry) : Bool :=
  isRemovable s entry.entryId && isCompactableEntry s entry

/-- The entries that `provider_compacted_prune_proposal` removes. -/
def providerCompactedEntries (s : CoreAgentState) : List ContextEntry :=
  if hasActiveNonterminalToolBatch s then []
  else
    match latestProviderCompactionEntry s with
    | none => []
    | some latest =>
      s.context.entries.filter fun entry =>
        entry.entryId < latest.entryId && isProviderCompactionPrunableEntry s entry

/-- `provider_compacted_prune_proposal`. -/
def providerCompactedPruneProposal (s : CoreAgentState) : Option CoreAgentEventProposal :=
  let entryIds := (providerCompactedEntries s).map ContextEntry.entryId
  if entryIds = [] then none
  else some (sessionProposal (.context (.entriesRemoved s.context.revision entryIds
    .providerCompacted)))

/-- Whether context holds a standalone summary that Anthropic wrote. -/
def holdsAnthropicSummary (s : CoreAgentState) : Bool :=
  s.context.entries.any fun entry =>
    entry.content.providerKind == some anthropicMessagesCompactionProviderKind &&
      entry.kind == .providerOpaque && isStandalonePrefix entry

/-- The threshold of the compaction policy. -/
def CompactionPolicy.threshold : CompactionPolicy → Option Nat
  | .providerStandalone threshold _ | .providerTriggered threshold => threshold
  | .disabled => none

/-- Whether the policy is to summarize standalone. -/
def CompactionPolicy.isStandalone : CompactionPolicy → Bool
  | .providerStandalone _ _ => true
  | _ => false

/-- The token part of `high_watermark_compaction_proposal`. -/
def tokenWatermarkProposal (s : CoreAgentState) (config : SessionConfig) :
    Option CoreAgentEventProposal := do
  let policy := config.context.compaction
  if ¬ policy.any CompactionPolicy.isStandalone ∧ ¬ holdsAnthropicSummary s then none
  else
    let threshold ← (policy.bind CompactionPolicy.threshold).or
      ((compactionInputLimitTokens s).map (fun limit => min (limit * 4) (u32Bound - 1) / 5))
    let tokens ← highWatermarkTokenEstimate s
    let floor := s.context.compaction.failureFloor.bind (fun floor => floor.tokens)
    if tokens < threshold ∨ floor.any (fun floor => !grownPastFloor tokens floor) ∨
        standalonePrefixIds s = [] then none
    else some (compactionRequestedProposal s .highWatermark (some tokens))

/-- `high_watermark_compaction_proposal`. -/
def highWatermarkCompactionProposal (s : CoreAgentState) (config : SessionConfig) :
    Option CoreAgentEventProposal :=
  if ¬ compactionEnabled config then none
  else
    match s.runs.active with
    | none => none
    | some run =>
      match entryGuard s run with
      | .compact =>
        some (compactionRequestedProposal s .highWatermark (highWatermarkTokenEstimate s))
      | .failRun => none
      | .clear =>
        -- Nothing has moved since the last attempt, so another would see the same context.
        if s.context.compaction.lastFinishedRevision = some s.context.revision then none
        else if entryCountCallsForCompaction s then
          some (compactionRequestedProposal s .highWatermark (highWatermarkTokenEstimate s))
        else tokenWatermarkProposal s config

/-- Whether the latest turn or the turn limit leaves a compaction nothing to make room for. -/
def roomIsUseless (s : CoreAgentState) : Bool :=
  s.runs.active.any fun run =>
    run.latestTurn.any (fun turn => turn.status == .failed || turn.status == .cancelled) ||
      turnLimitReached s run

/-- Whether the latest turn overflowed and no recovery of it was attempted. -/
def overflowAwaitsRecovery (s : CoreAgentState) : Bool :=
  s.runs.active.any fun run =>
    run.latestTurn.any fun turn =>
      turn.hitContextLimit && run.contextRecovery.recoveryAttemptedTurnId != some turn.turnId

/-- The overflow part of `next_compaction_proposal`. -/
def overflowCompactionProposal (s : CoreAgentState) (config : SessionConfig) :
    Option CoreAgentEventProposal :=
  if compactionEnabled config ∧
      s.runs.active.all (fun run =>
        run.contextRecovery.attempts < maxContextRecoveryAttempts) ∧
      standalonePrefixIds s ≠ [] then
    some (compactionRequestedProposal s .contextLimit none)
  else none

/-- `next_compaction_proposal`. -/
def nextCompactionProposal (s : CoreAgentState) : Option CoreAgentEventProposal :=
  if ¬ compactionSafeBoundary s then none
  else if s.context.compaction.isQueued then
    -- Edits after the request can leave nothing to cover; the caller still gets an answer.
    if standalonePrefixIds s = [] then some (compactionAbandonedProposal s)
    else some (compactionRequestedProposal s .manual none)
  else
    match s.lifecycle.config with
    | none => none
    | some config =>
      if roomIsUseless s then none
      else if overflowAwaitsRecovery s then overflowCompactionProposal s config
      else highWatermarkCompactionProposal s config

/-- Whether a pending compaction has lost the run that asked for it. -/
def compactionIsOrphaned (s : CoreAgentState) : Bool :=
  (s.context.compaction.pendingPlan.bind (fun plan => plan.runId)).any fun runId =>
    s.runs.active.all (fun run => run.runId != runId || run.status != .running)

/-- The materialization half of the context planner: the run's input, then its steering. -/
def planMaterialization (s : CoreAgentState) (run : ActiveRun) : List CoreAgentEventProposal :=
  if missingRunInputEntries s run ≠ [] then
    [entriesAppliedProposal s run.runId (missingRunInputEntries s run)]
  -- A turn's request is frozen at its revision, and an open batch owes its results first.
  else if run.activeTurnId.isSome ∨ run.activeToolBatchId.isSome then []
  else if missingSteeringEntries s ≠ [] then
    [entriesAppliedProposal s run.runId (missingSteeringEntries s)]
  else []

/-- `plan_next` of `components/context.rs`. -/
def planContextNext (s : CoreAgentState) : List CoreAgentEventProposal :=
  if s.lifecycle.status ≠ .open then []
  else if compactionIsOrphaned s then [compactionAbandonedProposal s]
  else if s.context.compaction.isPending then []
  else
    match providerCompactedPruneProposal s with
    | some proposal => [proposal]
    | none =>
      match nextCompactionProposal s with
      | some proposal => [proposal]
      | none =>
        match s.runs.active with
        | none => []
        | some run => if run.status = .running then planMaterialization s run else []

/-! ## Turns -/

/-- `decide_active_turn_progress`. -/
def decideActiveTurnProgress (s : CoreAgentState) (run : ActiveRun) (turnId : TurnId) :
    Result (List CoreAgentEventProposal) := do
  let turn ← orError (run.turns.get? turnId)
    (violation s!"active turn {turnId} is missing from run state")
  if run.status = .cancelling ∧
      (turn.status = .started ∨ turn.status = .planned ∨ turn.status = .generationPending) then
    .ok [turnProposal run.runId turnId (.turn (.cancelled turnId run.runId))]
  else
    match turn.status with
    | .started =>
      if run.status ≠ .running then .ok []
      else do
        let request ← buildLlmRequest s run turnId
        .ok [turnProposal run.runId turnId (.turn (.planned turnId run.runId
          request.requestFingerprint s.lifecycle.configRevision request.context.contextRevision
          s.tooling.revision))]
    | .planned =>
      if run.status ≠ .running then .ok []
      else do
        require turn.plannedRequest.isSome
          (violation s!"planned turn {turnId} is missing request metadata")
        .ok [turnProposal run.runId turnId (.turn (.generationRequested turnId run.runId))]
    | _ => .ok []

/-- `plan_next` of `components/turn.rs`, for an active run. -/
def planActiveTurn (s : CoreAgentState) (run : ActiveRun) :
    Result (List CoreAgentEventProposal) :=
  if run.activeToolBatchId.isSome then .ok []
  else
    match run.activeTurnId with
    | some turnId => decideActiveTurnProgress s run turnId
    | none =>
      if run.status ≠ .running then .ok []
      else do
        let terminal ← latestTurnIsTerminalRunOutcome s run
        if terminal then .ok []
        else
          let turnId := s.idCursors.lastTurnId + 1
          .ok [turnProposal run.runId turnId (.turn (.started turnId run.runId))]

/-- `plan_next` of `components/turn.rs`. -/
def planTurnNext (s : CoreAgentState) : Result (List CoreAgentEventProposal) :=
  if s.lifecycle.status ≠ .open ∨ s.context.compaction.isPending then .ok []
  else
    match s.runs.active with
    | none => .ok []
    | some run => planActiveTurn s run

/-! ## The composition -/

/-- `plan_next` of `planning.rs`. -/
def planNext (s : CoreAgentState) : Result (List CoreAgentEventProposal) :=
  planFirst (.ok (planApprovalNext s)) <|
    planFirst (planRunNext s) <|
      planFirst (planToolNext s) <|
        planFirst (.ok (planContextNext s)) (planTurnNext s)

end Lightspeed.Harness
