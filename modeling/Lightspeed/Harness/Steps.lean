import Lightspeed.Harness.Drive

/-!
# What an event does

For each event, the reducer returns exactly when the event's guards hold, and then gives exactly this
state. These equivalences are read in both directions: an invariant takes from them what a committed
event found and left, and an acceptance proof builds the event's success from its guards. No later proof
unfolds a reducer.
-/

namespace Lightspeed.Harness

open Lib

variable {s t : CoreAgentState} {runId : RunId} {turnId : TurnId}
  {ms seq observedAtMs revision : Nat} {batchId : ToolBatchId} {promiseId : PromiseId}
  {entries : List ContextEntry} {invocation : WorkflowToolInvocation}

/-! ## Reading the active run -/

@[simp]
theorem activeRunRef_eq_ok {run : ActiveRun} :
    activeRunRef s runId = .ok run ↔ s.runs.active = some run ∧ run.runId = runId := by
  simp [activeRunRef]

@[simp]
theorem activeTurn_eq_ok {p : ActiveRun × TurnState} :
    activeTurn s runId turnId = .ok p ↔
      s.runs.active = some p.1 ∧ p.1.runId = runId ∧ p.1.activeTurnId = some turnId ∧
        p.1.turns.get? turnId = some p.2 := by
  obtain ⟨run, turn⟩ := p
  simp [activeTurn, and_assoc]

@[simp]
theorem activeBatch_eq_ok {run : ActiveRun} {mismatch : String} {batch : ActiveToolBatch} :
    activeBatch run runId turnId batchId mismatch = .ok batch ↔
      run.toolBatches.get? batchId = some batch ∧ batch.runId = runId ∧ batch.turnId = turnId := by
  simp [activeBatch]

@[simp]
theorem pendingRecord_eq_ok {run : ActiveRun} {approvalId : ApprovalId} {record : ApprovalRecord} :
    pendingRecord run runId approvalId = .ok record ↔
      run.approvals.get? approvalId = some record ∧ record.request.runId = runId ∧
        record.status = .pending := by
  simp [pendingRecord]

@[simp]
theorem pendingPromise_eq_ok {promise : Promise} :
    pendingPromise s promiseId = .ok promise ↔
      s.promises.promises.get? promiseId = some promise ∧ promise.status = .pending := by
  have hterminal : ∀ status : PromiseStatus, ¬ status.isTerminal ↔ status = .pending := by
    intro status
    cases status <;> simp [PromiseStatus.isTerminal]
  simp only [pendingPromise, bind_eq_ok, require_eq_ok, exists_unit, orError_eq_ok, Except.ok.injEq, hterminal,
    exists_eq_right_right]

/-! ## Positions -/

/-- An entry is reduced when it stands at the next position and its event is. -/
theorem applyEvent_eq_ok {entry : CoreAgentEntry} :
    applyEvent s entry = .ok t ↔
      entry.seq = s.nextSeq ∧ ∃ m, applyEventKind s entry = .ok m ∧
        t = { m with reducedTo := some entry.seq } := by
  simp only [applyEvent, validateNextPosition, bind_eq_ok, require_eq_ok, exists_unit, Except.ok.injEq,
    eq_comm (a := t)]

/-! ## Sessions -/

theorem opened_eq_ok {config : SessionConfig} :
    applyLifecycleEvent s (.opened config) = .ok t ↔
      s.lifecycle.status = .new ∧
        t = { s with lifecycle := { status := .open, config := some config, configRevision := 0 } } := by
  simp only [applyLifecycleEvent, bind_eq_ok, require_eq_ok, Except.ok.injEq, exists_unit, eq_comm (a := t)]

theorem configChanged_eq_ok {config : SessionConfig} :
    applyLifecycleEvent s (.configChanged config revision) = .ok t ↔
      s.lifecycle.status = .open ∧ revision = s.lifecycle.configRevision + 1 ∧
        validateRecordedConfigUpdate s config = .ok () ∧
        t = { s with
          lifecycle := { s.lifecycle with config := some config, configRevision := revision } } := by
  simp only [applyLifecycleEvent, bind_eq_ok, require_eq_ok, Except.ok.injEq, exists_unit,
    eq_comm (a := t)]

theorem configChanged_idle {config : SessionConfig}
    (h : applyLifecycleEvent s (.configChanged config revision) = .ok t) : s.runs.active = none := by
  obtain ⟨-, -, hvalid, -⟩ := configChanged_eq_ok.mp h
  obtain ⟨_, -, hvalid⟩ := bind_eq_ok.mp hvalid
  obtain ⟨_, hidle, -⟩ := bind_eq_ok.mp hvalid
  exact Option.isNone_iff_eq_none.mp (require_eq_ok.mp hidle).1

theorem closed_eq_ok :
    applyLifecycleEvent s .closed = .ok t ↔
      s.lifecycle.status = .open ∧ s.runs.active = none ∧ s.runs.queued = [] ∧
        s.promises.pending.any (fun promise => promise.scope == .session) = false ∧
        t = { s with lifecycle := { s.lifecycle with status := .closed } } := by
  simp only [applyLifecycleEvent, bind_eq_ok, require_eq_ok, Except.ok.injEq, exists_unit,
    eq_comm (a := t), Option.isNone_iff_eq_none, Bool.not_eq_true, and_assoc]

/-! ## Runs -/

theorem accepted_eq_ok {accepted : AcceptedRunEvent} :
    applyRunEvent s seq observedAtMs (.accepted accepted) = .ok t ↔
      s.lifecycle.status = .open ∧ accepted.configRevision = s.lifecycle.configRevision ∧
        validateRecordedRunConfig s accepted.runConfig = .ok () ∧
        accepted.runId = s.idCursors.lastRunId + 1 ∧
        t = { s.setRuns { s.runs with
            queued := s.runs.queued ++ [accepted.queue seq observedAtMs] } with
          idCursors := { s.idCursors with lastRunId := accepted.runId } } := by
  simp only [applyRunEvent, bind_eq_ok, require_eq_ok, Except.ok.injEq, exists_unit,
    eq_comm (a := t)]

theorem started_eq_ok :
    applyRunEvent s seq observedAtMs (.started runId) = .ok t ↔
      s.lifecycle.status = .open ∧ s.runs.active = none ∧
        ∃ queued rest, s.runs.queued = queued :: rest ∧ queued.runId = runId ∧
          t = s.setRuns { s.runs with queued := rest, active := some (queued.start observedAtMs) } := by
  simp only [applyRunEvent, bind_eq_ok, require_eq_ok, orError_eq_ok, Except.ok.injEq, exists_unit,
    Option.isNone_iff_eq_none, List.head?_eq_some_iff]
  grind

theorem steeringAccepted_eq_ok {steeringId : SteeringId} {submissionId : SubmissionId}
    {input : List ContextEntryInput} :
    applyRunEvent s seq observedAtMs (.steeringAccepted runId steeringId submissionId input) = .ok t ↔
      ∃ run, s.runs.active = some run ∧ run.runId = runId ∧
        steeringId = s.idCursors.lastSteeringId + 1 ∧ run.status.acceptsInput = true ∧
        t = { s.setActive { run with
            steering := run.steering ++ [{ steeringId, submissionId, input }] } with
          idCursors := { s.idCursors with lastSteeringId := steeringId } } := by
  simp only [applyRunEvent, bind_eq_ok, require_eq_ok, activeRunRef_eq_ok, Except.ok.injEq]
  grind

theorem cancellationRequested_eq_ok :
    applyRunEvent s seq observedAtMs (.cancellationRequested runId) = .ok t ↔
      ∃ run, s.runs.active = some run ∧ run.runId = runId ∧ run.status.acceptsInput = true ∧
        t = s.setActive { run with status := .cancelling } := by
  simp only [applyRunEvent, bind_eq_ok, require_eq_ok, activeRunRef_eq_ok, Except.ok.injEq, exists_unit,
    and_assoc, eq_comm (a := t)]

/-- The state after a run leaves the active slot. -/
def CoreAgentState.finishRun (s : CoreAgentState) (run : ActiveRun) (outcome : RunOutcome)
    (terminalSeq : EventSeq) (finishedAtMs : Nat) : CoreAgentState :=
  pruneFinishedWork ((interruptCodeToolsForRun s run.runId).setRuns (pruneTerminalRunRecords
    { s.runs with
      active := none
      finished := s.runs.finished ++ [run.terminalRecord outcome terminalSeq finishedAtMs] }))

theorem finishActiveRun_eq_ok {outcome : RunOutcome} :
    finishActiveRun s runId outcome seq ms = .ok t ↔
      ∃ run, s.runs.active = some run ∧ run.runId = runId ∧ t = s.finishRun run outcome seq ms := by
  simp only [finishActiveRun, bind_eq_ok, activeRunRef_eq_ok, Except.ok.injEq]
  constructor
  · rintro ⟨run, ⟨h1, rfl⟩, rfl⟩
    exact ⟨run, h1, rfl, rfl⟩
  · rintro ⟨run, h1, rfl, rfl⟩
    exact ⟨run, ⟨h1, rfl⟩, rfl⟩

theorem completed_eq_ok {output : Option ContentRef} :
    applyRunEvent s seq ms (.completed runId output) = .ok t ↔
      ∃ run, s.runs.active = some run ∧ run.runId = runId ∧
        t = s.finishRun run { status := .completed, output } seq ms :=
  finishActiveRun_eq_ok

theorem failed_eq_ok {failure : RunFailure} :
    applyRunEvent s seq ms (.failed runId failure) = .ok t ↔
      ∃ run, s.runs.active = some run ∧ run.runId = runId ∧
        t = s.finishRun run { status := .failed, failure := some failure } seq ms :=
  finishActiveRun_eq_ok

theorem cancelled_eq_ok :
    applyRunEvent s seq ms (.cancelled runId) = .ok t ↔
      ∃ run, s.runs.active = some run ∧ run.runId = runId ∧ run.status = .cancelling ∧
        run.activeTurnId = none ∧ run.activeToolBatchId = none ∧
        t = s.finishRun run { status := .cancelled } seq ms := by
  simp only [applyRunEvent, bind_eq_ok, require_eq_ok, orError_eq_ok, finishActiveRun_eq_ok,
    Option.isNone_iff_eq_none]
  constructor
  · rintro ⟨run, h1, _, h2, _, ⟨h3, h4⟩, run', h1', rfl, rfl⟩
    obtain rfl : run = run' := Option.mem_unique h1 h1'
    exact ⟨run, h1, rfl, h2, h3, h4, rfl⟩
  · rintro ⟨run, h1, rfl, h2, h3, h4, rfl⟩
    exact ⟨run, h1, (), h2, (), ⟨h3, h4⟩, run, h1, rfl, rfl⟩

theorem forceCancelled_eq_ok :
    applyRunEvent s seq ms (.forceCancelled runId) = .ok t ↔
      ∃ run, s.runs.active = some run ∧ run.runId = runId ∧
        (run.status = .running ∨ run.status = .parked ∨ run.status = .cancelling) ∧
        t = s.finishRun run { status := .cancelled } seq ms := by
  simp only [applyRunEvent, bind_eq_ok, require_eq_ok, orError_eq_ok, finishActiveRun_eq_ok]
  constructor
  · rintro ⟨run, h1, _, h2, run', h1', rfl, rfl⟩
    obtain rfl : run = run' := Option.mem_unique h1 h1'
    exact ⟨run, h1, rfl, h2, rfl⟩
  · rintro ⟨run, h1, rfl, h2, rfl⟩
    exact ⟨run, h1, (), h2, run, h1, rfl, rfl⟩

theorem queuedCancelled_eq_ok :
    applyRunEvent s seq ms (.queuedCancelled runId) = .ok t ↔
      ∃ queued, s.runs.queued.find? (fun run => run.runId == runId) = some queued ∧
        t = s.setRuns (pruneTerminalRunRecords { s.runs with
          queued := s.runs.queued.eraseP (fun run => run.runId == runId)
          finished := s.runs.finished ++ [queued.cancelledRecord seq ms] }) := by
  simp only [applyRunEvent, bind_eq_ok, orError_eq_ok, Except.ok.injEq, eq_comm (a := t)]

/-! ## Approvals -/

theorem approvalRequested_eq_ok {approval : ApprovalRequested} :
    applyApprovalEvent s ms (.requested approval) = .ok t ↔
      ∃ run, s.runs.active = some run ∧ run.runId = approval.runId ∧ run.status = .running ∧
        approval.approvalId = approvalId (s.idCursors.lastApprovalId + 1) ∧
        run.approvals.values.any
          (fun record => record.request.continuation == approval.continuation) = false ∧
        t = { s.setActive { run with
            approvals := run.approvals.insert approval.approvalId
              { request := approval, requestedAtMs := ms, status := .pending } } with
          idCursors := { s.idCursors with
            lastApprovalId := s.idCursors.lastApprovalId + 1 } } := by
  simp only [applyApprovalEvent, bind_eq_ok, require_eq_ok, orError_eq_ok, Except.ok.injEq,
    exists_unit, Bool.not_eq_true]
  grind

theorem runParked_eq_ok :
    applyApprovalEvent s ms (.runParked runId) = .ok t ↔
      ∃ run, s.runs.active = some run ∧ run.runId = runId ∧ run.pendingApprovals ≠ [] ∧
        run.status = .running ∧ run.activeTurnId = none ∧
        (run.activeToolBatchId = none ∨
          run.pendingApprovals.all (fun record => record.request.continuation.isRuntimeMcp) = true) ∧
        t = s.setActive { run with status := .parked } := by
  simp only [applyApprovalEvent, bind_eq_ok, require_eq_ok, activeRunRef_eq_ok, Except.ok.injEq,
    exists_unit, Option.isNone_iff_eq_none, Bool.and_eq_true, Option.isSome_iff_ne_none]
  constructor
  · rintro ⟨run, ⟨h1, h2⟩, h3, ⟨h4, h5, h6⟩, rfl⟩
    exact ⟨run, h1, h2, h3, h4, h5, h6.imp_right And.right, rfl⟩
  · rintro ⟨run, h1, h2, h3, h4, h5, h6, rfl⟩
    by_cases hbatch : run.activeToolBatchId = none
    · exact ⟨run, ⟨h1, h2⟩, h3, ⟨h4, h5, .inl hbatch⟩, rfl⟩
    · exact ⟨run, ⟨h1, h2⟩, h3, ⟨h4, h5, .inr ⟨hbatch, h6.resolve_left hbatch⟩⟩, rfl⟩

theorem runUnparked_eq_ok :
    applyApprovalEvent s ms (.runUnparked runId) = .ok t ↔
      ∃ run, s.runs.active = some run ∧ run.runId = runId ∧ run.status = .parked ∧
        t = s.setActive { run with status := .running } := by
  simp only [applyApprovalEvent, bind_eq_ok, require_eq_ok, activeRunRef_eq_ok, Except.ok.injEq,
    exists_unit, and_assoc, eq_comm (a := t)]

theorem decided_eq_ok {id : ApprovalId} {decision : ApprovalDecision} {note : Option String} :
    applyApprovalEvent s ms (.decided id runId decision note) = .ok t ↔
      ∃ run record, s.runs.active = some run ∧ run.runId = runId ∧
        run.approvals.get? id = some record ∧ record.request.runId = runId ∧
        record.status = .pending ∧
        t = s.setActive { run with
          approvals := run.approvals.insert id { record with status := decision.status, note } } := by
  simp only [applyApprovalEvent, bind_eq_ok, activeRunRef_eq_ok, pendingRecord_eq_ok, Except.ok.injEq,
    and_assoc, exists_and_left, eq_comm (a := t)]

theorem approvalCancelled_eq_ok {id : ApprovalId} :
    applyApprovalEvent s ms (.cancelled id runId) = .ok t ↔
      ∃ run record, s.runs.active = some run ∧ run.runId = runId ∧
        run.approvals.get? id = some record ∧ record.request.runId = runId ∧
        record.status = .pending ∧
        t = s.setActive { run with
          approvals := run.approvals.insert id { record with status := .cancelled } } := by
  simp only [applyApprovalEvent, bind_eq_ok, activeRunRef_eq_ok, pendingRecord_eq_ok, Except.ok.injEq,
    and_assoc, exists_and_left, eq_comm (a := t)]

/-! ## Turns -/

theorem turnStarted_eq_ok :
    applyTurnEvent s (.started turnId runId) = .ok t ↔
      ∃ run, s.runs.active = some run ∧ run.runId = runId ∧
        turnId = s.idCursors.lastTurnId + 1 ∧ run.status = .running ∧ run.activeTurnId = none ∧
        t = { s.setActive { run.setTurn turnId { turnId, runId, status := .started } with
            turnCount := saturatingAdd32 run.turnCount 1
            activeTurnId := some turnId } with
          idCursors := { s.idCursors with lastTurnId := turnId } } := by
  simp only [applyTurnEvent, bind_eq_ok, require_eq_ok, activeRunRef_eq_ok, Except.ok.injEq,
    exists_unit, Option.isNone_iff_eq_none]
  grind

theorem planned_eq_ok {fingerprint : RequestFingerprint}
    {configRevision contextRevision toolsetRevision : Nat} :
    applyTurnEvent s (.planned turnId runId fingerprint configRevision contextRevision
        toolsetRevision) = .ok t ↔
      ∃ run turn, s.runs.active = some run ∧ run.runId = runId ∧ run.activeTurnId = some turnId ∧
        run.turns.get? turnId = some turn ∧ configRevision = s.lifecycle.configRevision ∧
        contextRevision = s.context.revision ∧ toolsetRevision = s.tooling.revision ∧
        turn.status = .started ∧ turn.plannedRequest = none ∧
        t = s.setActive ((markConsumed run turnId (plannedContextEntryIds s)).setTurn turnId
          { turn with
            plannedRequest := some ⟨fingerprint, configRevision, contextRevision, toolsetRevision⟩
            status := .planned }) := by
  simp only [applyTurnEvent, markCurrentContextConsumedByTurn, bind_eq_ok, require_eq_ok,
    activeRunRef_eq_ok, activeTurn_eq_ok, Except.ok.injEq, exists_unit, Option.isNone_iff_eq_none,
    Prod.exists]
  constructor
  · rintro ⟨h1, h2, h3, _, ⟨run, ⟨h4, h5⟩, rfl⟩, run', turn, ⟨h6, h7, h8, h9⟩, h10, h11, rfl⟩
    obtain rfl : markConsumed run turnId (plannedContextEntryIds s) = run' := Option.some.inj h6
    exact ⟨run, turn, h4, h5, h8, h9, h1, h2, h3, h10, h11, rfl⟩
  · rintro ⟨run, turn, h4, h5, h8, h9, h1, h2, h3, h10, h11, rfl⟩
    exact ⟨h1, h2, h3, _, ⟨run, ⟨h4, h5⟩, rfl⟩, _, turn, ⟨rfl, h5, h8, h9⟩, h10, h11, rfl⟩

theorem generationRequested_eq_ok :
    applyTurnEvent s (.generationRequested turnId runId) = .ok t ↔
      ∃ run turn, s.runs.active = some run ∧ run.runId = runId ∧ run.activeTurnId = some turnId ∧
        run.turns.get? turnId = some turn ∧ turn.status = .planned ∧
        turn.plannedRequest.isSome = true ∧
        t = s.setActive (run.setTurn turnId { turn with status := .generationPending }) := by
  simp only [applyTurnEvent, bind_eq_ok, require_eq_ok, activeTurn_eq_ok, Except.ok.injEq, exists_unit,
    Prod.exists, and_assoc, eq_comm (a := t)]

/-- A generation that settles changes the context's observations, never its entries. -/
theorem generationCompleted_ok {status : LlmGenerationStatus} {facts : LlmGenerationFacts}
    (h : applyTurnEvent s (.generationCompleted turnId runId status facts) = .ok t) :
    ∃ run turn, s.runs.active = some run ∧ run.runId = runId ∧ run.activeTurnId = some turnId ∧
      run.turns.get? turnId = some turn ∧ turn.status = .generationPending ∧
      ∃ context : ContextState, context.entries = s.context.entries ∧
        context.revision = s.context.revision ∧ context.compaction = s.context.compaction ∧
        t = (s.setContext context).setActive
          ((run.settleTurn turnId turn status facts).chargeUsage facts.usage) := by
  simp only [applyTurnEvent, completeGeneration, bind_eq_ok, require_eq_ok, activeTurn_eq_ok,
    exists_unit, Prod.exists] at h
  obtain ⟨run, turn, ⟨h1, h2, h3, h4⟩, h5, -, h⟩ := h
  refine ⟨run, turn, h1, h2, h3, h4, h5, ?_⟩
  by_cases hsucceeded : status = .succeeded
  · rw [if_pos hsucceeded] at h
    simp only [bind_eq_ok, orError_eq_ok, Except.ok.injEq] at h
    obtain ⟨config, -, rfl⟩ := h
    let settled := run.settleTurn turnId turn status facts
    exact ⟨(recordGeneration (s.setActive settled) settled config facts).context, rfl, rfl, rfl, rfl⟩
  · rw [if_neg hsucceeded] at h
    cases h
    exact ⟨s.context, rfl, rfl, rfl, rfl⟩

theorem turnCompleted_eq_ok {outcome : TurnOutcome} :
    applyTurnEvent s (.completed turnId outcome) = .ok t ↔
      ∃ run turn, s.runs.active = some run ∧ run.activeTurnId = some turnId ∧
        run.turns.get? turnId = some turn ∧ turn.status = .generationSettled ∧
        t = s.setActive (pruneSettledRunRecords { run.setTurn turnId
            { turn with outcome := some outcome, status := outcome.status } with
          activeTurnId := none }) := by
  simp only [applyTurnEvent, bind_eq_ok, require_eq_ok, orError_eq_ok, Except.ok.injEq, exists_unit]
  grind

theorem turnCancelled_eq_ok :
    applyTurnEvent s (.cancelled turnId runId) = .ok t ↔
      ∃ run turn, s.runs.active = some run ∧ run.runId = runId ∧ run.status = .cancelling ∧
        run.activeTurnId = some turnId ∧ run.turns.get? turnId = some turn ∧
        (turn.status = .started ∨ turn.status = .planned ∨ turn.status = .generationPending) ∧
        t = s.setActive { run.setTurn turnId
            { turn with outcome := some .cancelled, status := .cancelled } with
          activeTurnId := none } := by
  simp only [applyTurnEvent, bind_eq_ok, require_eq_ok, orError_eq_ok, activeRunRef_eq_ok, Except.ok.injEq,
    exists_unit, and_assoc, exists_and_left, eq_comm (a := t)]

/-! ## Tool batches -/

theorem plannedToolsetRevisionForTurn_eq_ok :
    plannedToolsetRevisionForTurn s runId turnId = .ok revision ↔
      ∃ run turn planned, s.runs.active = some run ∧ run.runId = runId ∧
        run.turns.get? turnId = some turn ∧ turn.plannedRequest = some planned ∧
        planned.toolsetRevision = revision := by
  simp only [plannedToolsetRevisionForTurn, bind_eq_ok, activeRunRef_eq_ok, orError_eq_ok, Except.ok.injEq,
    and_assoc, exists_and_left]

/-- The batch that a turn's calls open. -/
def openBatch (s : CoreAgentState) (runId : RunId) (turnId : TurnId) (batchId : ToolBatchId)
    (calls : List ObservedToolCall) : ActiveToolBatch where
  batchId := batchId
  runId := runId
  turnId := turnId
  calls := calls.map (initialToolCallState s turnId)
  promiseIdBase := saturatingAdd64 s.idCursors.lastPromiseId 1

theorem batchStarted_eq_ok {calls : List ObservedToolCall} :
    applyToolEvent s (.batchStarted runId turnId batchId revision calls) = .ok t ↔
      ∃ run turn planned facts, s.runs.active = some run ∧ run.runId = runId ∧
        run.turns.get? turnId = some turn ∧ turn.plannedRequest = some planned ∧
        turn.facts = some facts ∧ turn.status = .completed ∧
        turn.outcome = some .toolCallsQueued ∧ facts.toolCalls = calls ∧ calls ≠ [] ∧
        validateUniqueToolCallIds calls = .ok () ∧ batchId = s.idCursors.lastToolBatchId + 1 ∧
        revision = planned.toolsetRevision ∧ revision = s.tooling.revision ∧
        (run.status = .running ∨ run.status = .cancelling) ∧ run.activeToolBatchId = none ∧
        run.toolBatches.contains batchId = false ∧
        run.completedToolBatches.contains batchId = false ∧ run.hasBatchOf turnId = false ∧
        t = { s.setActive { run with
            toolBatches := run.toolBatches.insert batchId (openBatch s runId turnId batchId calls)
            activeToolBatchId := some batchId } with
          idCursors := { s.idCursors with lastToolBatchId := batchId } } := by
  simp only [applyToolEvent, startToolBatch, bind_eq_ok, require_eq_ok, orError_eq_ok,
    activeRunRef_eq_ok, plannedToolsetRevisionForTurn_eq_ok, Except.ok.injEq, exists_unit,
    Option.isNone_iff_eq_none, Bool.not_eq_true]
  constructor
  · rintro ⟨h1, h2, h3, _, ⟨run, turn, planned, h4, h5, h6, h7, rfl⟩, h8, h9, run', ⟨h4', h5'⟩,
      h10, h11, h12, h13, h14, turn', h6', ⟨h15, h16⟩, facts, h17, h18, rfl⟩
    obtain rfl : run = run' := Option.mem_unique h4 h4'
    obtain rfl : turn = turn' := Option.mem_unique h6 h6'
    exact ⟨run, turn, planned, facts, h4, h5, h6, h7, h17, h15, h16, h18, h1, h2, h3, h8, h9, h10,
      h11, h12, h13, h14, rfl⟩
  · rintro ⟨run, turn, planned, facts, h4, h5, h6, h7, h17, h15, h16, h18, h1, h2, h3, h8, h9, h10,
      h11, h12, h13, h14, rfl⟩
    exact ⟨h1, h2, h3, _, ⟨run, turn, planned, h4, h5, h6, h7, rfl⟩, h8, h9, run, ⟨h4, h5⟩,
      h10, h11, h12, h13, h14, turn, h6, ⟨h15, h16⟩, facts, h17, h18, rfl⟩

theorem callStarted_eq_ok {callId : ToolCallId} {toolName : ToolName} {argumentsRef : BlobRef} :
    applyToolEvent s (.callStarted runId turnId batchId callId toolName argumentsRef) = .ok t ↔
      ∃ run batch call calls, s.runs.active = some run ∧ run.runId = runId ∧
        run.status = .running ∧ run.activeTurnId = none ∧ run.activeToolBatchId = some batchId ∧
        run.isParkedOn batchId = false ∧ run.toolBatches.get? batchId = some batch ∧
        batch.runId = runId ∧ batch.turnId = turnId ∧
        batch.calls.find? (fun call => call.call.callId == callId) = some call ∧
        call.call.toolName = toolName ∧ call.call.argumentsRef = argumentsRef ∧
        call.status = .accepted ∧ call.result = none ∧
        updateCall callId (startCall toolName argumentsRef)
          (violation s!"tool call start references missing call {callId}") batch.calls = .ok calls ∧
        t = s.setActive (setBatchCalls run batchId calls) := by
  simp only [applyToolEvent, startToolCall, validateToolCallStart, bind_eq_ok, require_eq_ok,
    orError_eq_ok, activeRunRef_eq_ok, activeBatch_eq_ok, Except.ok.injEq, exists_unit,
    Option.isNone_iff_eq_none, Bool.not_eq_true]
  constructor
  · rintro ⟨run, ⟨h1, h2⟩, ⟨-, batch, h3, h4, call, h5, ⟨h6, h7⟩, h8, h9⟩, h10, h11, h12, h13,
      batch', ⟨h3', h14, h15⟩, calls, h16, rfl⟩
    obtain rfl : batch = batch' := Option.mem_unique h3 h3'
    exact ⟨run, batch, call, calls, h1, h2, h10, h11, h12, h13, h3, h14, h15, h5, h6, h7, h8, h9,
      h16, rfl⟩
  · rintro ⟨run, batch, call, calls, h1, h2, h10, h11, h12, h13, h3, h14, h15, h5, h6, h7, h8, h9,
      h16, rfl⟩
    exact ⟨run, ⟨h1, h2⟩, ⟨h12, batch, h3, h15, call, h5, ⟨h6, h7⟩, h8, h9⟩, h10, h11, h12, h13,
      batch, ⟨h3, h14, h15⟩, calls, h16, rfl⟩

theorem callCompleted_eq_ok {result : ToolCallResult} :
    applyToolEvent s (.callCompleted runId turnId batchId result) = .ok t ↔
      ∃ run batch calls, s.runs.active = some run ∧ run.runId = runId ∧
        run.activeToolBatchId = some batchId ∧ run.isParkedOn batchId = false ∧
        run.toolBatches.get? batchId = some batch ∧ batch.runId = runId ∧ batch.turnId = turnId ∧
        (result.status = .succeeded ∨ result.status = .failed ∨ result.status = .cancelled) ∧
        updateCall result.callId (completeCall result)
          (violation ("tool call completion references missing call " ++ result.callId))
          batch.calls = .ok calls ∧
        t = s.setActive (setBatchCalls run batchId calls) := by
  simp only [applyToolEvent, completeToolCall, bind_eq_ok, require_eq_ok, activeRunRef_eq_ok,
    activeBatch_eq_ok, Except.ok.injEq, exists_unit, Bool.not_eq_true]
  constructor
  · rintro ⟨h1, run, ⟨h2, h3⟩, h4, h5, batch, ⟨h6, h7, h8⟩, calls, h9, rfl⟩
    exact ⟨run, batch, calls, h2, h3, h4, h5, h6, h7, h8, h1, h9, rfl⟩
  · rintro ⟨run, batch, calls, h2, h3, h4, h5, h6, h7, h8, h1, h9, rfl⟩
    exact ⟨h1, run, ⟨h2, h3⟩, h4, h5, batch, ⟨h6, h7, h8⟩, calls, h9, rfl⟩

theorem batchParked_eq_ok {suspension : ToolBatchSuspension} :
    applyToolEvent s (.batchParked runId turnId batchId suspension) = .ok t ↔
      ∃ run batch, s.runs.active = some run ∧ run.runId = runId ∧ run.status = .running ∧
        run.activeTurnId = none ∧ run.activeToolBatchId = some batchId ∧
        run.parkedToolBatch = none ∧ run.toolBatches.get? batchId = some batch ∧
        batch.runId = runId ∧ batch.turnId = turnId ∧
        validateSuspension s runId batchId batch suspension = .ok () ∧
        batch.calls.any (fun call => call.status == .accepted) = false ∧
        t = s.setActive { run with
          parkedToolBatch := some ⟨batchId, suspension⟩, status := .parked } := by
  simp only [applyToolEvent, parkToolBatch, bind_eq_ok, require_eq_ok, activeRunRef_eq_ok,
    activeBatch_eq_ok, Except.ok.injEq, exists_unit, Option.isNone_iff_eq_none, Bool.not_eq_true]
  grind

theorem batchUnparked_eq_ok :
    applyToolEvent s (.batchUnparked runId turnId batchId) = .ok t ↔
      ∃ run batch, s.runs.active = some run ∧ run.runId = runId ∧
        run.activeToolBatchId = some batchId ∧ run.toolBatches.get? batchId = some batch ∧
        batch.runId = runId ∧ batch.turnId = turnId ∧ run.isParkedOn batchId = true ∧
        t = s.setActive { run with
          parkedToolBatch := none
          status := if run.status = .parked then .running else run.status } := by
  simp only [applyToolEvent, unparkToolBatch, bind_eq_ok, require_eq_ok, activeRunRef_eq_ok,
    activeBatch_eq_ok, Except.ok.injEq, exists_unit]
  grind

/-- The run whose active batch has completed, before its settled records are pruned. -/
def ActiveRun.closeBatch (run : ActiveRun) (completed : CompletedToolBatch) : ActiveRun :=
  { run with
    toolBatches := run.toolBatches.erase completed.batchId
    completedToolBatches := run.completedToolBatches.insert completed.batchId completed
    activeToolBatchId := none }

theorem batchCompleted_eq_ok :
    applyToolEvent s (.batchCompleted runId turnId batchId) = .ok t ↔
      ∃ run batch results, s.runs.active = some run ∧ run.runId = runId ∧
        run.activeToolBatchId = some batchId ∧
        run.completedToolBatches.contains batchId = false ∧
        run.toolBatches.get? batchId = some batch ∧ batch.runId = runId ∧ batch.turnId = turnId ∧
        run.isParkedOn batchId = false ∧
        batch.calls.mapM (settledResult s runId turnId) = .ok results ∧
        t = pruneFinishedWork (s.setActive (pruneSettledRunRecords
          (run.closeBatch ⟨batchId, runId, turnId, results⟩))) := by
  simp only [applyToolEvent, completeToolBatch, bind_eq_ok, require_eq_ok, activeRunRef_eq_ok,
    activeBatch_eq_ok, Except.ok.injEq, exists_unit, Bool.not_eq_true]
  constructor
  · rintro ⟨run, ⟨h1, h2⟩, h3, h4, batch, ⟨h5, h6, h7⟩, h8, results, h9, rfl⟩
    exact ⟨run, batch, results, h1, h2, h3, h4, h5, h6, h7, h8, h9, rfl⟩
  · rintro ⟨run, batch, results, h1, h2, h3, h4, h5, h6, h7, h8, h9, rfl⟩
    exact ⟨run, ⟨h1, h2⟩, h3, h4, batch, ⟨h5, h6, h7⟩, h8, results, h9, rfl⟩

/-! ## Context -/

/-- A loop that refuses repeated keys returns when no key stands twice and every check passes. -/
theorem validateEach_eq_ok {α κ : Type} [DecidableEq κ] [ToString κ] {duplicate : String}
    {key : α → κ} {check : α → Result Unit} {seen : List κ} {xs : List α} :
    validateEach duplicate key check seen xs = .ok () ↔
      (xs.map key).Nodup ∧ (∀ x ∈ xs, key x ∉ seen) ∧ ∀ x ∈ xs, check x = .ok () := by
  induction xs generalizing seen with
  | nil => simp [validateEach]
  | cons x xs ih =>
    simp only [validateEach, bind_eq_ok, require_eq_ok, exists_unit, ih, List.map_cons,
      List.nodup_cons, List.forall_mem_cons]
    constructor
    · rintro ⟨h1, h2, h3, h4, h5⟩
      refine ⟨⟨?_, h3⟩, ⟨h1, fun y hy hseen => h4 y hy (List.mem_cons_of_mem _ hseen)⟩, h2, h5⟩
      intro hx
      obtain ⟨y, hy, hxy⟩ := List.mem_map.mp hx
      exact h4 y hy (hxy ▸ List.mem_cons_self)
    · rintro ⟨⟨h1, h3⟩, ⟨h2, h4⟩, h5, h6⟩
      refine ⟨h2, h5, h3, fun y hy hmem => ?_, h6⟩
      rcases List.mem_cons.mp hmem with hxy | hseen
      · exact h1 (List.mem_map.mpr ⟨y, hy, hxy⟩)
      · exact h4 y hy hseen

theorem isRemovable_iff {id : ContextEntryId} :
    isRemovable s id = true ↔ validateEntryIsNotUnconsumedActiveRunInput s id = .ok () := by
  unfold isRemovable
  cases validateEntryIsNotUnconsumedActiveRunInput s id <;> simp [Except.isOk, Except.toBool]

/-- An entry may leave context unless it is input or steering that no turn has consumed yet. -/
theorem removable_eq_ok {id : ContextEntryId} :
    validateEntryIsNotUnconsumedActiveRunInput s id = .ok () ↔
      ∀ run, s.runs.active = some run →
        (run.inputConsumedByTurnId = none → id ∉ run.inputEntryIds) ∧
        ∀ steering ∈ run.steering, steering.consumedByTurnId = none → id ∉ steering.entryIds := by
  unfold validateEntryIsNotUnconsumedActiveRunInput
  cases s.runs.active with
  | none => simp
  | some run =>
    simp only [bind_eq_ok, require_eq_ok, exists_unit, Option.isNone_iff_eq_none, not_and, not_exists,
      Option.some.injEq, forall_eq']

theorem validateNextEntry_eq_ok {entry : ContextEntry} :
    validateNextEntry s entry = .ok () ↔
      entry.entryId = s.idCursors.lastContextEntryId + 1 ∧ entryById s entry.entryId = none ∧
        ∀ last ∈ s.context.entries.getLast?, last.entryId < entry.entryId := by
  simp only [validateNextEntry, bind_eq_ok, require_eq_ok, exists_unit, Option.isNone_iff_eq_none]
  cases s.context.entries.getLast? <;> simp

theorem applyEntry_eq_ok {entry : ContextEntry} :
    applyEntry s entry = .ok t ↔
      validateNextEntry s entry = .ok () ∧ ∃ recorded replaced,
        recordEntryMaterialization s entry = .ok recorded ∧
        replaceKeyed recorded entry = .ok replaced ∧
        t = capVersions (appendEntry replaced entry) entry := by
  simp only [applyEntry, bind_eq_ok, exists_unit, Except.ok.injEq, eq_comm (a := t)]
  grind

theorem applyEntriesApplied_eq_ok :
    applyEntriesApplied s entries = .ok t ↔
      entries ≠ [] ∧ validateNoDuplicateEntryKeys [] entries = .ok () ∧
        entries.foldlM applyEntry s = .ok t := by
  simp only [applyEntriesApplied, bind_eq_ok, require_eq_ok, exists_unit]

theorem entriesApplied_eq_ok {baseRevision : Nat} :
    applyContextEvent s (.entriesApplied baseRevision entries) = .ok t ↔
      baseRevision = s.context.revision ∧ ∃ m, applyEntriesApplied s entries = .ok m ∧
        t = bumpContextRevision m := by
  simp only [applyContextEvent, validateBaseRevision, bind_eq_ok, require_eq_ok, exists_unit,
    Except.ok.injEq, eq_comm (a := t)]

theorem entriesRemoved_eq_ok {baseRevision : Nat} {entryIds : List ContextEntryId}
    {reason : ContextRemovalReason} :
    applyContextEvent s (.entriesRemoved baseRevision entryIds reason) = .ok t ↔
      baseRevision = s.context.revision ∧ entryIds ≠ [] ∧ entryIds.Nodup ∧
        (∀ id ∈ entryIds, validateEntryIsNotUnconsumedActiveRunInput s id = .ok ()) ∧
        (∀ id ∈ entryIds, (entryById s id).isSome = true) ∧
        t = bumpContextRevision
          (s.setEntries (s.context.entries.filter (fun entry => entry.entryId ∉ entryIds))) := by
  simp only [applyContextEvent, validateBaseRevision, removeContextEntries, bind_eq_ok,
    require_eq_ok, forM_eq_ok, exists_unit, Except.ok.injEq, validateEach_eq_ok, id_eq,
    List.map_id, List.not_mem_nil, not_false_eq_true, implies_true, true_and]
  grind

theorem keysRemoved_eq_ok {baseRevision : Nat} {keys : List ContextEntryKey} :
    applyContextEvent s (.keysRemoved baseRevision keys) = .ok t ↔
      baseRevision = s.context.revision ∧ keys ≠ [] ∧ validateKeysRemovable s keys = .ok () ∧
        t = bumpContextRevision (keys.foldl removeContextEntryByKey s) := by
  simp only [applyContextEvent, validateBaseRevision, bind_eq_ok, require_eq_ok, exists_unit,
    Except.ok.injEq, eq_comm (a := t)]

theorem keyPrefixReplaced_eq_ok {baseRevision : Nat} {keyPrefix : ContextEntryKey} :
    applyContextEvent s (.keyPrefixReplaced baseRevision keyPrefix entries) = .ok t ↔
      baseRevision = s.context.revision ∧
        validateKeyPrefixReplacementEntries s keyPrefix entries = .ok () ∧
        validatePrefixEntriesRemovable s keyPrefix = .ok () ∧
        ∃ m, (if entries = [] then .ok (removeContextEntriesByKeyPrefix s keyPrefix)
            else applyEntriesApplied (removeContextEntriesByKeyPrefix s keyPrefix) entries) = .ok m ∧
          t = bumpContextRevision m := by
  simp only [applyContextEvent, validateBaseRevision, applyKeyPrefixReplaced, bind_eq_ok,
    require_eq_ok, exists_unit, Except.ok.injEq]
  grind

theorem entriesReplaced_eq_ok {baseRevision : Nat} :
    applyContextEvent s (.entriesReplaced baseRevision entries) = .ok t ↔
      baseRevision = s.context.revision ∧ entries ≠ [] ∧
        (entries.map ContextEntry.entryId).Nodup ∧
        (∀ entry ∈ entries, validateRecordedEntryReplacement s entry = .ok ()) ∧
        t = bumpContextRevision (s.setEntries (entries.foldl replaceEntry s.context.entries)) := by
  simp only [applyContextEvent, validateBaseRevision, bind_eq_ok, require_eq_ok, exists_unit,
    Except.ok.injEq, validateEach_eq_ok, List.not_mem_nil, not_false_eq_true, implies_true, true_and,
    and_assoc, eq_comm (a := t)]

theorem compactionRequested_eq_ok {baseRevision : Nat} {trigger : ContextCompactionTrigger}
    {plan : ContextCompactionPlan} :
    applyContextEvent s (.compactionRequested baseRevision trigger plan) = .ok t ↔
      baseRevision = s.context.revision ∧ compactionSafeBoundary s = true ∧
        plan.trigger = trigger ∧ plan.runId = s.runs.active.map (fun run => run.runId) ∧
        plan.coveredEntryIds ≠ [] ∧
        (∀ id ∈ plan.coveredEntryIds, (entryById s id).isSome = true ∧
          validateEntryIsNotUnconsumedActiveRunInput s id = .ok ()) ∧
        t = bumpContextRevision ((s.mapActive (recordCompactionAttempt s trigger)).setContext
          { s.context with compaction := { s.context.compaction with phase := .pending plan } }) := by
  simp only [applyContextEvent, validateBaseRevision, bind_eq_ok, require_eq_ok, forM_eq_ok,
    exists_unit, Except.ok.injEq, and_assoc, eq_comm (a := t)]

theorem compactionQueued_eq_ok {baseRevision : Nat} :
    applyContextEvent s (.compactionQueued baseRevision) = .ok t ↔
      baseRevision = s.context.revision ∧ s.context.compaction.isPending = false ∧
        s.context.compaction.isQueued = false ∧
        t = s.setContext
          { s.context with compaction := { s.context.compaction with phase := .queuedManual } } := by
  simp only [applyContextEvent, validateBaseRevision, bind_eq_ok, require_eq_ok, exists_unit,
    Except.ok.injEq, Bool.not_eq_true, and_assoc, eq_comm (a := t)]

theorem compactionFinished_eq_ok {baseRevision calls : Nat} {status : ContextCompactionStatus}
    {failureRef : Option BlobRef} {usage : Option LlmUsage} :
    applyContextEvent s (.compactionFinished baseRevision status failureRef usage calls) = .ok t ↔
      baseRevision = s.context.revision ∧ ¬ (status = .succeeded ∧ failureRef.isSome = true) ∧
        (s.context.compaction.isPending = true ∨ s.context.compaction.isQueued = true) ∧
        t = finishCompaction s status failureRef usage := by
  simp only [applyContextEvent, validateBaseRevision, bind_eq_ok, require_eq_ok, exists_unit,
    Except.ok.injEq, eq_comm (a := t)]

/-! ## Promises -/

/-- A promise is scoped to the session or to the active run. -/
def PromiseScope.isOpen (scope : PromiseScope) (s : CoreAgentState) : Prop :=
  ∀ runId, scope = .run runId → ∃ run, s.runs.active = some run ∧ run.runId = runId

theorem promiseCreated_eq_ok {promise : Promise} :
    applyPromiseEvent s (.created promise) = .ok t ↔
      promise.status = .pending ∧ s.promises.promises.contains promise.promiseId = false ∧
        promise.scope.isOpen s ∧
        t = { s.setPromises (s.promises.store promise) with
          idCursors := { s.idCursors with
            lastPromiseId := max s.idCursors.lastPromiseId promise.promiseId.number } } := by
  simp only [applyPromiseEvent, bind_eq_ok, require_eq_ok, exists_unit, Bool.not_eq_true,
    PromiseScope.isOpen, eq_comm (a := t)]
  cases promise.scope with
  | session => simp
  | run runId =>
    cases s.runs.active <;> simp

theorem promiseResolved_eq_ok {payloadRef : Option BlobRef} :
    applyPromiseEvent s (.resolved promiseId payloadRef) = .ok t ↔
      ∃ promise, s.promises.promises.get? promiseId = some promise ∧ promise.status = .pending ∧
        t = s.setPromises
          (s.promises.settle promiseId { promise with status := .resolved, payloadRef }) := by
  simp only [applyPromiseEvent, bind_eq_ok, pendingPromise_eq_ok, Except.ok.injEq, and_assoc,
    eq_comm (a := t)]

theorem promiseFailed_eq_ok {errorRef : Option BlobRef} :
    applyPromiseEvent s (.failed promiseId errorRef) = .ok t ↔
      ∃ promise, s.promises.promises.get? promiseId = some promise ∧ promise.status = .pending ∧
        t = s.setPromises
          (s.promises.settle promiseId { promise with status := .failed, errorRef }) := by
  simp only [applyPromiseEvent, bind_eq_ok, pendingPromise_eq_ok, Except.ok.injEq, and_assoc,
    eq_comm (a := t)]

theorem promiseCancelled_eq_ok :
    applyPromiseEvent s (.cancelled promiseId) = .ok t ↔
      ∃ promise, s.promises.promises.get? promiseId = some promise ∧ promise.status = .pending ∧
        t = s.setPromises (s.promises.settle promiseId { promise with status := .cancelled }) := by
  simp only [applyPromiseEvent, bind_eq_ok, pendingPromise_eq_ok, Except.ok.injEq, and_assoc,
    eq_comm (a := t)]

theorem promiseDetached_eq_ok :
    applyPromiseEvent s (.detached promiseId) = .ok t ↔
      ∃ promise, s.promises.promises.get? promiseId = some promise ∧ promise.status = .pending ∧
        t = s.setPromises { s.promises with
          promises := s.promises.promises.insert promiseId { promise with scope := .session } } := by
  simp only [applyPromiseEvent, bind_eq_ok, pendingPromise_eq_ok, Except.ok.injEq, and_assoc,
    eq_comm (a := t)]

/-! ## Tools and workflow tools -/

/-- The toolset that a configuration event leaves. -/
def ToolConfigEvent.toolset (event : ToolConfigEvent) (tools : ToolMap) : ToolMap :=
  match event with
  | .toolsReplaced _ tools => tools
  | .toolsPatched _ patch => patch.mergedInto tools

/-- The revision that a configuration event was built against. -/
def ToolConfigEvent.baseRevision : ToolConfigEvent → Nat
  | .toolsReplaced baseRevision _ | .toolsPatched baseRevision _ => baseRevision

theorem toolConfig_eq_ok {event : ToolConfigEvent} :
    applyToolConfigEvent s event = .ok t ↔
      s.lifecycle.status = .open ∧ event.baseRevision = s.tooling.revision ∧
        t = { s with
          tooling := { revision := s.tooling.revision + 1, tools := event.toolset s.tooling.tools } } := by
  cases event <;>
    simp only [applyToolConfigEvent, bind_eq_ok, require_eq_ok, exists_unit, Except.ok.injEq,
      ToolConfigEvent.toolset, ToolConfigEvent.baseRevision, eq_comm (a := t)]

/-- A workflow tool's configuration changes the workflow tools only. -/
theorem workflowToolConfig_ok {event : WorkflowToolConfigEvent}
    (h : applyWorkflowToolConfigEvent s event = .ok t) :
    ∃ tools : WorkflowToolState, t = s.setWorkflowTools tools ∧
      tools.boundInvocations = s.workflowTools.boundInvocations ∧
      tools.startRequests = s.workflowTools.startRequests := by
  cases event with
  | declaredBindingsAdmitted universeId version controller fingerprint bindings =>
    simp only [applyWorkflowToolConfigEvent, bind_eq_ok, require_eq_ok, forM_eq_ok, exists_unit,
      Except.ok.injEq] at h
    obtain ⟨-, -, -, rfl⟩ := h
    exact ⟨_, rfl, rfl, rfl⟩
  | systemBindingAdmitted binding =>
    simp only [applyWorkflowToolConfigEvent, bind_eq_ok, require_eq_ok, exists_unit,
      Except.ok.injEq] at h
    obtain ⟨-, -, rfl⟩ := h
    exact ⟨_, rfl, rfl, rfl⟩

/-- A recorded invocation was made by a call of the active run: by a call of an open batch, or by a
code call, with its scope's parent. -/
theorem validateRecordedInvocation_ok {binding : WorkflowToolBinding}
    (h : validateRecordedInvocation s invocation = .ok binding) :
    ∃ run, s.runs.active = some run ∧ run.runId = invocation.runId ∧
      (codeToolCallForId s invocation.toolCallId = none →
        run.toolBatches.contains invocation.toolBatchId = true) := by
  simp only [validateRecordedInvocation, bind_eq_ok, require_eq_ok, orError_eq_ok,
    exists_unit] at h
  obtain ⟨binding', -, -, run, h1, h2, h3⟩ := h
  refine ⟨run, h1, h2, fun hnone => ?_⟩
  rw [hnone] at h3
  simp only [validateRecordedModelCall, bind_eq_ok, orError_eq_ok] at h3
  obtain ⟨-, ⟨batch, hbatch, -⟩, -⟩ := h3
  exact OrdMap.contains_iff.mpr ⟨batch, hbatch⟩

theorem invoked_ok (h : applyWorkflowToolEvent s (.invoked invocation) = .ok t) :
    (∃ binding, validateRecordedInvocation s invocation = .ok binding) ∧
      t = s.setWorkflowTools { s.workflowTools with
        boundInvocations :=
          s.workflowTools.boundInvocations.insert invocation.invocationId invocation } := by
  simp only [applyWorkflowToolEvent, bind_eq_ok, require_eq_ok, exists_unit, Except.ok.injEq] at h
  obtain ⟨binding, h1, -, -, rfl⟩ := h
  exact ⟨⟨binding, h1⟩, rfl⟩

theorem startRequested_ok {executionId : String}
    (h : applyWorkflowToolEvent s (.startRequested invocation executionId) = .ok t) :
    (∃ binding, validateRecordedInvocation s invocation = .ok binding) ∧
      t = s.setWorkflowTools { s.workflowTools with
        startRequests := s.workflowTools.startRequests.insert invocation.invocationId invocation } := by
  simp only [applyWorkflowToolEvent, bind_eq_ok, require_eq_ok, exists_unit, Except.ok.injEq] at h
  obtain ⟨binding, h1, -, -, rfl⟩ := h
  exact ⟨⟨binding, h1⟩, rfl⟩

/-- The failure of an invocation is recorded beside it. -/
theorem invocationFailed_ok {event : WorkflowToolEvent}
    (hevent : (∃ id ref, event = .deliveryFailed id ref) ∨ ∃ id ref, event = .startFailed id ref)
    (h : applyWorkflowToolEvent s event = .ok t) :
    ∃ tools : WorkflowToolState, t = s.setWorkflowTools tools ∧
      tools.boundInvocations = s.workflowTools.boundInvocations ∧
      tools.startRequests = s.workflowTools.startRequests := by
  rcases hevent with ⟨id, ref, rfl⟩ | ⟨id, ref, rfl⟩ <;>
    simp only [applyWorkflowToolEvent, bind_eq_ok, require_eq_ok, exists_unit,
      Except.ok.injEq] at h <;>
    obtain ⟨-, failures, -, rfl⟩ := h <;>
    exact ⟨_, rfl, rfl, rfl⟩

/-! ## Code tools -/

/-- A call is admitted to a scope whose parent call is parked, joined and pending. -/
theorem validateLiveParent_ok {scope : CodeToolScopeSpec}
    (h : validateLiveParent s scope = .ok ()) :
    ∃ parent run parked, codeToolParent s scope = .ok parent ∧ s.runs.active = some run ∧
      run.runId = parent.runId ∧ run.parkedToolBatch = some parked ∧
      parked.batchId = parent.toolBatchId := by
  simp only [validateLiveParent, bind_eq_ok, require_eq_ok, orError_eq_ok, exists_unit] at h
  obtain ⟨parent, h1, run, h2, ⟨h3, -⟩, parked, h4, -, h5, -⟩ := h
  exact ⟨parent, run, parked, h1, h2, h3, h4, h5⟩

theorem scopeOpened_eq_ok {scope : CodeToolScopeSpec} :
    applyCodeToolEvent s (.scopeOpened scope) = .ok t ↔
      s.codeTools.scopes.contains scope.executionId = false ∧
        validateRecordedScope s scope = .ok () ∧
        t = s.setScopes (s.codeTools.scopes.insert scope.executionId
          { toolsetRevision := s.tooling.revision, spec := scope, closed := false, calls := ∅ }) := by
  simp only [applyCodeToolEvent, bind_eq_ok, require_eq_ok, exists_unit, Except.ok.injEq,
    Bool.not_eq_true, eq_comm (a := t)]

/-- A code call as it is admitted, with the promise numbers that it reserves. -/
def CodeToolCallSpec.admitted (call : CodeToolCallSpec) (promiseIdBase : Nat) : CodeToolCall where
  spec := call
  callId := codeToolCallId call.origin
  promiseIdBase := promiseIdBase
  status := .pending

theorem callAdmitted_eq_ok {call : CodeToolCallSpec} {base : Nat} :
    applyCodeToolEvent s (.callAdmitted call base) = .ok t ↔
      ∃ scope last, validateRecordedCall s call = .ok scope ∧
        codeToolCall s call.origin = none ∧ some base = checkedAdd64 s.idCursors.lastPromiseId 1 ∧
        checkedAdd64 base (codeToolPromiseSlots - 1) = some last ∧
        t = { s.setScopes (s.codeTools.scopes.modify call.origin.executionId fun scope =>
            { scope with
              calls := scope.calls.insert call.origin.requestId (call.admitted base) }) with
          idCursors := { s.idCursors with lastPromiseId := last } } := by
  simp only [applyCodeToolEvent, bind_eq_ok, require_eq_ok, orError_eq_ok, exists_unit,
    Except.ok.injEq, Option.isNone_iff_eq_none]
  constructor
  · rintro ⟨scope, h1, h2, h3, last, h4, rfl⟩
    exact ⟨scope, last, h1, h2, h3, h4, rfl⟩
  · rintro ⟨scope, last, h1, h2, h3, h4, rfl⟩
    exact ⟨scope, h1, h2, h3, last, h4, rfl⟩

theorem codeCallCompleted_eq_ok {origin : CodeToolOrigin} {result : CodeToolCallResult} :
    applyCodeToolEvent s (.callCompleted origin result) = .ok t ↔
      ∃ call, codeToolCall s origin = some call ∧
        validateResultFields call result.callId result.status = .ok () ∧
        call.status.isTerminal = false ∧ t = setCodeCallStatus s origin (.completed result) := by
  simp only [applyCodeToolEvent, bind_eq_ok, require_eq_ok, orError_eq_ok, exists_unit,
    Except.ok.injEq, Bool.not_eq_true, eq_comm (a := t)]

theorem codeCallDeferred_eq_ok {origin : CodeToolOrigin} {suspension : ToolBatchSuspension} :
    applyCodeToolEvent s (.callDeferred origin suspension) = .ok t ↔
      ∃ call, codeToolCall s origin = some call ∧ call.status = .pending ∧
        validateCodeSuspension s call suspension = .ok () ∧
        t = setCodeCallStatus s origin (.waiting suspension) := by
  simp only [applyCodeToolEvent, bind_eq_ok, require_eq_ok, orError_eq_ok, exists_unit,
    Except.ok.injEq, eq_comm (a := t)]

theorem scopeClosed_eq_ok {executionId : String} :
    applyCodeToolEvent s (.scopeClosed executionId) = .ok t ↔
      s.codeTools.scopes.contains executionId = true ∧
        t = s.setScopes
          (s.codeTools.scopes.modify executionId (fun scope => { scope with closed := true })) := by
  simp only [applyCodeToolEvent, bind_eq_ok, require_eq_ok, exists_unit, Except.ok.injEq,
    eq_comm (a := t)]

end Lightspeed.Harness
