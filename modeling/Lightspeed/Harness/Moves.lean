import Lightspeed.Harness.Steps

/-!
# How the active run moves

What an event makes of the active run, by the few ways in which it can: the run enters from the queue, is
steered, is asked to stop and leaves; its approvals change; a turn starts, is written and ends; a batch is
worked on, parked, unparked and completed. All other events leave the runs as they are. An invariant about
the active run is proved for these moves, and one about the work of its tools for the events that touch it.
-/

namespace Lightspeed.Harness

open Lib

variable {s t : CoreAgentState} {entry : CoreAgentEntry}

/-! ## Runs -/

@[simp]
theorem finishRun_runs (run : ActiveRun) (outcome : RunOutcome) (seq ms : Nat) :
    (s.finishRun run outcome seq ms).runs = pruneTerminalRunRecords
      { s.runs with
        active := none
        finished := s.runs.finished ++ [run.terminalRecord outcome seq ms] } := rfl

@[simp]
theorem finishRun_idCursors (run : ActiveRun) (outcome : RunOutcome) (seq ms : Nat) :
    (s.finishRun run outcome seq ms).idCursors = s.idCursors := rfl

@[simp]
theorem pruneTerminalRunRecords_active (runs : RunsState) :
    (pruneTerminalRunRecords runs).active = runs.active := by
  rw [pruneTerminalRunRecords]

@[simp]
theorem pruneTerminalRunRecords_queued (runs : RunsState) :
    (pruneTerminalRunRecords runs).queued = runs.queued := by
  rw [pruneTerminalRunRecords]

/-- Whether an event prunes finished work: one that ends the active run, or completes a batch. -/
def CoreAgentEvent.mayPrune : CoreAgentEvent → Bool
  | .run (.completed _ _) | .run (.failed _ _) | .run (.cancelled _) | .run (.forceCancelled _)
  | .tool (.batchCompleted _ _ _) => true
  | _ => false

/-- Whether an event puts a run into the queue, or takes one out that has not started. -/
def RunEvent.queues : RunEvent → Bool
  | .accepted _ | .queuedCancelled _ => true
  | _ => false

theorem mayPrune_of_terminal {event : CoreAgentEvent} {runId : RunId}
    (h : event.terminalRunId = some runId) : event.mayPrune = true := by
  unfold CoreAgentEvent.terminalRunId at h
  split at h <;> first | rfl | cases h

theorem mayPrune_of_queues {event : RunEvent} (h : event.queues = true) :
    (CoreAgentEvent.run event).mayPrune = false := by
  cases event <;> first | rfl | cases h

/-- What a run event does. -/
inductive RunMoves (s : CoreAgentState) (seq ms : Nat) : RunEvent → CoreAgentState → Prop
  | queues {event : RunEvent} {t : CoreAgentState} (hqueues : event.queues = true)
      (hactive : t.runs.active = s.runs.active)
      (ht : t = { s with
        runs := t.runs, idCursors := { s.idCursors with lastRunId := t.idCursors.lastRunId } }) :
      RunMoves s seq ms event t
  | starts {queued : AcceptedRun} {rest : List AcceptedRun} (hfree : s.runs.active = none)
      (hqueue : s.runs.queued = queued :: rest) :
      RunMoves s seq ms (.started queued.runId)
        (s.setRuns { s.runs with queued := rest, active := some (queued.start ms) })
  | steers {run : ActiveRun} {steeringId : SteeringId} {submissionId : SubmissionId}
      {input : List ContextEntryInput} (hactive : s.runs.active = some run)
      (hid : steeringId = s.idCursors.lastSteeringId + 1) :
      RunMoves s seq ms (.steeringAccepted run.runId steeringId submissionId input)
        { s.setActive { run with
            steering := run.steering ++ [{ steeringId, submissionId, input }] } with
          idCursors := { s.idCursors with lastSteeringId := steeringId } }
  | stops {run : ActiveRun} (hactive : s.runs.active = some run) :
      RunMoves s seq ms (.cancellationRequested run.runId)
        (s.setActive { run with status := .cancelling })
  | ends {event : RunEvent} {run : ActiveRun} {outcome : RunOutcome}
      (hactive : s.runs.active = some run)
      (hends : (CoreAgentEvent.run event).terminalRunId = some run.runId) :
      RunMoves s seq ms event (s.finishRun run outcome seq ms)

theorem applyRunEvent_moves {seq ms : Nat} {event : RunEvent} (h : applyRunEvent s seq ms event = .ok t) :
    RunMoves s seq ms event t := by
  cases event with
  | accepted accepted =>
    obtain ⟨-, -, -, -, rfl⟩ := accepted_eq_ok.mp h
    exact .queues rfl rfl rfl
  | started runId =>
    obtain ⟨-, hfree, queued, rest, hqueue, rfl, rfl⟩ := started_eq_ok.mp h
    exact .starts hfree hqueue
  | steeringAccepted runId steeringId submissionId input =>
    obtain ⟨run, hactive, rfl, hid, -, rfl⟩ := steeringAccepted_eq_ok.mp h
    exact .steers hactive hid
  | cancellationRequested runId =>
    obtain ⟨run, hactive, rfl, -, rfl⟩ := cancellationRequested_eq_ok.mp h
    exact .stops hactive
  | completed runId output =>
    obtain ⟨run, hactive, rfl, rfl⟩ := completed_eq_ok.mp h
    exact .ends hactive rfl
  | failed runId failure =>
    obtain ⟨run, hactive, rfl, rfl⟩ := failed_eq_ok.mp h
    exact .ends hactive rfl
  | cancelled runId =>
    obtain ⟨run, hactive, rfl, -, -, -, rfl⟩ := cancelled_eq_ok.mp h
    exact .ends hactive rfl
  | forceCancelled runId =>
    obtain ⟨run, hactive, rfl, -, rfl⟩ := forceCancelled_eq_ok.mp h
    exact .ends hactive rfl
  | queuedCancelled runId =>
    obtain ⟨queued, -, rfl⟩ := queuedCancelled_eq_ok.mp h
    exact .queues rfl (pruneTerminalRunRecords_active _) rfl

/-! ## Approvals -/

/-- The same run but for its approvals and what waits for them: a run that is asked to stop stays so. -/
structure ActiveRun.Judged (a b : ActiveRun) : Prop where
  run : b = { a with approvals := b.approvals, status := b.status }
  cancelling : a.status = .cancelling → b.status = .cancelling

/-- An approval event moves the active run on. -/
theorem applyApprovalEvent_moves {ms : Nat} {event : ApprovalEvent}
    (h : applyApprovalEvent s ms event = .ok t) :
    ∃ run run', s.runs.active = some run ∧ run.Judged run' ∧
      t = { s.setActive run' with idCursors := { s.idCursors with
        lastApprovalId := t.idCursors.lastApprovalId } } := by
  cases event with
  | requested approval =>
    obtain ⟨run, hactive, -, -, -, -, rfl⟩ := approvalRequested_eq_ok.mp h
    exact ⟨run, _, hactive, by exact ⟨rfl, id⟩, rfl⟩
  | runParked runId =>
    obtain ⟨run, hactive, -, -, hstatus, -, -, rfl⟩ := runParked_eq_ok.mp h
    have hstays : run.status ≠ .cancelling := by rw [hstatus]; nofun
    exact ⟨run, _, hactive, by exact ⟨rfl, fun hcancelling => absurd hcancelling hstays⟩, rfl⟩
  | runUnparked runId =>
    obtain ⟨run, hactive, -, hstatus, rfl⟩ := runUnparked_eq_ok.mp h
    have hstays : run.status ≠ .cancelling := by rw [hstatus]; nofun
    exact ⟨run, _, hactive, by exact ⟨rfl, fun hcancelling => absurd hcancelling hstays⟩, rfl⟩
  | decided id runId decision note =>
    obtain ⟨run, _, hactive, -, -, -, -, rfl⟩ := decided_eq_ok.mp h
    exact ⟨run, _, hactive, by exact ⟨rfl, fun hcancelling => hcancelling⟩, rfl⟩
  | cancelled id runId =>
    obtain ⟨run, _, hactive, -, -, -, -, rfl⟩ := approvalCancelled_eq_ok.mp h
    exact ⟨run, _, hactive, by exact ⟨rfl, fun hcancelling => hcancelling⟩, rfl⟩

/-! ## Turns -/

/-- What a steering batch was accepted with, and what of it is in context. -/
def SteeringBatch.unconsumed (batch : SteeringBatch) : SteeringBatch :=
  { batch with consumedByTurnId := none }

/-- The open turn of a run is written, and with it what the turn consumes and costs. -/
structure ActiveRun.Writes (turnId : TurnId) (turn after : TurnState) (a b : ActiveRun) : Prop where
  run : b = { a with
    turns := b.turns, usage := b.usage, contextRecovery := b.contextRecovery
    inputConsumedByTurnId := b.inputConsumedByTurnId, steering := b.steering }
  turns : b.turns = (a.setTurn turnId after).turns
  turnId : after.turnId = turn.turnId
  steering : b.steering.map SteeringBatch.unconsumed = a.steering.map SteeringBatch.unconsumed

theorem markConsumed_steering (run : ActiveRun) (turnId : TurnId) (ids : List ContextEntryId) :
    (markConsumed run turnId ids).steering.map SteeringBatch.unconsumed =
      run.steering.map SteeringBatch.unconsumed := by
  simp only [markConsumed, List.map_map]
  refine List.map_congr_left fun batch _ => ?_
  simp only [Function.comp_apply]
  split_ifs <;> rfl

theorem settleTurn_writes (run : ActiveRun) (turnId : TurnId) (turn : TurnState)
    (status : LlmGenerationStatus) (facts : LlmGenerationFacts) (usage : Option LlmUsage) :
    run.Writes turnId turn { turn with
      generationStatus := some status, facts := some facts, status := .generationSettled }
      ((run.settleTurn turnId turn status facts).chargeUsage usage) := by
  unfold ActiveRun.settleTurn
  dsimp only
  split_ifs <;> exact ⟨rfl, rfl, rfl, rfl⟩

/-- What a turn event does. -/
inductive TurnMoves (s : CoreAgentState) : TurnEvent → CoreAgentState → Prop
  | starts {run : ActiveRun} (hactive : s.runs.active = some run) (hrunning : run.status = .running)
      (hnone : run.activeTurnId = none) :
      TurnMoves s (.started (s.idCursors.lastTurnId + 1) run.runId)
        { s.setActive { run.setTurn (s.idCursors.lastTurnId + 1)
              { turnId := s.idCursors.lastTurnId + 1, runId := run.runId, status := .started } with
            turnCount := saturatingAdd32 run.turnCount 1
            activeTurnId := some (s.idCursors.lastTurnId + 1) } with
          idCursors := { s.idCursors with lastTurnId := s.idCursors.lastTurnId + 1 } }
  | writes {event : TurnEvent} {run run' : ActiveRun} {turnId : TurnId} {turn after : TurnState}
      (context : ContextState) (hactive : s.runs.active = some run)
      (hopen : run.activeTurnId = some turnId) (hget : run.turns.get? turnId = some turn)
      (hwrites : run.Writes turnId turn after run') (hentries : context.entries = s.context.entries)
      (hrevision : context.revision = s.context.revision)
      (hcompaction : context.compaction = s.context.compaction) :
      TurnMoves s event ((s.setContext context).setActive run')
  | completes {run : ActiveRun} {turnId : TurnId} {turn : TurnState} {outcome : TurnOutcome}
      (hactive : s.runs.active = some run) (hopen : run.activeTurnId = some turnId)
      (hget : run.turns.get? turnId = some turn) :
      TurnMoves s (.completed turnId outcome) (s.setActive (pruneSettledRunRecords
        { run.setTurn turnId { turn with outcome := some outcome, status := outcome.status } with
          activeTurnId := none }))
  | cancels {run : ActiveRun} {turnId : TurnId} {turn : TurnState}
      (hactive : s.runs.active = some run) (hcancelling : run.status = .cancelling)
      (hopen : run.activeTurnId = some turnId) (hget : run.turns.get? turnId = some turn) :
      TurnMoves s (.cancelled turnId run.runId) (s.setActive
        { run.setTurn turnId { turn with outcome := some .cancelled, status := .cancelled } with
          activeTurnId := none })

theorem applyTurnEvent_moves {event : TurnEvent} (h : applyTurnEvent s event = .ok t) :
    TurnMoves s event t := by
  cases event with
  | started turnId runId =>
    obtain ⟨run, hactive, rfl, rfl, hrunning, hnone, rfl⟩ := turnStarted_eq_ok.mp h
    exact .starts hactive hrunning hnone
  | planned turnId runId fingerprint configRevision contextRevision toolsetRevision =>
    obtain ⟨run, turn, hactive, -, hopen, hget, -, -, -, -, -, rfl⟩ := planned_eq_ok.mp h
    have hsteering := markConsumed_steering run turnId (plannedContextEntryIds s)
    exact .writes s.context hactive hopen hget ⟨rfl, rfl, rfl, hsteering⟩ rfl rfl rfl
  | generationRequested turnId runId =>
    obtain ⟨run, turn, hactive, -, hopen, hget, -, -, rfl⟩ := generationRequested_eq_ok.mp h
    exact .writes s.context hactive hopen hget ⟨rfl, rfl, rfl, rfl⟩ rfl rfl rfl
  | generationCompleted turnId runId status facts =>
    obtain ⟨run, turn, hactive, -, hopen, hget, -, context, hentries, hrevision, hcompaction, rfl⟩ :=
      generationCompleted_ok h
    exact .writes context hactive hopen hget (settleTurn_writes run turnId turn status facts facts.usage)
      hentries hrevision hcompaction
  | completed turnId outcome =>
    obtain ⟨run, turn, hactive, hopen, hget, -, rfl⟩ := turnCompleted_eq_ok.mp h
    exact .completes hactive hopen hget
  | cancelled turnId runId =>
    obtain ⟨run, turn, hactive, rfl, hcancelling, hopen, hget, -, rfl⟩ := turnCancelled_eq_ok.mp h
    exact .cancels hactive hcancelling hopen hget

/-- The same run but for what its turns change: its batches stay, and its status. -/
structure ActiveRun.TurnedTo (a b : ActiveRun) : Prop where
  run : b = { a with
    turns := b.turns, turnCount := b.turnCount, activeTurnId := b.activeTurnId, usage := b.usage
    contextRecovery := b.contextRecovery, inputConsumedByTurnId := b.inputConsumedByTurnId
    steering := b.steering, approvals := b.approvals
    completedToolBatches := b.completedToolBatches }

theorem ActiveRun.Writes.turned {turnId : TurnId} {turn after : TurnState} {a b : ActiveRun}
    (h : a.Writes turnId turn after b) : a.TurnedTo b :=
  ⟨by rw [h.run]⟩

/-- A turn event turns the active run. -/
theorem applyTurnEvent_turned {event : TurnEvent} (h : applyTurnEvent s event = .ok t) :
    ∃ run run', s.runs.active = some run ∧ t.runs.active = some run' ∧ run.TurnedTo run' := by
  cases applyTurnEvent_moves h with
  | starts hactive | completes hactive | cancels hactive => exact ⟨_, _, hactive, rfl, ⟨rfl⟩⟩
  | writes context hactive hopen hget hwrites => exact ⟨_, _, hactive, rfl, hwrites.turned⟩

/-! ## Tools -/

/-- Whether an event works on the calls of a batch. -/
def ToolEvent.works : ToolEvent → Bool
  | .batchStarted .. | .callStarted .. | .callCompleted .. => true
  | _ => false

theorem mayPrune_of_works {event : ToolEvent} (h : event.works = true) :
    (CoreAgentEvent.tool event).mayPrune = false := by
  cases event <;> first | rfl | cases h

/-- What a tool event does. -/
inductive ToolMoves (s : CoreAgentState) : ToolEvent → CoreAgentState → Prop
  | works {event : ToolEvent} {run run' : ActiveRun} (cursor : ToolBatchId)
      (hworks : event.works = true) (hactive : s.runs.active = some run)
      (hrun : run' = { run with
        toolBatches := run'.toolBatches, activeToolBatchId := run'.activeToolBatchId }) :
      ToolMoves s event { s.setActive run' with
        idCursors := { s.idCursors with lastToolBatchId := cursor } }
  | parks {run : ActiveRun} {turnId : TurnId} {batchId : ToolBatchId}
      {suspension : ToolBatchSuspension} (hactive : s.runs.active = some run)
      (hrunning : run.status = .running) (hturn : run.activeTurnId = none)
      (hbatch : run.activeToolBatchId = some batchId) (hnone : run.parkedToolBatch = none) :
      ToolMoves s (.batchParked run.runId turnId batchId suspension)
        (s.setActive { run with
          parkedToolBatch := some ⟨batchId, suspension⟩, status := .parked })
  | unparks {run : ActiveRun} {turnId : TurnId} {batchId : ToolBatchId}
      (hactive : s.runs.active = some run) (hbatch : run.activeToolBatchId = some batchId)
      (hparked : run.isParkedOn batchId = true) :
      ToolMoves s (.batchUnparked run.runId turnId batchId)
        (s.setActive { run with
          parkedToolBatch := none
          status := if run.status = .parked then .running else run.status })
  | completes {run : ActiveRun} {turnId : TurnId} {batchId : ToolBatchId} {batch : ActiveToolBatch}
      {results : List ToolCallResult} (hactive : s.runs.active = some run)
      (hbatch : run.activeToolBatchId = some batchId)
      (hget : run.toolBatches.get? batchId = some batch) (hparked : run.isParkedOn batchId = false) :
      ToolMoves s (.batchCompleted run.runId turnId batchId)
        (pruneFinishedWork (s.setActive (pruneSettledRunRecords
          (run.closeBatch ⟨batchId, run.runId, turnId, results⟩))))

theorem applyToolEvent_moves {event : ToolEvent} (h : applyToolEvent s event = .ok t) :
    ToolMoves s event t := by
  cases event with
  | batchStarted runId turnId batchId revision calls =>
    obtain ⟨run, _, _, _, hactive, -, -, -, -, -, -, -, -, -, -, -, -, -, -, -, -, -, rfl⟩ :=
      batchStarted_eq_ok.mp h
    exact .works batchId rfl hactive rfl
  | callStarted runId turnId batchId callId toolName argumentsRef =>
    obtain ⟨run, _, _, _, hactive, -, -, -, -, -, -, -, -, -, -, -, -, -, -, rfl⟩ :=
      callStarted_eq_ok.mp h
    exact .works s.idCursors.lastToolBatchId rfl hactive rfl
  | callCompleted runId turnId batchId result =>
    obtain ⟨run, _, _, hactive, -, -, -, -, -, -, -, -, rfl⟩ := callCompleted_eq_ok.mp h
    exact .works s.idCursors.lastToolBatchId rfl hactive rfl
  | batchParked runId turnId batchId suspension =>
    obtain ⟨run, _, hactive, rfl, hrunning, hturn, hbatch, hnone, -, -, -, -, -, rfl⟩ :=
      batchParked_eq_ok.mp h
    exact .parks hactive hrunning hturn hbatch hnone
  | batchUnparked runId turnId batchId =>
    obtain ⟨run, _, hactive, rfl, hbatch, -, -, -, hparked, rfl⟩ := batchUnparked_eq_ok.mp h
    exact .unparks hactive hbatch hparked
  | batchCompleted runId turnId batchId =>
    obtain ⟨run, _, _, hactive, rfl, hbatch, -, hget, -, -, hparked, -, rfl⟩ := batchCompleted_eq_ok.mp h
    exact .completes hactive hbatch hget hparked

/-! ## The other components -/

/-- A lifecycle event touches the lifecycle only. -/
theorem applyLifecycleEvent_frame {event : LifecycleEvent}
    (h : applyLifecycleEvent s event = .ok t) : t = { s with lifecycle := t.lifecycle } := by
  cases event with
  | opened config =>
    obtain ⟨-, rfl⟩ := opened_eq_ok.mp h
    rfl
  | configChanged config revision =>
    obtain ⟨-, -, -, rfl⟩ := configChanged_eq_ok.mp h
    rfl
  | closed =>
    obtain ⟨-, -, -, -, rfl⟩ := closed_eq_ok.mp h
    rfl

/-- A promise event touches the promises and their cursor. -/
theorem applyPromiseEvent_frame {event : PromiseEvent} (h : applyPromiseEvent s event = .ok t) :
    t = { s with promises := t.promises, idCursors := { s.idCursors with
      lastPromiseId := t.idCursors.lastPromiseId } } := by
  cases event with
  | created promise =>
    obtain ⟨-, -, -, rfl⟩ := promiseCreated_eq_ok.mp h
    rfl
  | resolved promiseId payloadRef =>
    obtain ⟨_, -, -, rfl⟩ := promiseResolved_eq_ok.mp h
    rfl
  | failed promiseId errorRef =>
    obtain ⟨_, -, -, rfl⟩ := promiseFailed_eq_ok.mp h
    rfl
  | cancelled promiseId =>
    obtain ⟨_, -, -, rfl⟩ := promiseCancelled_eq_ok.mp h
    rfl
  | detached promiseId =>
    obtain ⟨_, -, -, rfl⟩ := promiseDetached_eq_ok.mp h
    rfl

/-- A workflow-tool event touches the workflow tools only. -/
theorem applyWorkflowToolEvent_frame {event : WorkflowToolEvent}
    (h : applyWorkflowToolEvent s event = .ok t) :
    t = { s with workflowTools := t.workflowTools } := by
  cases event with
  | invoked invocation =>
    obtain ⟨-, rfl⟩ := invoked_ok h
    rfl
  | startRequested invocation executionId =>
    obtain ⟨-, rfl⟩ := startRequested_ok h
    rfl
  | deliveryFailed id errorRef =>
    obtain ⟨_, rfl, -⟩ := invocationFailed_ok (.inl ⟨id, errorRef, rfl⟩) h
    rfl
  | startFailed id errorRef =>
    obtain ⟨_, rfl, -⟩ := invocationFailed_ok (.inr ⟨id, errorRef, rfl⟩) h
    rfl

/-- A code-tool event touches the code tools and the promise cursor. -/
theorem applyCodeToolEvent_frame {event : CodeToolEvent} (h : applyCodeToolEvent s event = .ok t) :
    t = { s with codeTools := t.codeTools, idCursors := { s.idCursors with
      lastPromiseId := t.idCursors.lastPromiseId } } := by
  cases event with
  | scopeOpened scope =>
    obtain ⟨-, -, rfl⟩ := scopeOpened_eq_ok.mp h
    rfl
  | callAdmitted call base =>
    obtain ⟨_, _, -, -, -, -, rfl⟩ := callAdmitted_eq_ok.mp h
    rfl
  | callCompleted origin result =>
    obtain ⟨_, -, -, -, rfl⟩ := codeCallCompleted_eq_ok.mp h
    rfl
  | callDeferred origin suspension =>
    obtain ⟨_, -, -, -, rfl⟩ := codeCallDeferred_eq_ok.mp h
    rfl
  | scopeClosed executionId =>
    obtain ⟨-, rfl⟩ := scopeClosed_eq_ok.mp h
    rfl

/-! ## Events -/

/-- Whether an event leaves every run as it is. -/
def CoreAgentEvent.sparesRuns : CoreAgentEvent → Bool
  | .run _ | .approval _ | .turn _ | .context _ | .tool _ => false
  | _ => true

theorem mayPrune_of_sparesRuns {event : CoreAgentEvent} (h : event.sparesRuns = true) :
    event.mayPrune = false := by
  cases event <;> first | rfl | cases h

/-- What an event does to the runs and to context: it is about them, or leaves them as they are. -/
inductive EventMoves (s : CoreAgentState) (entry : CoreAgentEntry) (t : CoreAgentState) : Prop
  | run {event : RunEvent} (heq : entry.event = .run event)
      (h : applyRunEvent s entry.seq entry.observedAtMs event = .ok t)
  | approval {event : ApprovalEvent} (heq : entry.event = .approval event)
      (h : applyApprovalEvent s entry.observedAtMs event = .ok t)
  | turn {event : TurnEvent} (heq : entry.event = .turn event) (h : applyTurnEvent s event = .ok t)
  | context {event : ContextEvent} (heq : entry.event = .context event)
      (h : applyContextEvent s event = .ok t)
  | tool {event : ToolEvent} (heq : entry.event = .tool event) (h : applyToolEvent s event = .ok t)
  | rests (hspares : entry.event.sparesRuns = true) (hruns : t.runs = s.runs)
      (hcontext : t.context = s.context)
      (hcursors : t.idCursors = { s.idCursors with lastPromiseId := t.idCursors.lastPromiseId })

theorem applyEventKind_moves (h : applyEventKind s entry = .ok t) : EventMoves s entry t := by
  unfold applyEventKind at h
  split at h
  next event heq =>
    have hspares : entry.event.sparesRuns = true := by rw [heq]; rfl
    rw [applyLifecycleEvent_frame h]
    exact .rests hspares rfl rfl rfl
  next event heq => exact .run heq h
  next event heq => exact .approval heq h
  next event heq => exact .turn heq h
  next event heq => exact .context heq h
  next event heq =>
    have hspares : entry.event.sparesRuns = true := by rw [heq]; rfl
    cases event <;> cases h <;> exact .rests hspares rfl rfl rfl
  next event heq =>
    obtain ⟨-, -, rfl⟩ := toolConfig_eq_ok.mp h
    exact .rests (by rw [heq]; rfl) rfl rfl rfl
  next event heq => exact .tool heq h
  next event heq =>
    have hspares : entry.event.sparesRuns = true := by rw [heq]; rfl
    rw [applyPromiseEvent_frame h]
    exact .rests hspares rfl rfl rfl
  next event heq =>
    obtain ⟨_, rfl, -⟩ := workflowToolConfig_ok h
    exact .rests (by rw [heq]; rfl) rfl rfl rfl
  next event heq =>
    have hspares : entry.event.sparesRuns = true := by rw [heq]; rfl
    rw [applyCodeToolEvent_frame h]
    exact .rests hspares rfl rfl rfl
  next event heq =>
    have hspares : entry.event.sparesRuns = true := by rw [heq]; rfl
    rw [applyWorkflowToolEvent_frame h]
    exact .rests hspares rfl rfl rfl

theorem applyEvent_runs (hevent : entry.event.sparesRuns = true) (h : applyEvent s entry = .ok t) :
    t.runs = s.runs := by
  obtain ⟨-, m, hm, rfl⟩ := applyEvent_eq_ok.mp h
  change m.runs = s.runs
  cases applyEventKind_moves hm with
  | rests hspares hruns hcontext hcursors => exact hruns
  | _ heq => rw [heq] at hevent; cases hevent

end Lightspeed.Harness
