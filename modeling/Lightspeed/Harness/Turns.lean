import Lightspeed.Harness.Tools

/-!
# Turns and approvals

The reducers of `components/turn.rs` and `components/approval.rs`. A run has at most one active turn;
it starts, is planned against the current revisions, asks for one generation, settles and ends with
an outcome. Approvals that a generation or a batch asks for park the run until the last one is
decided.
-/

namespace Lightspeed.Harness

open Lib

/-! ## Turns -/

/-- The run with one of its turns rewritten. -/
def ActiveRun.setTurn (run : ActiveRun) (turnId : TurnId) (turn : TurnState) : ActiveRun :=
  { run with turns := run.turns.insert turnId turn }

/-- `active_turn_mut`: the active run and its active turn, when an event names them. -/
def activeTurn (s : CoreAgentState) (runId : RunId) (turnId : TurnId) :
    Result (ActiveRun × TurnState) := do
  let run ← activeRunRef s runId
  require (run.activeTurnId = some turnId) (violation "event turn id does not match active turn")
  let turn ← orError (run.turns.get? turnId) (violation s!"active turn {turnId} is missing")
  .ok (run, turn)

/-- The status of a turn that ends with an outcome. -/
def TurnOutcome.status : TurnOutcome → TurnStatus
  | .finalOutput _ | .toolCallsQueued | .contextLimit _ | .approvalsRequested => .completed
  | .failed _ | .rejected _ => .failed
  | .cancelled => .cancelled

/-- What a generation that succeeded leaves in context: the model it ran on, and how many tokens the
context then held. -/
def recordGeneration (s : CoreAgentState) (run : ActiveRun) (config : SessionConfig)
    (facts : LlmGenerationFacts) : CoreAgentState :=
  s.setContext { s.context with
    lastGeneration := some
      { model := run.runConfig.modelOverride.getD config.model
        inputLimitTokens := compactionInputLimitTokens s }
    usageObservation := facts.contextTokenEstimate.map fun estimate =>
      { contextRevision := s.context.revision
        tokens := saturatingAdd32 estimate.tokens facts.outputTokens } }

/-- The run with a generation's usage added. -/
def ActiveRun.chargeUsage (run : ActiveRun) (usage : Option LlmUsage) : ActiveRun :=
  { run with
    usage := match usage with
      | some usage => some (accumulateUsage run.usage usage)
      | none => run.usage }

/-- The run whose turn's generation has settled: a success that did not overflow also ends a streak of
recovery attempts. -/
def ActiveRun.settleTurn (run : ActiveRun) (turnId : TurnId) (turn : TurnState)
    (status : LlmGenerationStatus) (facts : LlmGenerationFacts) : ActiveRun :=
  let settled := run.setTurn turnId { turn with
    generationStatus := some status, facts := some facts, status := .generationSettled }
  if status = .succeeded ∧ facts.finish ≠ .contextLimit then
    { settled with contextRecovery := { run.contextRecovery with attempts := 0 } }
  else settled

/-- `GenerationCompleted`. The source takes the configuration of an open session for granted. -/
def completeGeneration (s : CoreAgentState) (runId : RunId) (turnId : TurnId)
    (status : LlmGenerationStatus) (facts : LlmGenerationFacts) : Result CoreAgentState := do
  let (run, turn) ← activeTurn s runId turnId
  require (turn.status = .generationPending)
    (violation "generation can only complete from pending state")
  require (turn.facts.isNone ∧ turn.generationStatus.isNone)
    (violation "turn already has a generation result")
  let run := run.settleTurn turnId turn status facts
  let settled := s.setActive run
  if status = .succeeded then do
    let config ← orError s.lifecycle.config (violation "open config")
    .ok ((recordGeneration settled run config facts).setActive (run.chargeUsage facts.usage))
  else .ok (settled.setActive (run.chargeUsage facts.usage))

/-- `apply_event` of `components/turn.rs`. -/
def applyTurnEvent (s : CoreAgentState) : TurnEvent → Result CoreAgentState
  | .started turnId runId => do
    let expected := s.idCursors.lastTurnId + 1
    require (turnId = expected) (violation s!"expected turn id {expected}, got {turnId}")
    let run ← activeRunRef s runId
    require (run.status = .running) (violation "turns can only start for running runs")
    require run.activeTurnId.isNone (violation "cannot start turn while another turn is active")
    let started := { run.setTurn turnId { turnId, runId, status := .started } with
      turnCount := saturatingAdd32 run.turnCount 1
      activeTurnId := some turnId }
    .ok { s.setActive started with idCursors := { s.idCursors with lastTurnId := turnId } }
  | .planned turnId runId requestFingerprint configRevision contextRevision toolsetRevision => do
    let activeConfig := s.lifecycle.configRevision
    let activeContext := s.context.revision
    let activeTools := s.tooling.revision
    require (configRevision = activeConfig)
      (violation (s!"planned request config revision {configRevision} does not match active " ++
        s!"revision {activeConfig}"))
    require (contextRevision = activeContext)
      (violation (s!"planned request context revision {contextRevision} does not match active " ++
        s!"revision {activeContext}"))
    require (toolsetRevision = activeTools)
      (violation (s!"planned request toolset revision {toolsetRevision} does not match active " ++
        s!"revision {activeTools}"))
    let s ← markCurrentContextConsumedByTurn s runId turnId
    let (run, turn) ← activeTurn s runId turnId
    require (turn.status = .started) (violation "turn can only be planned from started state")
    require turn.plannedRequest.isNone (violation "turn already has planned request metadata")
    .ok (s.setActive (run.setTurn turnId { turn with
      plannedRequest := some
        { requestFingerprint, configRevision, contextRevision, toolsetRevision }
      status := .planned }))
  | .generationRequested turnId runId => do
    let (run, turn) ← activeTurn s runId turnId
    require (turn.status = .planned)
      (violation "generation can only be requested for planned turns")
    require turn.plannedRequest.isSome
      (violation "generation request requires planned turn metadata")
    .ok (s.setActive (run.setTurn turnId { turn with status := .generationPending }))
  | .generationCompleted turnId runId status facts =>
    completeGeneration s runId turnId status facts
  | .completed turnId outcome => do
    let run ← orError s.runs.active (violation "no active run")
    require (run.activeTurnId = some turnId)
      (violation "completed turn does not match active turn")
    let turn ← orError (run.turns.get? turnId) (violation s!"active turn {turnId} is missing")
    require (turn.status = .generationSettled)
      (violation "turn completion requires settled generation")
    let ended := run.setTurn turnId { turn with outcome := some outcome, status := outcome.status }
    .ok (s.setActive (pruneSettledRunRecords { ended with activeTurnId := none }))
  | .cancelled turnId runId => do
    let run ← activeRunRef s runId
    require (run.status = .cancelling)
      (violation "turns can only be cancelled while their run is cancelling")
    require (run.activeTurnId = some turnId)
      (violation "cancelled turn does not match active turn")
    let turn ← orError (run.turns.get? turnId) (violation s!"active turn {turnId} is missing")
    require (turn.status = .started ∨ turn.status = .planned ∨ turn.status = .generationPending)
      (violation "only started, planned, or generation-pending turns can be cancelled")
    .ok (s.setActive { run.setTurn turnId
        { turn with outcome := some .cancelled, status := .cancelled } with
      activeTurnId := none })

/-! ## Approvals -/

/-- Whether an approval waits inside a batch. -/
def ApprovalContinuation.isRuntimeMcp : ApprovalContinuation → Bool
  | .runtimeMcp _ _ => true
  | .providerMcp _ => false

/-- The pending record of a decision or a cancellation. -/
def pendingRecord (run : ActiveRun) (runId : RunId) (approvalId : ApprovalId) :
    Result ApprovalRecord := do
  let record ← orError (run.approvals.get? approvalId)
    (violation s!"unknown approval {approvalId}")
  require (record.request.runId = runId ∧ record.status = .pending)
    (violation s!"approval {approvalId} is not pending for run {runId}")
  .ok record

/-- The status that a decision gives. -/
def ApprovalDecision.status : ApprovalDecision → ApprovalStatus
  | .approved => .approved
  | .rejected => .rejected

/-- `apply_approval_event`. -/
def applyApprovalEvent (s : CoreAgentState) (observedAtMs : Nat) :
    ApprovalEvent → Result CoreAgentState
  | .requested approval => do
    let id := approval.approvalId
    let number := s.idCursors.lastApprovalId + 1
    let expected := approvalId number
    require (id = expected) (violation s!"expected approval id {expected}, got {id}")
    let run ← orError s.runs.active (violation "approval request requires an active run")
    require (run.runId = approval.runId ∧ run.status = .running)
      (violation "approval request does not match the active run")
    require (¬ run.approvals.values.any
        (fun record => record.request.continuation == approval.continuation))
      (violation "duplicate approval continuation")
    .ok { s.setActive { run with
        approvals := run.approvals.insert id
          { request := approval, requestedAtMs := observedAtMs, status := .pending } } with
      idCursors := { s.idCursors with lastApprovalId := number } }
  | .runParked runId => do
    let run ← activeRunRef s runId
    require (run.pendingApprovals ≠ []) (violation "run cannot park without pending approvals")
    let runtimeBatchApproval := run.activeToolBatchId.isSome &&
      run.pendingApprovals.all (fun record => record.request.continuation.isRuntimeMcp)
    require (run.status = .running ∧ run.activeTurnId.isNone ∧
        (run.activeToolBatchId.isNone ∨ runtimeBatchApproval))
      (violation "approval parking requires an idle active run")
    .ok (s.setActive { run with status := .parked })
  | .runUnparked runId => do
    let run ← activeRunRef s runId
    require (run.status = .parked) (violation "only a parked run can unpark")
    .ok (s.setActive { run with status := .running })
  | .decided approvalId runId decision note => do
    let run ← activeRunRef s runId
    let record ← pendingRecord run runId approvalId
    .ok (s.setActive { run with
      approvals := run.approvals.insert approvalId { record with status := decision.status, note } })
  | .cancelled approvalId runId => do
    let run ← activeRunRef s runId
    let record ← pendingRecord run runId approvalId
    .ok (s.setActive { run with
      approvals := run.approvals.insert approvalId { record with status := .cancelled } })

end Lightspeed.Harness
