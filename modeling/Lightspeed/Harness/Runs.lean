import Lightspeed.Harness.Turns
import Lightspeed.Harness.Submission

/-!
# Runs, the session, and the reducer

The reducers of `components/run.rs`, `components/lifecycle.rs` and `components/environment.rs`, and
`apply_event` of `apply.rs`, which sends an entry of the log to its component. A run is accepted into
the queue, starts when the slot is free, and leaves one record when it ends.
-/

namespace Lightspeed.Harness

open Lib

def maxRetainedTerminalRuns : Nat := 256

/-! ## Configuration that the log records -/

/-- `current_config` of `components/config.rs`. -/
def currentConfig (s : CoreAgentState) : Result SessionConfig :=
  orError s.lifecycle.config (violation "open session is missing config")

/-- `validate_session_provider_is_pinned`. -/
def validateSessionProviderIsPinned (pinned proposed : ModelSelection) : Result Unit := do
  let pinnedId := pinned.providerId
  let proposedId := proposed.providerId
  let pinnedKind := pinned.apiKind.debug
  let proposedKind := proposed.apiKind.debug
  require (proposedId = pinnedId)
    (.providerCompatibility (s!"session provider is pinned to {pinnedId}, got {proposedId}; " ++
      "create a new session for another provider"))
  require (proposed.apiKind = pinned.apiKind)
    (.providerCompatibility
      s!"session provider api kind is pinned to {pinnedKind}, got {proposedKind}")

/-- `validate_recorded_run_config`. -/
def validateRecordedRunConfig (s : CoreAgentState) (runConfig : RunConfig) : Result Unit := do
  let config ← currentConfig s
  match runConfig.modelOverride with
  | some model => validateSessionProviderIsPinned config.model model
  | none => .ok ()

/-- `validate_session_is_idle_for_config_update`. -/
def validateSessionIsIdleForConfigUpdate (s : CoreAgentState) : Result Unit :=
  require (s.runs.active.isNone ∧ s.runs.queued = [])
    (violation "session config can only change while no run is active or queued")

/-- `validate_recorded_config_update`. -/
def validateRecordedConfigUpdate (s : CoreAgentState) (config : SessionConfig) :
    Result Unit := do
  let current ← currentConfig s
  validateSessionIsIdleForConfigUpdate s
  validateSessionProviderIsPinned current.model config.model

/-! ## Runs -/

/-- The state with other runs. -/
def CoreAgentState.setRuns (s : CoreAgentState) (runs : RunsState) : CoreAgentState :=
  { s with runs := runs }

/-- `prune_terminal_run_records`: the oldest records go once there are more than the cap, and the
greatest id that went is kept. -/
def pruneTerminalRunRecords (runs : RunsState) : RunsState :=
  let excess := runs.finished.length - maxRetainedTerminalRuns
  { runs with
    finished := runs.finished.drop excess
    prunedThrough :=
      ((runs.finished.take excess).map (fun run => run.runId) ++ runs.prunedThrough.toList).max? }

/-- The outcome of a run, as its terminal event states it. -/
structure RunOutcome where
  status : RunStatus
  output : Option ContentRef := none
  failure : Option RunFailure := none

/-- The record of a run that leaves the active slot. -/
def ActiveRun.terminalRecord (run : ActiveRun) (outcome : RunOutcome) (terminalSeq : EventSeq)
    (finishedAtMs : Nat) : RunRecord where
  runId := run.runId
  status := outcome.status
  submissionId := run.submissionId
  submissionDigest := requestRunSubmissionDigest run.source run.runConfig run.notifyOnTerminal
  source := compactTerminalSource run.source
  firstSeq := run.firstSeq
  terminalSeq := terminalSeq
  acceptedAtMs := run.acceptedAtMs
  startedAtMs := run.startedAtMs
  finishedAtMs := finishedAtMs
  usage := run.usage
  output := outcome.output
  failure := outcome.failure
  notifyOnTerminal := run.notifyOnTerminal

/-- The record of a run that is cancelled in the queue. -/
def AcceptedRun.cancelledRecord (run : AcceptedRun) (terminalSeq : EventSeq)
    (finishedAtMs : Nat) : RunRecord where
  runId := run.runId
  status := .cancelled
  submissionId := run.submissionId
  submissionDigest := requestRunSubmissionDigest run.source run.runConfig run.notifyOnTerminal
  source := compactTerminalSource run.source
  firstSeq := run.firstSeq
  terminalSeq := terminalSeq
  acceptedAtMs := run.acceptedAtMs
  startedAtMs := none
  finishedAtMs := finishedAtMs
  usage := none
  output := none
  failure := none
  notifyOnTerminal := run.notifyOnTerminal

/-- `finish_active_run`. -/
def finishActiveRun (s : CoreAgentState) (runId : RunId) (outcome : RunOutcome)
    (terminalSeq : EventSeq) (finishedAtMs : Nat) : Result CoreAgentState := do
  let run ← activeRunRef s runId
  let interrupted := interruptCodeToolsForRun s runId
  let record := run.terminalRecord outcome terminalSeq finishedAtMs
  .ok (pruneFinishedWork (interrupted.setRuns (pruneTerminalRunRecords
    { s.runs with active := none, finished := s.runs.finished ++ [record] })))

/-- The queued run of an `Accepted` event. -/
def AcceptedRunEvent.queue (accepted : AcceptedRunEvent) (seq : EventSeq) (observedAtMs : Nat) :
    AcceptedRun where
  runId := accepted.runId
  submissionId := accepted.submissionId
  source := accepted.source
  runConfig := accepted.runConfig
  inputLimitTokens := accepted.inputLimitTokens
  configRevision := accepted.configRevision
  firstSeq := seq
  acceptedAtMs := observedAtMs
  notifyOnTerminal := accepted.notifyOnTerminal

/-- The active run that a queued run becomes. -/
def AcceptedRun.start (queued : AcceptedRun) (observedAtMs : Nat) : ActiveRun where
  runId := queued.runId
  status := .running
  submissionId := queued.submissionId
  source := queued.source
  runConfig := queued.runConfig
  inputLimitTokens := queued.inputLimitTokens
  configRevision := queued.configRevision
  firstSeq := queued.firstSeq
  acceptedAtMs := queued.acceptedAtMs
  startedAtMs := some observedAtMs
  notifyOnTerminal := queued.notifyOnTerminal

/-- Whether a run takes steering and can be cancelled. -/
def RunStatus.acceptsInput : RunStatus → Bool
  | .running | .parked => true
  | _ => false

/-- `apply_event` of `components/run.rs`. -/
def applyRunEvent (s : CoreAgentState) (seq : EventSeq) (observedAtMs : Nat) :
    RunEvent → Result CoreAgentState
  | .accepted accepted => do
    let runId := accepted.runId
    let revision := accepted.configRevision
    let sessionRevision := s.lifecycle.configRevision
    let expected := s.idCursors.lastRunId + 1
    require (s.lifecycle.status = .open)
      (violation "runs can only be accepted while session is open")
    require (revision = sessionRevision)
      (violation (s!"accepted run config revision {revision} does not match session " ++
        s!"revision {sessionRevision}"))
    validateRecordedRunConfig s accepted.runConfig
    require (runId = expected) (violation s!"expected run id {expected}, got {runId}")
    .ok { s.setRuns { s.runs with
        queued := s.runs.queued ++ [accepted.queue seq observedAtMs] } with
      idCursors := { s.idCursors with lastRunId := runId } }
  | .started runId => do
    require (s.lifecycle.status = .open) (violation "runs can only start while session is open")
    require s.runs.active.isNone (violation "cannot start run while another run is active")
    let queued ← orError s.runs.queued.head? (violation "cannot start run without queued work")
    require (queued.runId = runId) (violation "started run does not match first queued run")
    .ok (s.setRuns { s.runs with
      queued := s.runs.queued.tail
      active := some (queued.start observedAtMs) })
  | .steeringAccepted runId steeringId submissionId input => do
    let expected := s.idCursors.lastSteeringId + 1
    require (steeringId = expected)
      (violation s!"expected steering id {expected}, got {steeringId}")
    let run ← activeRunRef s runId
    require run.status.acceptsInput
      (violation "steering can only be added to active or parked runs")
    .ok { s.setActive { run with
        steering := run.steering ++ [{ steeringId, submissionId, input }] } with
      idCursors := { s.idCursors with lastSteeringId := steeringId } }
  | .cancellationRequested runId => do
    let run ← activeRunRef s runId
    require run.status.acceptsInput
      (violation "only active or parked runs can request cancellation")
    .ok (s.setActive { run with status := .cancelling })
  | .completed runId output =>
    finishActiveRun s runId { status := .completed, output } seq observedAtMs
  | .failed runId failure =>
    finishActiveRun s runId { status := .failed, failure := some failure } seq observedAtMs
  | .cancelled runId => do
    let run ← orError s.runs.active (violation "no active run")
    require (run.status = .cancelling) (violation "only cancelling runs can become cancelled")
    require (run.activeTurnId.isNone ∧ run.activeToolBatchId.isNone)
      (violation "cancellation requires drained active work")
    finishActiveRun s runId { status := .cancelled } seq observedAtMs
  | .forceCancelled runId => do
    let run ← orError s.runs.active (violation "no active run")
    require (run.status = .running ∨ run.status = .parked ∨ run.status = .cancelling)
      (violation "only non-terminal runs can be force-cancelled")
    finishActiveRun s runId { status := .cancelled } seq observedAtMs
  | .queuedCancelled runId => do
    let queued ← orError (s.runs.queued.find? (fun run => run.runId == runId))
      (violation s!"queued run {runId} not found")
    .ok (s.setRuns (pruneTerminalRunRecords { s.runs with
      queued := s.runs.queued.eraseP (fun run => run.runId == runId)
      finished := s.runs.finished ++ [queued.cancelledRecord seq observedAtMs] }))

/-! ## The session -/

/-- `apply_event` of `components/lifecycle.rs`. -/
def applyLifecycleEvent (s : CoreAgentState) : LifecycleEvent → Result CoreAgentState
  | .opened config => do
    require (s.lifecycle.status = .new) (violation "session can only be opened from new state")
    .ok { s with lifecycle := { status := .open, config := some config, configRevision := 0 } }
  | .configChanged config revision => do
    require (s.lifecycle.status = .open) (violation "session config can only change while open")
    let expected := s.lifecycle.configRevision + 1
    require (revision = expected)
      (violation s!"expected config revision {expected}, got {revision}")
    validateRecordedConfigUpdate s config
    .ok { s with
      lifecycle := { s.lifecycle with config := some config, configRevision := revision } }
  | .closed => do
    require (s.lifecycle.status = .open) (violation "only open sessions can be closed")
    require (s.runs.active.isNone ∧ s.runs.queued = [] ∧
        ¬ s.promises.pending.any (fun promise => promise.scope == .session))
      (violation "session cannot close with active work")
    .ok { s with lifecycle := { s.lifecycle with status := .closed } }

/-- `apply_event` of `components/environment.rs`. -/
def applyEnvironmentEvent (s : CoreAgentState) : EnvironmentEvent → CoreAgentState
  | .activeEnvironmentSet environmentId =>
    { s with environment := { activeEnvironmentId := some environmentId } }
  | .activeEnvironmentCleared => { s with environment := { activeEnvironmentId := none } }

/-! ## The reducer -/

/-- `apply_event_kind`. -/
def applyEventKind (s : CoreAgentState) (entry : CoreAgentEntry) : Result CoreAgentState :=
  match entry.event with
  | .lifecycle event => applyLifecycleEvent s event
  | .run event => applyRunEvent s entry.seq entry.observedAtMs event
  | .approval event => applyApprovalEvent s entry.observedAtMs event
  | .turn event => applyTurnEvent s event
  | .context event => applyContextEvent s event
  | .environment event => .ok (applyEnvironmentEvent s event)
  | .toolConfig event => applyToolConfigEvent s event
  | .tool event => applyToolEvent s event
  | .promise event => applyPromiseEvent s event
  | .workflowToolConfig event => applyWorkflowToolConfigEvent s event
  | .codeTool event => applyCodeToolEvent s event
  | .workflowTool event => applyWorkflowToolEvent s event

/-- The sequence number of the next entry. -/
def CoreAgentState.nextSeq (s : CoreAgentState) : EventSeq := s.reducedTo.elim 1 (· + 1)

/-- `validate_next_position`. -/
def validateNextPosition (s : CoreAgentState) (entry : CoreAgentEntry) : Result Unit :=
  let expected := s.nextSeq
  let observed := entry.seq
  require (observed = expected)
    (.eventOrdering s!"expected session event seq {expected}, got {observed}")

/-- `apply_event` of `apply.rs`. -/
def applyEvent (s : CoreAgentState) (entry : CoreAgentEntry) : Result CoreAgentState := do
  validateNextPosition s entry
  let s ← applyEventKind s entry
  .ok { s with reducedTo := some entry.seq }

end Lightspeed.Harness
