import Lightspeed.Session.Append

/-!
# Admissions

`admissions.rs` and `preparation.rs`: what clients and the workflow itself ask of the session, admitted
against the live state. A new run is prepared first, and an operation is prepared on a copy of the state
and appended as a whole. Controls land while an observation is out; other admissions wait for it.
-/

namespace Lightspeed.Session

open Lib Harness

/-! ## What may land now -/

/-- `admissible_during_turn`, of a command. -/
def admissibleDuringTurn : CoreAgentCommand → Bool
  | .compactContext | .cancelRun _ | .forceCancelRun _ | .requestRunSteering _ _ _ | .decideApproval _
  | .requestRun _ | .resolvePromise _ _ | .failWorkflowToolDelivery _ _ | .failWorkflowToolStart _ _
  | .unparkToolBatch _ | .closeSession _ => true
  | _ => false

/-- `SessionAdmission::admissible_during_turn`. -/
def SessionAdmission.admissibleDuringTurn : SessionAdmission → Bool
  | .core command => Session.admissibleDuringTurn command
  | .operation _ | .preparedRun _ _ => true

/-- Whether a command asks for a run. -/
def requestsRun : CoreAgentCommand → Bool
  | .requestRun _ => true
  | _ => false

/-- `control_admission`. -/
def controlAdmission (admission : SessionAdmission) : Bool :=
  admission.command?.any fun command => admissibleDuringTurn command && !requestsRun command

/-- `admission_can_pass_preparation`. -/
def admissionCanPassPreparation (admission : SessionAdmission) : Bool := controlAdmission admission

/-- `admissible_during_compaction`. -/
def admissibleDuringCompaction (admission : SessionAdmission) : Bool :=
  admission.command?.any fun
    | .cancelRun _ | .forceCancelRun _ | .closeSession true => true
    | _ => false

/-- `turn_in_flight`. -/
def turnInFlight (core : CoreAgentState) : Bool :=
  core.runs.active.any fun run => run.activeTurnId.isSome

/-- `has_admissible_admissions`. -/
def hasAdmissibleAdmissions (s : AgentSessionWorkflow) : Bool :=
  if s.coreState.context.compaction.isPending then s.pendingAdmissions.any admissibleDuringCompaction
  else if s.runPreparation.isSome then s.pendingAdmissions.any admissionCanPassPreparation
  else if ¬ turnInFlight s.coreState then !s.pendingAdmissions.isEmpty
  else s.pendingAdmissions.any SessionAdmission.admissibleDuringTurn

/-- The pending admissions that meet a condition, taken out of the queue. -/
def AgentSessionWorkflow.takeAdmissions (s : AgentSessionWorkflow) (p : SessionAdmission → Bool) :
    List SessionAdmission × AgentSessionWorkflow :=
  (s.pendingAdmissions.filter p,
    { s with pendingAdmissions := s.pendingAdmissions.filter fun admission => !p admission })

/-- What `drain_pending_admissions` takes. -/
def AgentSessionWorkflow.takeAdmissible (s : AgentSessionWorkflow) :
    List SessionAdmission × AgentSessionWorkflow :=
  if s.coreState.context.compaction.isPending then s.takeAdmissions admissibleDuringCompaction
  else if s.runPreparation.isSome then s.takeAdmissions admissionCanPassPreparation
  else if ¬ turnInFlight s.coreState then (s.pendingAdmissions, { s with pendingAdmissions := [] })
  else s.takeAdmissions SessionAdmission.admissibleDuringTurn

/-! ## Observations -/

/-- The admission of a control that landed during an observation. -/
def admitControl (args : AgentSessionArgs) (admission : SessionAdmission) : SessionProgram Unit := do
  match admission with
  | .core command => do
    let _ ← admitAndAppendCommand args command
  | _ => pure ()

/-- `await_activity`: an error of a control, and the end of the session, end the observation. -/
def awaitActivity (args : AgentSessionArgs) (observation : Observation) :
    SessionProgram (Option ObservationReply) :=
  .loop (fun (_ : Unit) => do
    match ← ask (.observe observation) with
    | .interrupted =>
      let controls ← takeState (·.takeAdmissions controlAdmission)
      match ← Program.attempt (controls.forM (admitControl args)) with
      | .error _ => pure (.inr none)
      | .ok () =>
        let s ← readState
        if s.coreState.lifecycle.status ≠ .open then pure (.inr none) else pure (.inl ())
    | reply => pure (.inr (some reply))) ()

/-! ## Operations -/

/-- `PreparationCandidate`: a copy of the state with the entries that it took to get there. -/
structure PreparationCandidate where
  state : CoreAgentState
  originalHead : Option EventSeq
  entries : List CoreAgentEntry := []

/-- `PreparationCandidate::new`. -/
def PreparationCandidate.new (core : CoreAgentState) : PreparationCandidate :=
  { state := core, originalHead := core.reducedTo }

/-- `PreparationCandidate::push_command`. -/
def PreparationCandidate.pushCommand (args : AgentSessionArgs) (nowMs : Nat)
    (candidate : PreparationCandidate) (command : CoreAgentCommand) : Option PreparationCandidate :=
  if args.sources.publicationIsObsolete candidate.state command then none
  else
    match proposeEntries args.sessionId candidate.state (nowMs, .admitCommand command) with
    | .error _ => none
    | .ok entries =>
      match entries.foldlM applyEvent candidate.state with
      | .error _ => none
      | .ok state => some { candidate with state, entries := candidate.entries ++ entries }

/-- The loop of `PreparationCandidate::push` over the entries that lost their source. -/
def PreparationCandidate.removeInvalid (args : AgentSessionArgs) (nowMs : Nat)
    (candidate : PreparationCandidate) (invalidKey : CoreAgentState → Option ContextEntryKey) :
    Option PreparationCandidate :=
  match invalidKey candidate.state with
  | none => some candidate
  | some key => candidate.pushCommand args nowMs (.removeContext none key)

/-- `PreparationCandidate::push`. -/
def PreparationCandidate.push (args : AgentSessionArgs) (nowMs : Nat)
    (candidate : PreparationCandidate) (command : CoreAgentCommand) : Option PreparationCandidate := do
  let candidate ← candidate.pushCommand args nowMs command
  args.sources.invalidKeys.foldlM (PreparationCandidate.removeInvalid args nowMs) candidate

/-- `PreparationCandidate::tools`, and the commands of the other observations. -/
def PreparationCandidate.pushPrepared (args : AgentSessionArgs) (nowMs : Nat)
    (candidate : PreparationCandidate) (prepared : SessionToolsetPreparation) :
    Option PreparationCandidate :=
  prepared.commands.foldlM (fun (candidate : PreparationCandidate) command =>
    match command candidate.state with
    | none => some candidate
    | some command => candidate.push args nowMs command) candidate

/-- What an observation adds to a candidate, as long as it is of the session's present sources. -/
def observeInto (args : AgentSessionArgs) (observation : Observation)
    (candidate : PreparationCandidate) :
    SessionProgram (Option (PreparationCandidate × (CoreAgentState → Bool))) := do
  match ← awaitActivity args observation with
  | some (.prepared prepared defaultInstructions) =>
    let s ← readState
    if prepared.isCurrent s.coreState then
      pure ((candidate.pushPrepared args s.nowMs prepared).map (·, defaultInstructions))
    else pure none
  | _ => pure none

/-- The end of `prepare_operation`. -/
def prepareRuntimeProjection (args : AgentSessionArgs) (candidate : PreparationCandidate) :
    SessionProgram (Option PreparationCandidate) := do
  let refreshed ← observeInto args .runtimeProjectionRefresh candidate
  pure (refreshed.map Prod.fst)

/-- `configure`. -/
def configure (args : AgentSessionArgs) (config : SessionConfig) (expectedRevision : Option Nat)
    (candidate : PreparationCandidate) : SessionProgram (Option PreparationCandidate) := do
  match ← observeInto args .prepareSessionToolset candidate with
  | none => pure none
  | some (candidate, _) =>
    let s ← readState
    pure (candidate.push args s.nowMs (.replaceSessionConfig expectedRevision config))

/-- `apply_profile`: default instructions are put where the profile leaves none. -/
def applyProfile (args : AgentSessionArgs) (candidate : PreparationCandidate) :
    SessionProgram (Option PreparationCandidate) := do
  match ← observeInto args .prepareSessionProfile candidate with
  | none => pure none
  | some (candidate, defaultInstructions) =>
    if defaultInstructions candidate.state then
      let put ← observeInto args .putDefaultInstructions candidate
      pure (put.map Prod.fst)
    else pure (some candidate)

/-- Whether an expected revision, when there is one, is not the actual one. -/
def revisionMoved (expected : Option Nat) (actual : Nat) : Bool :=
  expected.any (fun expected => expected != actual)

/-- Whether a session has a run to do. -/
def CoreAgentState.isBusy (core : CoreAgentState) : Bool :=
  core.runs.active.isSome || !core.runs.queued.isEmpty

/-- Whether `prepare_operation` takes an operation up in a state. -/
def operationFits (core : CoreAgentState) : SessionOperation → Bool
  | .refreshContext => true
  | .configure _ expectedRevision => !revisionMoved expectedRevision core.lifecycle.configRevision
  | .applyProfile expectedConfigRevision expectedToolsRevision =>
    !revisionMoved expectedConfigRevision core.lifecycle.configRevision &&
      !revisionMoved expectedToolsRevision core.tooling.revision

/-- Whether an operation only refreshes context. -/
def SessionOperation.isRefresh : SessionOperation → Bool
  | .refreshContext => true
  | _ => false

/-- The candidate that an operation starts the projection from. -/
def prepareCandidate (args : AgentSessionArgs) (operation : SessionOperation)
    (candidate : PreparationCandidate) : SessionProgram (Option PreparationCandidate) :=
  match operation with
  | .configure config expectedRevision => configure args config expectedRevision candidate
  | .applyProfile _ _ => applyProfile args candidate
  | .refreshContext => pure (some candidate)

/-- `prepare_operation`. -/
def prepareOperation (args : AgentSessionArgs) (operation : SessionOperation) :
    SessionProgram (Option PreparationCandidate) := do
  let s ← readState
  let core := s.coreState
  let candidate := PreparationCandidate.new core
  if core.lifecycle.status ≠ .open then pure none
  else if operation.isRefresh ∧ CoreAgentState.isBusy core then pure (some candidate)
  else if CoreAgentState.isBusy core ∨ core.context.compaction.isPending ∨
      ¬ operationFits core operation then pure none
  else
    match ← prepareCandidate args operation candidate with
    | none => pure none
    | some candidate => prepareRuntimeProjection args candidate

/-- `execute_operation`: whether the operation was carried out. -/
def executeOperation (args : AgentSessionArgs) (operation : SessionOperation) :
    SessionProgram Bool := do
  match ← prepareOperation args operation with
  | none => pure false
  | some candidate =>
    let s ← readState
    if s.coreState.reducedTo ≠ candidate.originalHead then pure false
    else
      match ← Program.attempt (appendEvents args candidate.entries) with
      | .ok () => pure true
      | .error .refused => pure false
      | .error .fatal => raise .fatal

/-- `process_operation`. -/
def processOperation (args : AgentSessionArgs) (request : SessionOperationRequest) :
    SessionProgram Unit := do
  let s ← readState
  if request.receipt ∈ s.operationReceipts then pure ()
  else
    if s.ready then
      let _ ← executeOperation args request.operation
    changeState fun s => { s with operationReceipts := s.operationReceipts ++ [request.receipt] }

/-- `prepare_initial_session`. -/
def prepareInitialSession (args : AgentSessionArgs) : SessionProgram Unit := do
  let s ← readState
  if s.ready ∨ ¬ s.setupRequested then pure ()
  else
    changeState fun s => { s with setupRequested := false }
    match s.coreState.lifecycle.config with
    | none => raise .fatal
    | some config =>
      let done ← executeOperation args
        (if args.hasProfile then .applyProfile none none else .configure config none)
      if done then changeState fun s => { s with ready := true } else pure ()

/-! ## Runs -/

/-- `known_submission`. -/
def knownSubmission (core : CoreAgentState) : CoreAgentCommand → Bool
  | .requestRun request =>
    request.submissionId.any fun id =>
      core.runs.active.any (fun run => run.submissionId == some id) ||
        core.runs.queued.any (fun run => run.submissionId == some id) ||
        core.runs.finished.any (fun run => run.submissionId == some id)
  | _ => false

/-- `take_input_capacity`. -/
def takeInputCapacity (prepared : SessionToolsetPreparation) : CoreAgentCommand → CoreAgentCommand
  | .requestRun request => .requestRun { request with inputLimitTokens := prepared.inputLimitTokens }
  | command => command

/-- The commands of an observation, one after the other until one fails. -/
def publishCommands (args : AgentSessionArgs) :
    List (CoreAgentState → Option CoreAgentCommand) → SessionProgram Bool
  | [] => pure true
  | command :: rest => do
    let s ← readState
    match command s.coreState with
    | none => publishCommands args rest
    | some command =>
      match ← Program.attempt (admitAndAppendCommand args command) with
      | .ok .accepted => publishCommands args rest
      | _ => pure false

/-- `publish_tools`. -/
def publishTools (args : AgentSessionArgs) (prepared : SessionToolsetPreparation) :
    SessionProgram Bool := do
  let s ← readState
  if toolsFrozen s.coreState ∨ ¬ prepared.isCurrent s.coreState then pure false
  else publishCommands args prepared.commands

/-- `refresh_runtime_projection_before_run`. -/
def refreshRuntimeProjectionBeforeRun (args : AgentSessionArgs) : SessionProgram Bool := do
  match ← awaitActivity args .runtimeProjectionRefresh with
  | some (.prepared prepared _) => publishCommands args prepared.commands
  | _ => pure false

/-- The tools of a prepared run, published unless they are frozen. -/
def publishBeforeRun (args : AgentSessionArgs) (prepared : SessionToolsetPreparation) :
    SessionProgram Bool := do
  let s ← readState
  if toolsFrozen s.coreState then pure true else publishTools args prepared

/-- `should_refresh_runtime_projection_before_admitting`, and the refresh. -/
def refreshBeforeRun (args : AgentSessionArgs) : SessionProgram Bool := do
  let s ← readState
  if CoreAgentState.isBusy s.coreState then pure true else refreshRuntimeProjectionBeforeRun args

/-- What has to be there before a prepared run is admitted: its tools, published now or as soon as they
are no longer frozen, and the runtime's projection. -/
def prepareRun (args : AgentSessionArgs) (prepared : SessionToolsetPreparation) :
    SessionProgram (Option (Option SessionToolsetPreparation)) := do
  let s ← readState
  if ¬ prepared.isCurrent s.coreState then pure none
  else
    let deferred := if toolsFrozen s.coreState then some prepared else none
    if ← publishBeforeRun args prepared then
      let refreshed ← refreshBeforeRun args
      pure (if refreshed then some deferred else none)
    else pure none

/-- The admission of a command, with the tools that wait for the run it asks for. -/
def admitPrepared (args : AgentSessionArgs) (command : CoreAgentCommand)
    (deferred : Option SessionToolsetPreparation) : SessionProgram Unit := do
  match ← admitAndAppendCommand args command with
  | .rejected => pure ()
  | .accepted =>
    match deferred with
    | none => pure ()
    | some prepared =>
      let s ← readState
      match s.coreState.runs.queued.getLast? with
      | none => raise .fatal
      | some run =>
        changeState fun s =>
          { s with pendingToolsets := s.pendingToolsets ++ [⟨prepared, run.runId⟩] }

/-- `admit_admissions`, at one command: whether it went to preparation instead. -/
def admitCommandOrPrepare (args : AgentSessionArgs) (command : CoreAgentCommand)
    (observed : Option SessionToolsetPreparation) : SessionProgram Bool := do
  let s ← readState
  if s.coreState.lifecycle.status = .open ∧ requestsRun command ∧
      ¬ knownSubmission s.coreState command then
    if ¬ s.ready then pure false
    else
      match observed with
      | none =>
        changeState fun s => { s with runPreparation := some command }
        pure true
      | some prepared =>
        match ← prepareRun args prepared with
        | none => pure false
        | some deferred =>
          admitPrepared args command deferred
          pure false
  else
    admitPrepared args command none
    pure false

/-- `admit_admissions`, at one admission: whether it went to preparation. -/
def admitOne (args : AgentSessionArgs) : SessionAdmission → SessionProgram Bool
  | .operation request => do
    processOperation args request
    pure false
  | .core command => admitCommandOrPrepare args command none
  | .preparedRun _ none => pure false
  | .preparedRun command (some prepared) =>
    admitCommandOrPrepare args (takeInputCapacity prepared command) (some prepared)

/-- `admit_admissions`: a run that goes to preparation leaves the rest in the queue. -/
def admitAdmissions (args : AgentSessionArgs) : List SessionAdmission → SessionProgram Unit
  | [] => pure ()
  | admission :: rest => do
    if ← admitOne args admission then
      changeState fun s => { s with pendingAdmissions := rest ++ s.pendingAdmissions }
    else admitAdmissions args rest

/-- `drain_pending_admissions`. -/
def drainPendingAdmissions (args : AgentSessionArgs) : SessionProgram Bool := do
  let admissions ← takeState AgentSessionWorkflow.takeAdmissible
  if admissions.isEmpty then pure false
  else
    admitAdmissions args admissions
    changeState fun s => { s with executionHasRolloverCheckpoint := true }
    pure true

end Lightspeed.Session
