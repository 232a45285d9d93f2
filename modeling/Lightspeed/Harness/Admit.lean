import Lightspeed.Harness.Suspend

/-!
# Command admission

`admit_command` of `admit.rs`: an external command is refused, is a retry that changes nothing, or
becomes a list of events that commits as a whole.
-/

namespace Lightspeed.Harness

open Lib

/-- What admission returns. -/
abbrev Admission (α : Type) := Except CommandError α

/-- `RunRequestCommand` of `components/run.rs`. -/
structure RunRequestCommand where
  submissionId : Option SubmissionId := none
  source : RunSource
  runConfig : RunConfig := {}
  inputLimitTokens : Option Nat := none
  notifyOnTerminal : List RunTerminalNotifyIntent := []

/-- `DecideApprovalCommand` of `components/approval.rs`. -/
structure DecideApprovalCommand where
  runId : RunId
  approvalId : ApprovalId
  decision : ApprovalDecision
  note : Option String := none
  response : Option ContextEntryInput := none

/-- `CoreAgentCommand` of `components/command.rs`. -/
inductive CoreAgentCommand where
  | openSession (config : SessionConfig)
  | openDeclaredSession (config : SessionConfig) (sessionUniverseId : String)
      (workflowTools : DeclaredSessionWorkflowTools)
  | admitSystemWorkflowTool (sessionUniverseId : String) (declaration : WorkflowToolDeclaration)
  | replaceSessionConfig (expectedRevision : Option Nat) (config : SessionConfig)
  | requestRun (request : RunRequestCommand)
  | upsertContext (expectedRevision : Option Nat) (key : ContextEntryKey)
      (entry : ContextEntryInput)
  | replaceContextPrefix (expectedRevision : Option Nat) (keyPrefix : ContextEntryKey)
      (entries : OrdMap ContextEntryKey ContextEntryInput)
  | removeContext (expectedRevision : Option Nat) (key : ContextEntryKey)
  | replaceContextEntries (expectedRevision : Option Nat)
      (entries : OrdMap ContextEntryId ContextEntryInput)
  | compactContext
  | closeSession (force : Bool)
  | requestRunSteering (runId : RunId) (submissionId : SubmissionId)
      (input : List ContextEntryInput)
  | cancelRun (runId : RunId)
  | decideApproval (command : DecideApprovalCommand)
  | resolvePromise (promiseId : PromiseId) (resolution : PromiseResolution)
  | failWorkflowToolDelivery (invocationId : WorkflowToolInvocationId) (errorRef : BlobRef)
  | failWorkflowToolStart (invocationId : WorkflowToolInvocationId) (errorRef : BlobRef)
  | forceCancelRun (runId : RunId)
  | failRun (runId : RunId) (messageRef : BlobRef)
  | unparkToolBatch (command : UnparkToolBatchCommand)
  | replaceTools (expectedRevision : Option Nat) (tools : ToolMap)
  | patchTools (expectedRevision : Option Nat) (patch : ToolPatch)
  | setActiveEnvironment (environmentId : EnvironmentId)
  | clearActiveEnvironment
  | openCodeToolScope (scope : CodeToolScopeSpec)
  | admitCodeToolCall (call : CodeToolCallSpec)
  | completeCodeToolCall (origin : CodeToolOrigin) (result : ToolCallResult)
  | deferCodeToolCall (origin : CodeToolOrigin) (spec : AwaitSpec)
  | resumeCodeToolCall (origin : CodeToolOrigin) (result : ToolCallResult)
      (claimObservedAtMs : Nat)
  | closeCodeToolScope (executionId : String)

/-! ## Rejections -/

/-- `command_rejection_from_domain`. -/
def commandRejectionFromDomain (error : DomainError) : CommandError :=
  match error with
  | .providerCompatibility message => .rejected .providerCompatibility message
  | .invariantViolation message | .eventOrdering message => .rejected .invalid message

/-- A check whose failure is the caller's to correct. -/
def policy {α : Type} (checked : Result α) : Admission α :=
  match checked with
  | .ok a => .ok a
  | .error error => .error (commandRejectionFromDomain error)

/-- A check whose failure is passed on as it is. -/
def domain {α : Type} (checked : Result α) : Admission α :=
  match checked with
  | .ok a => .ok a
  | .error error => .error (.domain error)

/-- `require_open`. -/
def requireOpen (s : CoreAgentState) : Admission Unit :=
  require (s.lifecycle.status = .open) (.rejected .sessionLifecycle "session must be open")

/-- `require_no_pending_compaction`. -/
def requireNoPendingCompaction (s : CoreAgentState) (message : String) : Admission Unit :=
  require (¬ s.context.compaction.isPending) (.rejected .activeWork message)

/-- `require_tools_not_frozen`. -/
def requireToolsNotFrozen (s : CoreAgentState) : Admission Unit :=
  require (¬ toolsFrozen s)
    (.rejected .activeWork
      "tools cannot change between a turn's start and the end of its tool batch")

/-- An expected revision that a command may name. -/
def validateExpectedRevision (what : String) (expected : Option Nat) (actual : Nat) :
    Admission Unit :=
  match expected with
  | none => .ok ()
  | some expected =>
    require (expected = actual)
      (.rejected .revisionConflict s!"expected {what} revision {expected}, got {actual}")

/-! ## Sessions -/

/-- `OpenSession` and the first half of `OpenDeclaredSession`. -/
def openedEvent (s : CoreAgentState) (config : SessionConfig) :
    Admission CoreAgentEventProposal := do
  require (s.lifecycle.status = .new)
    (.rejected .sessionLifecycle "session can only be opened from new state")
  let config := materializeCompactionDefault config
  policy config.validate
  .ok (sessionProposal (.lifecycle (.opened config)))

/-- `AdmitSystemWorkflowTool`. -/
def admitSystemWorkflowTool (s : CoreAgentState) (sessionUniverseId : String)
    (declaration : WorkflowToolDeclaration) : Admission (List CoreAgentEventProposal) := do
  requireOpen s
  let binding ← policy (declaration.toBinding sessionUniverseId)
  let id := binding.definition.workflowToolId
  let name := binding.definition.tool.id
  match s.workflowTools.bindings.get? id with
  | some existing => do
    require (existing = binding ∧ s.workflowTools.systemBindingIds.contains id)
      (.rejected .invalid
        s!"system workflow tool {id} conflicts with an existing immutable binding")
    .ok []
  | none =>
    match s.workflowTools.bindingForToolId name with
    | some existing =>
      let other := existing.definition.workflowToolId
      .error (.rejected .invalid
        s!"system workflow tool {id} name {name} collides with workflow tool {other}")
    | none => .ok [sessionProposal (.workflowToolConfig (.systemBindingAdmitted binding))]

/-- `EnvironmentsFeature::is_attached`. -/
def EnvironmentsFeature.isAttached (feature : EnvironmentsFeature) (id : EnvironmentId) : Bool :=
  feature.environments.any (fun attachment => attachment.environmentId == id)

/-- The default environment of a configuration. -/
def defaultEnvironment (config : SessionConfig) : Option EnvironmentId :=
  config.features.environments.bind fun feature =>
    (feature.environments.find? EnvironmentAttachment.default).map
      EnvironmentAttachment.environmentId

/-- The environment events of a configuration change: one that is no longer attached is cleared, and
a newly named default fills an empty slot. -/
def environmentEvents (s : CoreAgentState) (current config : SessionConfig) :
    List CoreAgentEventProposal :=
  let active := s.environment.activeEnvironmentId
  let clears := active.any fun active =>
    !config.features.environments.any (fun feature => feature.isAttached active)
  let fills := (defaultEnvironment config).filter fun _ =>
    decide (defaultEnvironment config ≠ defaultEnvironment current) && (active.isNone || clears)
  (if clears then [sessionProposal (.environment .activeEnvironmentCleared)] else []) ++
    fills.toList.map (fun id => sessionProposal (.environment (.activeEnvironmentSet id)))

/-- `ReplaceSessionConfig`. -/
def replaceSessionConfig (s : CoreAgentState) (expectedRevision : Option Nat)
    (config : SessionConfig) : Admission (List CoreAgentEventProposal) := do
  requireOpen s
  require (s.runs.active.isNone ∧ s.runs.queued = [] ∧ ¬ s.context.compaction.isPending)
    (.rejected .activeWork
      "session config can only change while no run or compaction is active or queued")
  validateExpectedRevision "config" expectedRevision s.lifecycle.configRevision
  let config := materializeCompactionDefault config
  let current ← domain (currentConfig s)
  policy (validateConfigUpdateForState s config)
  if config = current then .ok []
  else
    .ok (sessionProposal (.lifecycle (.configChanged config (s.lifecycle.configRevision + 1))) ::
      environmentEvents s current config)

/-- `CloseSession`, forced: everything that is open ends first. -/
def forceCloseProposals (s : CoreAgentState) : List CoreAgentEventProposal :=
  (if s.context.compaction.isPending ∨ s.context.compaction.isQueued then
      [compactionAbandonedProposal s] else []) ++
    (match s.runs.active with
      | some run => pendingApprovalCancellations run ++
          [runProposal run.runId (.run (.forceCancelled run.runId))]
      | none => []) ++
    s.runs.queued.map (fun queued => runProposal queued.runId
      (.run (.queuedCancelled queued.runId))) ++
    (s.promises.pending.filter (fun promise => promise.scope == .session)).map
      (fun promise => sessionProposal (.promise (.cancelled promise.promiseId)))

/-- `CloseSession`. -/
def closeSession (s : CoreAgentState) (force : Bool) :
    Admission (List CoreAgentEventProposal) :=
  if force ∧ s.lifecycle.status = .closed then .ok []
  else do
    requireOpen s
    require (force ∨ ¬ (s.runs.active.isSome ∨ s.runs.queued ≠ [] ∨
        s.context.compaction.isPending ∨ s.context.compaction.isQueued ∨
        s.promises.pending.any (fun promise => promise.scope == .session)))
      (.rejected .activeWork "session cannot close with active work")
    .ok ((if force then forceCloseProposals s else []) ++
      [sessionProposal (.lifecycle .closed)])

/-! ## Runs -/

inductive SubmissionMatch where
  | identical
  | different

/-- How a request compares with the run that used its submission id. -/
def SubmissionMatch.of (same : Bool) : SubmissionMatch := if same then .identical else .different

/-- `match_existing_run_submission`. -/
def matchExistingRunSubmission (s : CoreAgentState) (submissionId : SubmissionId)
    (request : RunRequestCommand) : Option SubmissionMatch :=
  ((s.runs.active.filter (fun run => run.submissionId == some submissionId)).map fun run =>
    SubmissionMatch.of (decide (run.source = request.source ∧ run.runConfig = request.runConfig ∧
      run.notifyOnTerminal = request.notifyOnTerminal))).or
  (((s.runs.queued.find? (fun run => run.submissionId == some submissionId)).map fun run =>
    SubmissionMatch.of (decide (run.source = request.source ∧ run.runConfig = request.runConfig ∧
      run.notifyOnTerminal = request.notifyOnTerminal))).or
  ((s.runs.finished.find? (fun run => run.submissionId == some submissionId)).map fun run =>
    SubmissionMatch.of (run.submissionDigest ==
      requestRunSubmissionDigest request.source request.runConfig request.notifyOnTerminal)))

/-- `validate_run_supplied_context_entry`, over a list. -/
def validateRunSuppliedEntries (source : String) (entries : List ContextEntryInput) :
    Result Unit :=
  entries.forM fun entry =>
    let kind := entry.kind.debug
    require (entry.kind = .message .user ∨ entry.kind = .providerOpaque)
      (violation s!"{source} cannot supply context entry kind {kind}")

/-- The acceptance of a run that no earlier submission answers. -/
def acceptRun (s : CoreAgentState) (request : RunRequestCommand) :
    Admission (List CoreAgentEventProposal) := do
  requireOpen s
  requireNoPendingCompaction s "run cannot be requested while context compaction is pending"
  policy (validateRunConfigForState s request.runConfig)
  require (request.inputLimitTokens ≠ some 0)
    (.rejected .invalid "input_limit_tokens must be positive")
  require (request.source.input ≠ [])
    (.rejected .invalid "run input must contain at least one entry")
  policy (validateRunSuppliedEntries "run input" request.source.input)
  let runId := s.idCursors.lastRunId + 1
  .ok [{ joins := { runId := some runId, submissionId := request.submissionId }
         event := .run (.accepted {
           runId
           submissionId := request.submissionId
           source := request.source
           runConfig := request.runConfig
           inputLimitTokens := request.inputLimitTokens
           configRevision := s.lifecycle.configRevision
           notifyOnTerminal := request.notifyOnTerminal }) }]

/-- `RequestRun`. A retried submission is answered before anything else is checked. -/
def requestRun (s : CoreAgentState) (request : RunRequestCommand) :
    Admission (List CoreAgentEventProposal) :=
  match request.submissionId with
  | none => acceptRun s request
  | some submissionId =>
    match matchExistingRunSubmission s submissionId request with
    | some .identical => .ok []
    | some .different =>
      .error (.rejected .duplicateSubmission (s!"submission id {submissionId} was already used " ++
        "by a run with different input, run config, or terminal notification"))
    | none => acceptRun s request

/-- `active_run_for_command`. -/
def activeRunForCommand (s : CoreAgentState) : Admission ActiveRun := do
  let run ← orError s.runs.active
    (.rejected .missingActiveRun "command requires an active run")
  require run.status.acceptsInput
    (.rejected .activeWork "the run is cancelling and accepts no further commands")
  .ok run

/-- `RequestRunSteering`. -/
def requestRunSteering (s : CoreAgentState) (runId : RunId) (submissionId : SubmissionId)
    (input : List ContextEntryInput) : Admission (List CoreAgentEventProposal) := do
  requireOpen s
  let run ← activeRunForCommand s
  require (run.runId = runId)
    (.rejected .unknownReference s!"steering target run {runId} is no longer active")
  match run.steeringForSubmission submissionId with
  | some existing => do
    require (existing.input = input)
      (.rejected .duplicateSubmission
        s!"submission id {submissionId} was already used with different steering input")
    .ok []
  | none => do
    policy (validateRunSuppliedEntries "run steering" input)
    .ok [runProposal run.runId (.run (.steeringAccepted run.runId (s.idCursors.lastSteeringId + 1)
      submissionId input))]

/-- `CancelRun`. -/
def cancelRun (s : CoreAgentState) (runId : RunId) : Admission (List CoreAgentEventProposal) := do
  requireOpen s
  match s.runs.active.filter (fun run => run.runId == runId) with
  | some run =>
    if run.status.acceptsInput then
      .ok (runProposal run.runId (.run (.cancellationRequested run.runId)) ::
        pendingApprovalCancellations run)
    else .ok []
  | none =>
    if s.runs.queued.any (fun queued => queued.runId == runId) then
      .ok [runProposal runId (.run (.queuedCancelled runId))]
    else .ok []

/-- The call and the recorded result of one member of an open tool group, as an answer: the recorded
result where it is usable, a cancelled one otherwise. -/
def closingResult (call : ObservedToolCall) (recorded : Option ToolCallResult) : ToolCallResult :=
  match recorded.filter (fun result => (toolResultContextInputs result call.providerKind).isOk) with
  | some result => result
  | none => cancelledToolResult call

/-- The run's open tool group: its turn, its batch, and its calls with what is recorded for them. -/
def openToolGroup (run : ActiveRun) :
    Result (Option (TurnId × Option ToolBatchId × List (ObservedToolCall × Option ToolCallResult))) :=
  match run.activeToolBatchId with
  | some batchId => do
    let batch ← orError (run.toolBatches.get? batchId) (activeBatchMissing batchId)
    .ok (some (batch.turnId, some batchId,
      batch.calls.map (fun call => (call.call, call.result))))
  | none =>
    if hasUnstartedToolCallTurn run then
      .ok (run.turns.last?.map fun (turnId, turn) =>
        (turnId, none, (turn.facts.elim [] LlmGenerationFacts.toolCalls).map (fun call => (call, none))))
    else .ok none

/-- The entries that answer one call of an open group. -/
def closingInputs (s : CoreAgentState) (runId : RunId) (turnId : TurnId)
    (batchId : Option ToolBatchId) (call : ObservedToolCall) (recorded : Option ToolCallResult) :
    Result (List SourcedInput) := do
  let result := closingResult call recorded
  let inputs ← toolResultContextInputs result call.providerKind
  .ok (missingResultInputs s runId turnId batchId result inputs)

/-- `open_tool_group_closing_entries`. -/
def openToolGroupClosingEntries (s : CoreAgentState) (run : ActiveRun) :
    Result (List ContextEntry) := do
  match ← openToolGroup run with
  | none => .ok []
  | some (turnId, batchId, calls) => do
    let inputs ← calls.mapM fun (call, recorded) =>
      closingInputs s run.runId turnId batchId call recorded
    .ok (contextEntriesFromInputs s inputs.flatten)

/-- The entries of an event, unless there are none. -/
def appliedProposals (runId : RunId) (baseRevision : Nat) (entries : List ContextEntry) :
    List CoreAgentEventProposal :=
  if entries = [] then []
  else [runProposal runId (.context (.entriesApplied baseRevision entries))]

/-- `ForceCancelRun`. -/
def forceCancelRun (s : CoreAgentState) (runId : RunId) :
    Admission (List CoreAgentEventProposal) := do
  requireOpen s
  match s.runs.active.filter (fun run => run.runId == runId) with
  | none => .ok []
  | some run => do
    let closing ← domain (openToolGroupClosingEntries s run)
    .ok (appliedProposals runId s.context.revision closing ++
      [runProposal runId (.run (.forceCancelled runId))])

/-- `fail_run_proposals`: the open calls are answered, the approvals end, and accepted steering is
written down unless the run is cancelling. -/
def failRunProposals (s : CoreAgentState) (run : ActiveRun) (messageRef : BlobRef) :
    Result (List CoreAgentEventProposal) := do
  let closing ← openToolGroupClosingEntries s run
  let lastEntryId := (closing.getLast?.map ContextEntry.entryId).getD s.idCursors.lastContextEntryId
  let baseRevision := if closing = [] then s.context.revision else s.context.revision + 1
  let steering :=
    if run.status = .cancelling then [] else missingSteeringEntriesAfter s lastEntryId
  .ok (appliedProposals run.runId s.context.revision closing ++
    pendingApprovalCancellations run ++
    appliedProposals run.runId baseRevision steering ++
    [runProposal run.runId (.run (.failed run.runId
      { kind := .internal, messageRef := some messageRef }))])

/-- `FailRun`. -/
def failRun (s : CoreAgentState) (runId : RunId) (messageRef : BlobRef) :
    Admission (List CoreAgentEventProposal) := do
  requireOpen s
  match s.runs.active.filter (fun run => run.runId == runId) with
  | none => .ok []
  | some run => domain (failRunProposals s run messageRef)

/-! ## Approvals -/

/-- Whether the response of a decision goes with the approval's continuation. -/
def validateApprovalResponse (command : DecideApprovalCommand) :
    ApprovalContinuation → Admission Unit
  | .providerMcp providerRequestId =>
    require (command.response.any (fun response => response.kind ==
        .mcpApprovalResponse providerRequestId (command.decision == .approved)))
      (.rejected .invalid "approval response context does not match the pending continuation")
  | .runtimeMcp _ _ =>
    require command.response.isNone
      (.rejected .invalid "runtime MCP approval decisions must not add provider response context")

/-- `DecideApproval`. -/
def decideApproval (s : CoreAgentState) (command : DecideApprovalCommand) :
    Admission (List CoreAgentEventProposal) := do
  let runId := command.runId
  let id := command.approvalId
  requireOpen s
  policy (validateNote command.note)
  let run ← orError (s.runs.active.filter (fun run => run.runId == runId))
    (.rejected .unknownReference s!"run {runId} is not active")
  let record ← orError (run.approvals.get? id)
    (.rejected .unknownReference s!"unknown approval {id}")
  require (record.request.runId = runId)
    (.rejected .unknownReference s!"approval {id} does not belong to run {runId}")
  require (record.status = .pending)
    (.rejected .approvalAlreadyTerminal s!"approval {id} is already terminal")
  require run.status.acceptsInput
    (.rejected .activeWork "approval decision does not target the accepting active run")
  validateApprovalResponse command record.request.continuation
  let entries := contextEntriesFromInputs s
    (command.response.toList.map (fun response => (none, .approvalDecision runId id, response)))
  -- The decision being admitted is the last one that the run waits on.
  let unparks := run.status = .parked ∧ run.parkedToolBatch.isNone ∧ run.pendingApprovals.length = 1
  let unparked : List CoreAgentEventProposal :=
    if unparks then [runProposal runId (.approval (.runUnparked runId))] else []
  .ok (runProposal runId (.approval (.decided id runId command.decision command.note)) ::
    unparked ++ appliedProposals runId s.context.revision entries)

/-! ## Context edits -/

def reservedRunContextKeyPrefix : ContextEntryKey := "run"
def instructionsKeyPrefix : ContextEntryKey := "instructions."

/-- `validate_external_context_key`. -/
def validateExternalContextKey (key : ContextEntryKey) : Result Unit :=
  let reserved := reservedRunContextKeyPrefix
  require (¬ contextKeyStartsWith key reserved)
    (violation s!"context key {key} uses reserved internal prefix {reserved}")

/-- `is_instructions_key`. -/
def isInstructionsKey (key : ContextEntryKey) : Bool :=
  instructionsKeyPrefix.toList.isPrefixOf key.toList

/-- `validate_external_context_edit_entry`. -/
def validateExternalContextEditEntry (key : ContextEntryKey) (entry : ContextEntryInput) :
    Result Unit :=
  let kind := entry.kind.debug
  let keyPrefix := instructionsKeyPrefix
  if isInstructionsKey key then
    require (entry.kind = .instructions)
      (violation s!"instruction context key {key} cannot supply context entry kind {kind}")
  else
    match entry.kind with
    | .providerOpaque | .message .user => .ok ()
    | .mcpApprovalResponse _ _ =>
      .error (violation "MCP approval responses are runtime-owned context")
    | .catalog title =>
      require (trim title ≠ "") (violation s!"catalog context entry {key} needs a title")
    | .instructions =>
      .error (violation
        s!"instruction context entry requires an {keyPrefix}* key, got {key}")
    | _ => .error (violation s!"context edit cannot supply context entry kind {kind}")

/-- `validate_external_context_edit`. -/
def validateExternalContextEdit (key : ContextEntryKey) (entry : ContextEntryInput) :
    Result Unit := do
  validateExternalContextKey key
  validateExternalContextEditEntry key entry

/-- `validate_external_context_prefix_replacement`. -/
def validateExternalContextPrefixReplacement (keyPrefix : ContextEntryKey)
    (entries : OrdMap ContextEntryKey ContextEntryInput) : Result Unit := do
  validateExternalContextKey keyPrefix
  entries.entries.forM fun (key, entry) => do
    validateExternalContextKey key
    require (contextKeyStartsWith key keyPrefix)
      (violation s!"context replacement entry key {key} is outside prefix {keyPrefix}")
    validateExternalContextEditEntry key entry

/-- `context_entry_input_from_active`. -/
def ContextEntry.toInput (entry : ContextEntry) : ContextEntryInput where
  kind := entry.kind
  content := entry.content
  preview := entry.preview
  origin := entry.origin
  provenanceRef := entry.provenanceRef
  tokenEstimate := entry.tokenEstimate

/-- `context_upsert_is_noop`. -/
def contextUpsertIsNoop (s : CoreAgentState) (key : ContextEntryKey) (entry : ContextEntryInput) :
    Bool :=
  (currentKeyEntry s key).any (fun active => active.toInput == entry)

/-- `context_prefix_replacement_is_noop`. -/
def contextPrefixReplacementIsNoop (s : CoreAgentState) (keyPrefix : ContextEntryKey)
    (entries : OrdMap ContextEntryKey ContextEntryInput) : Bool :=
  OrdMap.ofList (s.context.entries.filterMap fun entry =>
    (entry.key.filter (contextKeyStartsWith · keyPrefix)).map (fun key => (key, entry.toInput)))
    == entries

/-- `replacement_entry`. -/
def replacementEntry (s : CoreAgentState) (entryId : ContextEntryId) (input : ContextEntryInput) :
    Option ContextEntry :=
  (entryById s entryId).map fun active =>
    input.commit entryId active.key active.source active.supersedes

/-- `catalog_metadata_replacement`. -/
def catalogMetadataReplacement (s : CoreAgentState) (key : ContextEntryKey)
    (input : ContextEntryInput) : Option ContextEntry := do
  let current ← currentKeyEntry s key
  if isSupersedableCatalogKind current.kind ∧ current.kind = input.kind ∧
      current.content = input.content then
    replacementEntry s current.entryId input
  else none

/-- Whether a replacement changes only the metadata of a current catalog. -/
def isCatalogMetadataOnly (s : CoreAgentState) (active entry : ContextEntry) : Bool :=
  isSupersedableCatalogKind active.kind && active.content == entry.content &&
    active.supersedes == entry.supersedes &&
    active.key.any (fun key =>
      (currentKeyEntry s key).any (fun current => current.entryId == entry.entryId))

/-- `validate_entry_replacement`. -/
def validateEntryReplacement (s : CoreAgentState) (entry : ContextEntry) : Result Unit := do
  validateRecordedEntryReplacement s entry
  let entryId := entry.entryId
  let active ← orError (entryById s entryId)
    (violation s!"cannot replace unknown context entry {entryId}")
  require (isCatalogMetadataOnly s active entry ∨ active.kind.isReplaceable)
    (violation (s!"context entry {entryId} cannot be replaced: only tool results, user " ++
      "messages, and current catalog metadata can"))

/-- What every context edit checks first. -/
def requireEditableContext (s : CoreAgentState) : Admission Unit := do
  requireOpen s
  requireNoPendingCompaction s "context cannot be edited while context compaction is pending"

/-- A context event against the current revision. -/
def contextProposal (event : ContextEvent) : CoreAgentEventProposal :=
  sessionProposal (.context event)

/-- `UpsertContext`. -/
def upsertContext (s : CoreAgentState) (expectedRevision : Option Nat) (key : ContextEntryKey)
    (entry : ContextEntryInput) : Admission (List CoreAgentEventProposal) := do
  requireEditableContext s
  policy (validateExternalContextEdit key entry)
  validateExpectedRevision "context" expectedRevision s.context.revision
  if contextUpsertIsNoop s key entry then .ok []
  else
    match catalogMetadataReplacement s key entry with
    | some replacement =>
      .ok [contextProposal (.entriesReplaced s.context.revision [replacement])]
    | none =>
      .ok [contextProposal (.entriesApplied s.context.revision
        (contextEntriesFromInputs s [(some key, .contextEdit, entry)]))]

/-- `ReplaceContextPrefix`. -/
def replaceContextPrefix (s : CoreAgentState) (expectedRevision : Option Nat)
    (keyPrefix : ContextEntryKey) (entries : OrdMap ContextEntryKey ContextEntryInput) :
    Admission (List CoreAgentEventProposal) := do
  requireEditableContext s
  policy (validateExternalContextPrefixReplacement keyPrefix entries)
  validateExpectedRevision "context" expectedRevision s.context.revision
  if contextPrefixReplacementIsNoop s keyPrefix entries then .ok []
  else
    .ok [contextProposal (.keyPrefixReplaced s.context.revision keyPrefix
      (contextEntriesFromInputs s
        (entries.entries.map (fun (key, entry) => (some key, .contextEdit, entry)))))]

/-- `RemoveContext`. -/
def removeContext (s : CoreAgentState) (expectedRevision : Option Nat) (key : ContextEntryKey) :
    Admission (List CoreAgentEventProposal) := do
  requireEditableContext s
  policy (validateExternalContextKey key)
  validateExpectedRevision "context" expectedRevision s.context.revision
  match validateContextKeyExists s key with
  | .ok _ => .ok [contextProposal (.keysRemoved s.context.revision [key])]
  | .error error => .error (.rejected .unknownReference error.message)

/-- The loop of `ReplaceContextEntries`: an entry that is gone, or that would not change, is
skipped. -/
def replacedEntries (s : CoreAgentState) :
    List (ContextEntryId × ContextEntryInput) → Result (List ContextEntry)
  | [] => .ok []
  | (entryId, input) :: rest =>
    match replacementEntry s entryId input with
    | none => replacedEntries s rest
    | some entry =>
      if entryById s entryId = some entry then replacedEntries s rest
      else do
        validateEntryReplacement s entry
        let replaced ← replacedEntries s rest
        .ok (entry :: replaced)

/-- `ReplaceContextEntries`. -/
def replaceContextEntries (s : CoreAgentState) (expectedRevision : Option Nat)
    (entries : OrdMap ContextEntryId ContextEntryInput) :
    Admission (List CoreAgentEventProposal) := do
  requireEditableContext s
  require s.runs.active.isNone
    (.rejected .activeWork "context entries cannot be replaced while a run is active")
  validateExpectedRevision "context" expectedRevision s.context.revision
  let replaced ← policy (replacedEntries s entries.entries)
  if replaced = [] then .ok []
  else .ok [contextProposal (.entriesReplaced s.context.revision replaced)]

/-- `CompactContext`. -/
def compactContext (s : CoreAgentState) : Admission (List CoreAgentEventProposal) := do
  requireOpen s
  require (¬ s.context.compaction.isPending ∧ ¬ s.context.compaction.isQueued)
    (.rejected .activeWork "context compaction is already pending")
  require (standalonePrefixIds s ≠ [])
    (.rejected .refused "no older compactable context is available")
  .ok [manualCompactionRequestedProposal s]

/-! ## Promises and workflow tools -/

/-- The event of a resolution. -/
def PromiseResolution.event (promiseId : PromiseId) : PromiseResolution → PromiseEvent
  | .resolved payloadRef => .resolved promiseId payloadRef
  | .failed errorRef => .failed promiseId errorRef
  | .cancelled => .cancelled promiseId

/-- `ResolvePromise`: the first writer wins, and a promise that was pruned settled long ago. -/
def resolvePromise (s : CoreAgentState) (promiseId : PromiseId) (resolution : PromiseResolution) :
    Admission (List CoreAgentEventProposal) :=
  let text := promiseId.text
  match s.promises.promises.get? promiseId with
  | none =>
    if promiseWasPruned s promiseId then .ok []
    else .error (.rejected .unknownReference s!"unknown promise {text}")
  | some promise =>
    if promise.status.isTerminal then .ok []
    else .ok [sessionProposal (.promise (resolution.event promiseId))]

/-- `fail_pending_completion_promises`. -/
def failPendingCompletionPromises (s : CoreAgentState) (invocation : WorkflowToolInvocation)
    (errorRef : BlobRef) : List CoreAgentEventProposal :=
  (invocation.promiseIds.filter (isPendingPromise s)).map
    (fun promiseId => sessionProposal (.promise (.failed promiseId (some errorRef))))

/-- A terminal failure of an invocation: the first one wins, and it fails every promise that the
receiver can no longer resolve. -/
def failInvocation (s : CoreAgentState)
    (invocations : OrdMap WorkflowToolInvocationId WorkflowToolInvocation)
    (failures : OrdMap WorkflowToolInvocationId BlobRef) (invocationId : WorkflowToolInvocationId)
    (errorRef : BlobRef) (event : WorkflowToolEvent) (conflict : String) :
    Admission (List CoreAgentEventProposal) :=
  match invocations.get? invocationId with
  | none => .ok []
  | some invocation =>
    match failures.get? invocationId with
    | some existing => do
      require (existing = errorRef) (.rejected .conflict conflict)
      .ok []
    | none =>
      .ok (sessionProposal (.workflowTool event) ::
        failPendingCompletionPromises s invocation errorRef)

/-- `FailWorkflowToolDelivery`. -/
def failWorkflowToolDelivery (s : CoreAgentState) (invocationId : WorkflowToolInvocationId)
    (errorRef : BlobRef) : Admission (List CoreAgentEventProposal) :=
  failInvocation s s.workflowTools.boundInvocations s.workflowTools.deliveryFailures invocationId
    errorRef (.deliveryFailed invocationId errorRef)
    s!"workflow tool invocation {invocationId} already has a different delivery failure"

/-- `FailWorkflowToolStart`. -/
def failWorkflowToolStart (s : CoreAgentState) (invocationId : WorkflowToolInvocationId)
    (errorRef : BlobRef) : Admission (List CoreAgentEventProposal) :=
  failInvocation s s.workflowTools.startRequests s.workflowTools.startFailures invocationId
    errorRef (.startFailed invocationId errorRef)
    s!"workflow tool start intent {invocationId} already has a different terminal failure"

/-- `UnparkToolBatch`. -/
def unparkToolBatchCommand (s : CoreAgentState) (command : UnparkToolBatchCommand)
    (observedAtMs : Nat) : Admission (List CoreAgentEventProposal) := do
  requireOpen s
  match overtakenUnparkClaim s command observedAtMs with
  | some message => .error (.rejected .conflict message)
  | none => domain (unparkToolBatchProposals s command)

/-! ## Tools and environments -/

/-- `ReplaceTools`. -/
def replaceTools (s : CoreAgentState) (expectedRevision : Option Nat) (tools : ToolMap) :
    Admission (List CoreAgentEventProposal) := do
  requireOpen s
  requireToolsNotFrozen s
  validateExpectedRevision "tool" expectedRevision s.tooling.revision
  policy (validateToolMap tools)
  .ok [sessionProposal (.toolConfig (.toolsReplaced s.tooling.revision tools))]

/-- `PatchTools`. -/
def patchTools (s : CoreAgentState) (expectedRevision : Option Nat) (patch : ToolPatch) :
    Admission (List CoreAgentEventProposal) := do
  requireOpen s
  requireToolsNotFrozen s
  validateExpectedRevision "tool" expectedRevision s.tooling.revision
  if patch.upsert = [] ∧ patch.remove = [] then .ok []
  else do
    let _ ← policy (patch.applyTo s.tooling.tools)
    .ok [sessionProposal (.toolConfig (.toolsPatched s.tooling.revision patch))]

/-- `SetActiveEnvironment`. -/
def setActiveEnvironment (s : CoreAgentState) (environmentId : EnvironmentId) :
    Admission (List CoreAgentEventProposal) := do
  requireOpen s
  let feature ← orError (s.lifecycle.config.bind (fun config => config.features.environments))
    (.rejected .invalid "active environment requires the environments feature")
  require (feature.isAttached environmentId)
    (.rejected .invalid s!"environment {environmentId} is not attached to this session")
  if s.environment.activeEnvironmentId = some environmentId then .ok []
  else .ok [sessionProposal (.environment (.activeEnvironmentSet environmentId))]

/-- `ClearActiveEnvironment`. -/
def clearActiveEnvironment (s : CoreAgentState) : Admission (List CoreAgentEventProposal) := do
  requireOpen s
  if s.environment.activeEnvironmentId.isNone then .ok []
  else .ok [sessionProposal (.environment .activeEnvironmentCleared)]

/-! ## The command -/

/-- `admit_command`. -/
def admitCommand (s : CoreAgentState) (observedAtMs : Nat) :
    CoreAgentCommand → Admission (List CoreAgentEventProposal)
  | .openSession config => do
    let opened ← openedEvent s config
    .ok [opened]
  | .openDeclaredSession config sessionUniverseId workflowTools => do
    let opened ← openedEvent s config
    let admitted ← policy (workflowTools.toEvent sessionUniverseId)
    .ok [opened, sessionProposal (.workflowToolConfig admitted)]
  | .admitSystemWorkflowTool sessionUniverseId declaration =>
    admitSystemWorkflowTool s sessionUniverseId declaration
  | .replaceSessionConfig expectedRevision config => replaceSessionConfig s expectedRevision config
  | .requestRun request => requestRun s request
  | .upsertContext expectedRevision key entry => upsertContext s expectedRevision key entry
  | .replaceContextPrefix expectedRevision keyPrefix entries =>
    replaceContextPrefix s expectedRevision keyPrefix entries
  | .removeContext expectedRevision key => removeContext s expectedRevision key
  | .replaceContextEntries expectedRevision entries =>
    replaceContextEntries s expectedRevision entries
  | .compactContext => compactContext s
  | .closeSession force => closeSession s force
  | .requestRunSteering runId submissionId input => requestRunSteering s runId submissionId input
  | .cancelRun runId => cancelRun s runId
  | .decideApproval command => decideApproval s command
  | .resolvePromise promiseId resolution => resolvePromise s promiseId resolution
  | .failWorkflowToolDelivery invocationId errorRef =>
    failWorkflowToolDelivery s invocationId errorRef
  | .failWorkflowToolStart invocationId errorRef => failWorkflowToolStart s invocationId errorRef
  | .forceCancelRun runId => forceCancelRun s runId
  | .failRun runId messageRef => failRun s runId messageRef
  | .unparkToolBatch command => unparkToolBatchCommand s command observedAtMs
  | .replaceTools expectedRevision tools => replaceTools s expectedRevision tools
  | .patchTools expectedRevision patch => patchTools s expectedRevision patch
  | .setActiveEnvironment environmentId => setActiveEnvironment s environmentId
  | .clearActiveEnvironment => clearActiveEnvironment s
  | .openCodeToolScope scope => policy (openCodeToolScopeProposals s scope)
  | .admitCodeToolCall call => policy (admitCodeToolCallProposals s call)
  | .completeCodeToolCall origin result => policy (completeCodeToolCallProposals s origin result)
  | .deferCodeToolCall origin spec => policy (deferCodeToolCallProposals s origin spec)
  | .resumeCodeToolCall origin result claimObservedAtMs =>
    policy (resumeCodeToolCallProposals s origin result claimObservedAtMs observedAtMs)
  | .closeCodeToolScope executionId => policy (closeCodeToolScopeProposals s executionId)

end Lightspeed.Harness
