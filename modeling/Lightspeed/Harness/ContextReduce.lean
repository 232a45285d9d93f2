import Lightspeed.Harness.Context

/-!
# The context component: reducing events

`apply_event` of `components/context.rs` with the checks it makes. Every event but a queued
compaction names the revision it was built against and moves it by one, and an applied entry takes
the next id. An entry whose source is a run's input or steering is also recorded on the run
(`recordEntryMaterialization`).
-/

namespace Lightspeed.Harness

open Lib

/-- `validate_base_revision`. -/
def validateBaseRevision (s : CoreAgentState) (baseRevision : Nat) : Result Unit :=
  let revision := s.context.revision
  require (baseRevision = revision)
    (violation
      s!"context event base revision {baseRevision} does not match active revision {revision}")

/-- `bump_context_revision`. -/
def bumpContextRevision (s : CoreAgentState) : CoreAgentState :=
  { s with context := { s.context with revision := s.context.revision + 1 } }

/-- `remove_context_entry_by_key`. -/
def removeContextEntryByKey (s : CoreAgentState) (key : ContextEntryKey) : CoreAgentState :=
  s.setEntries (s.context.entries.filter (fun entry => entry.key != some key))

/-- `remove_context_entries_by_key_prefix`. -/
def removeContextEntriesByKeyPrefix (s : CoreAgentState) (keyPrefix : ContextEntryKey) :
    CoreAgentState :=
  s.setEntries
    (s.context.entries.filter (fun entry => !entry.key.any (contextKeyStartsWith · keyPrefix)))

/-- `drop_superseded_beyond_cap`: the newest version under a key is current, and the oldest of the
others go once there are more than the cap. -/
def dropSupersededBeyondCap (s : CoreAgentState) (key : ContextEntryKey) : CoreAgentState :=
  let versions :=
    ((s.context.entries.filter (fun entry => entry.key == some key)).map
      ContextEntry.entryId).dropLast
  let dropped := versions.take (versions.length - supersededCatalogCap)
  s.setEntries (s.context.entries.filter (fun entry => entry.entryId ∉ dropped))

/-- `validate_no_duplicate_entry_keys`. -/
def validateNoDuplicateEntryKeys (seen : List ContextEntryKey) : List ContextEntry → Result Unit
  | [] => .ok ()
  | entry :: rest =>
    match entry.key with
    | none => validateNoDuplicateEntryKeys seen rest
    | some key => do
      require (key ∉ seen) (violation s!"duplicate context key {key} in entries event")
      validateNoDuplicateEntryKeys (key :: seen) rest

/-- `validate_entry_matches_input`. -/
def validateEntryMatchesInput (entry : ContextEntry) (input : ContextEntryInput)
    (allowKey : Bool) : Result Unit := do
  let entryId := entry.entryId
  require (¬ (entry.key.isSome ∧ ¬ allowKey))
    (violation s!"run materialized context entry {entryId} must not have a key")
  require (entry.kind = input.kind ∧ entry.content = input.content ∧
      entry.preview = input.preview ∧ entry.origin = input.origin ∧
      entry.provenanceRef = input.provenanceRef ∧ entry.tokenEstimate = input.tokenEstimate)
    (violation s!"context entry {entryId} does not match accepted input payload")

/-- The run with one more of its input entries in context. -/
def recordRunInput (run : ActiveRun) (entry : ContextEntry) (inputIndex : Nat) :
    Result ActiveRun := do
  let entryId := entry.entryId
  let recorded := run.inputEntryIds.length
  let expected ← orError run.source.input[inputIndex]?
    (violation
      s!"run input context entry {entryId} references missing input index {inputIndex}")
  validateEntryMatchesInput entry expected true
  require (recorded = inputIndex)
    (violation
      s!"run input context entry {entryId} expected input index {recorded}, got {inputIndex}")
  .ok { run with inputEntryIds := run.inputEntryIds ++ [entryId] }

/-- The steering batch with one more of its input entries in context. -/
def recordSteeringInput (steering : SteeringBatch) (entry : ContextEntry) (inputIndex : Nat) :
    Result SteeringBatch := do
  let entryId := entry.entryId
  let recorded := steering.entryIds.length
  let expected ← orError steering.input[inputIndex]?
    (violation
      s!"steering context entry {entryId} references missing input index {inputIndex}")
  validateEntryMatchesInput entry expected false
  require (recorded = inputIndex)
    (violation
      s!"steering context entry {entryId} expected input index {recorded}, got {inputIndex}")
  .ok { steering with entryIds := steering.entryIds ++ [entryId] }

/-- The steering batches with the first one that has this id rewritten. -/
def updateSteering (steeringId : SteeringId) (f : SteeringBatch → Result SteeringBatch)
    (missing : DomainError) : List SteeringBatch → Result (List SteeringBatch)
  | [] => .error missing
  | steering :: rest =>
    if steering.steeringId = steeringId then do
      let steering ← f steering
      .ok (steering :: rest)
    else do
      let rest ← updateSteering steeringId f missing rest
      .ok (steering :: rest)

/-- `record_entry_materialization`. -/
def recordEntryMaterialization (s : CoreAgentState) (entry : ContextEntry) :
    Result CoreAgentState :=
  match entry.source with
  | .runInput runId inputIndex => do
    let run ← activeRunRef s runId
    let run ← recordRunInput run entry inputIndex
    .ok (s.setActive run)
  | .steering runId steeringId inputIndex => do
    let run ← activeRunRef s runId
    let entryId := entry.entryId
    let steering ← updateSteering steeringId (recordSteeringInput · entry inputIndex)
      (violation
        s!"steering context entry {entryId} references missing steering batch {steeringId}")
      run.steering
    .ok (s.setActive { run with steering })
  | _ => .ok s

/-- The checks that one entry of `apply_entries_applied` passes before it is recorded. -/
def validateNextEntry (s : CoreAgentState) (entry : ContextEntry) : Result Unit := do
  let entryId := entry.entryId
  let expected := s.idCursors.lastContextEntryId + 1
  require (entryId = expected)
    (violation s!"expected context entry id {expected}, got {entryId}")
  require (entryById s entryId).isNone
    (violation s!"duplicate active context entry id {entryId}")
  match s.context.entries.getLast? with
  | none => .ok ()
  | some last =>
    let lastId := last.entryId
    require (lastId < entryId)
      (violation
        s!"context entry id {entryId} must be greater than last active entry id {lastId}")

/-- The `Debug` form of an optional entry id. -/
def debugEntryId : Option ContextEntryId → String
  | none => "None"
  | some id => "Some(ContextEntryId(" ++ toString id ++ "))"

/-- The keyed part of `apply_entries_applied`: the entry names what it supersedes, and what it
replaces instead is removed. -/
def replaceKeyed (s : CoreAgentState) (entry : ContextEntry) : Result CoreAgentState :=
  match entry.key with
  | none => .ok s
  | some key => do
    let expected := supersedeTarget s key entry.kind
    let entryId := entry.entryId
    let observed := debugEntryId entry.supersedes
    let current := debugEntryId expected
    require (entry.supersedes = expected)
      (violation
        s!"context entry {entryId} supersedes {observed} but key {key} currently holds {current}")
    .ok (if expected.isNone then removeContextEntryByKey s key else s)

/-- `apply_entries_applied`, after its checks: append one entry and move the cursor. -/
def appendEntry (s : CoreAgentState) (entry : ContextEntry) : CoreAgentState :=
  { s with
    context := { s.context with entries := s.context.entries ++ [entry] }
    idCursors := { s.idCursors with lastContextEntryId := entry.entryId } }

/-- The end of a step of `apply_entries_applied`: a superseding entry may push the oldest versions
out. -/
def capVersions (s : CoreAgentState) (entry : ContextEntry) : CoreAgentState :=
  match entry.key with
  | none => s
  | some key => if entry.supersedes.isSome then dropSupersededBeyondCap s key else s

/-- One step of `apply_entries_applied`. -/
def applyEntry (s : CoreAgentState) (entry : ContextEntry) : Result CoreAgentState := do
  validateNextEntry s entry
  let s ← recordEntryMaterialization s entry
  let s ← replaceKeyed s entry
  .ok (capVersions (appendEntry s entry) entry)

/-- `apply_entries_applied`. -/
def applyEntriesApplied (s : CoreAgentState) (entries : List ContextEntry) :
    Result CoreAgentState := do
  require (entries ≠ []) (violation "context entries event must contain at least one entry")
  validateNoDuplicateEntryKeys [] entries
  entries.foldlM applyEntry s

/-- A loop that refuses a repeated key, then checks the element. -/
def validateEach {α κ : Type} [DecidableEq κ] [ToString κ] (duplicate : String) (key : α → κ)
    (check : α → Result Unit) (seen : List κ) : List α → Result Unit
  | [] => .ok ()
  | x :: rest => do
    let k := key x
    require (k ∉ seen) (violation s!"{duplicate} {k}")
    check x
    validateEach duplicate key check (k :: seen) rest

/-- `remove_context_entries`. -/
def removeContextEntries (s : CoreAgentState) (entryIds : List ContextEntryId) :
    Result CoreAgentState := do
  require (entryIds ≠ [])
    (violation "context entry removal event must contain at least one entry")
  validateEach "duplicate context entry removal" id
    (fun entryId => require (entryById s entryId).isSome
      (violation s!"cannot remove unknown context entry {entryId}"))
    [] entryIds
  .ok (s.setEntries (s.context.entries.filter (fun entry => entry.entryId ∉ entryIds)))

/-- `validate_context_key_exists`. -/
def validateContextKeyExists (s : CoreAgentState) (key : ContextEntryKey) : Result Unit :=
  require (currentKeyEntry s key).isSome (violation s!"context key {key} does not exist")

/-- `validate_keys_removable`. -/
def validateKeysRemovable (s : CoreAgentState) (keys : List ContextEntryKey) : Result Unit :=
  validateEach "duplicate context key removal" id (validateContextKeyExists s) [] keys

/-- `has_active_key_with_prefix`. -/
def hasActiveKeyWithPrefix (s : CoreAgentState) (keyPrefix : ContextEntryKey) : Bool :=
  s.context.entries.any (fun entry => entry.key.any (contextKeyStartsWith · keyPrefix))

/-- `validate_key_prefix_replacement_entries`. -/
def validateKeyPrefixReplacementEntries (s : CoreAgentState) (keyPrefix : ContextEntryKey)
    (entries : List ContextEntry) : Result Unit := do
  require (¬ (entries = [] ∧ ¬ hasActiveKeyWithPrefix s keyPrefix))
    (violation (s!"context key prefix replacement {keyPrefix} has no active entries and no " ++
      "replacement entries"))
  validateNoDuplicateEntryKeys [] entries
  entries.forM fun entry => do
    let entryId := entry.entryId
    let key ← orError entry.key
      (violation s!"context key prefix replacement entry {entryId} must have a key")
    require (contextKeyStartsWith key keyPrefix)
      (violation (s!"context key prefix replacement entry {entryId} has key {key} " ++
        s!"outside prefix {keyPrefix}"))
    require (entry.source = .contextEdit)
      (violation s!"context key prefix replacement entry {entryId} must use context edit source")

/-- `validate_prefix_entries_removable`. -/
def validatePrefixEntriesRemovable (s : CoreAgentState) (keyPrefix : ContextEntryKey) :
    Result Unit :=
  (s.context.entries.filter (fun entry => entry.key.any (contextKeyStartsWith · keyPrefix))).forM
    fun entry => validateEntryIsNotUnconsumedActiveRunInput s entry.entryId

/-- `apply_key_prefix_replaced`. -/
def applyKeyPrefixReplaced (s : CoreAgentState) (keyPrefix : ContextEntryKey)
    (entries : List ContextEntry) : Result CoreAgentState := do
  validateKeyPrefixReplacementEntries s keyPrefix entries
  validatePrefixEntriesRemovable s keyPrefix
  let s := removeContextEntriesByKeyPrefix s keyPrefix
  if entries = [] then .ok s else applyEntriesApplied s entries

/-- `validate_recorded_entry_replacement`. -/
def validateRecordedEntryReplacement (s : CoreAgentState) (entry : ContextEntry) :
    Result Unit := do
  let entryId := entry.entryId
  let active ← orError (entryById s entryId)
    (violation s!"cannot replace unknown context entry {entryId}")
  require (entry.kind = active.kind ∧ entry.key = active.key ∧ entry.source = active.source)
    (violation s!"replacement of context entry {entryId} must keep its kind, key, and source")
  validateEntryIsNotUnconsumedActiveRunInput s entryId

/-- The entries with the one that has `entry`'s id replaced by it. -/
def replaceEntry (entries : List ContextEntry) (entry : ContextEntry) : List ContextEntry :=
  entries.map (fun active => if active.entryId = entry.entryId then entry else active)

/-- `accumulate_usage` of `components/turn.rs`. -/
def accumulateUsage (total : Option LlmUsage) (usage : LlmUsage) : LlmUsage :=
  let total := total.getD {}
  let add (target value : Option Nat) : Option Nat :=
    match value with
    | none => target
    | some value => some (saturatingAdd32 (target.getD 0) value)
  { inputTokens := add total.inputTokens usage.inputTokens
    outputTokens := add total.outputTokens usage.outputTokens
    reasoningTokens := add total.reasoningTokens usage.reasoningTokens
    totalTokens := add total.totalTokens usage.totalTokens
    cachedInputTokens := add total.cachedInputTokens usage.cachedInputTokens
    cacheWriteInputTokens := add total.cacheWriteInputTokens usage.cacheWriteInputTokens
    cacheMissInputTokens := add total.cacheMissInputTokens usage.cacheMissInputTokens }

/-- The state with the active run, if there is one, rewritten. -/
def CoreAgentState.mapActive (s : CoreAgentState) (f : ActiveRun → ActiveRun) : CoreAgentState :=
  { s with runs := { s.runs with active := s.runs.active.map f } }

/-- Whether a turn ended at the model's context limit. -/
def TurnState.hitContextLimit (turn : TurnState) : Bool :=
  match turn.outcome with
  | some (.contextLimit _) => true
  | _ => false

/-- What `CompactionRequested` records on the active run: a recovery attempt when its latest turn
overflowed, and the one attempt at the entry guard. -/
def recordCompactionAttempt (s : CoreAgentState) (trigger : ContextCompactionTrigger)
    (run : ActiveRun) : ActiveRun :=
  let run :=
    match run.latestTurn with
    | some turn =>
      if turn.hitContextLimit then
        { run with contextRecovery := ⟨run.contextRecovery.attempts + 1, some turn.turnId⟩ }
      else run
    | none => run
  if trigger = .highWatermark ∧ entryGuardLimit ≤ s.context.entries.length then
    { run with entryGuardAttempted := true }
  else run

/-- The floor that a failed proactive compaction leaves. A plan whose run has ended was abandoned,
and leaves none. -/
def failureFloorAfter (s : CoreAgentState) : Option CompactionFailureFloor :=
  let attemptingRun :=
    (s.runs.active.filter (fun run => run.status == .running)).map (fun run => run.runId)
  match s.context.compaction.pendingPlan.filter
      (fun plan => plan.trigger == .highWatermark && plan.runId == attemptingRun) with
  | some plan => some ⟨plan.estimatedTokens, s.context.entries.length⟩
  | none => s.context.compaction.failureFloor

/-- The state after `CompactionFinished`. -/
def finishCompaction (s : CoreAgentState) (status : ContextCompactionStatus)
    (failureRef : Option BlobRef) (usage : Option LlmUsage) : CoreAgentState :=
  let manual := s.context.compaction.isQueued ||
    s.context.compaction.pendingPlan.any (fun plan => plan.trigger == .manual)
  let revision := s.context.revision + 1
  let floor :=
    match status with
    | .succeeded => none
    | .failed => failureFloorAfter s
  let recovered := status = .succeeded ∧ s.context.entries.length < entryGuardLimit
  let charged := s.mapActive fun run =>
    { run with
      usage := match usage with
        | some usage => some (accumulateUsage run.usage usage)
        | none => run.usage
      entryGuardAttempted := if recovered then false else run.entryGuardAttempted }
  { charged with
    context := { s.context with
      revision := revision
      compaction := {
        phase := .idle
        lastFinishedRevision := some revision
        lastManualOutcome := if manual then some ⟨revision, status, failureRef⟩
          else s.context.compaction.lastManualOutcome
        failureFloor := floor } } }

/-- `apply_event` of `components/context.rs`. -/
def applyContextEvent (s : CoreAgentState) : ContextEvent → Result CoreAgentState
  | .entriesApplied baseRevision entries => do
    validateBaseRevision s baseRevision
    let s ← applyEntriesApplied s entries
    .ok (bumpContextRevision s)
  | .entriesRemoved baseRevision entryIds _ => do
    validateBaseRevision s baseRevision
    entryIds.forM (validateEntryIsNotUnconsumedActiveRunInput s)
    let s ← removeContextEntries s entryIds
    .ok (bumpContextRevision s)
  | .keysRemoved baseRevision keys => do
    validateBaseRevision s baseRevision
    require (keys ≠ []) (violation "context key removal event must contain at least one key")
    validateKeysRemovable s keys
    .ok (bumpContextRevision (keys.foldl removeContextEntryByKey s))
  | .keyPrefixReplaced baseRevision keyPrefix entries => do
    validateBaseRevision s baseRevision
    let s ← applyKeyPrefixReplaced s keyPrefix entries
    .ok (bumpContextRevision s)
  | .entriesReplaced baseRevision entries => do
    validateBaseRevision s baseRevision
    require (entries ≠ [])
      (violation "context entry replacement event must contain at least one entry")
    validateEach "duplicate context entry replacement" ContextEntry.entryId
      (validateRecordedEntryReplacement s) [] entries
    .ok (bumpContextRevision (s.setEntries (entries.foldl replaceEntry s.context.entries)))
  | .compactionRequested baseRevision trigger plan => do
    validateBaseRevision s baseRevision
    require (compactionSafeBoundary s ∧ plan.trigger = trigger ∧
        plan.runId = s.runs.active.map (fun run => run.runId) ∧ plan.coveredEntryIds ≠ [])
      (violation "invalid compaction plan or execution boundary")
    plan.coveredEntryIds.forM fun entryId => do
      require (entryById s entryId).isSome
        (violation s!"compaction plan covers unknown context entry {entryId}")
      validateEntryIsNotUnconsumedActiveRunInput s entryId
    let recorded := s.mapActive (recordCompactionAttempt s trigger)
    .ok (bumpContextRevision (recorded.setContext
      { s.context with compaction := { s.context.compaction with phase := .pending plan } }))
  | .compactionQueued baseRevision => do
    validateBaseRevision s baseRevision
    require (¬ s.context.compaction.isPending ∧ ¬ s.context.compaction.isQueued)
      (violation "context compaction is already pending")
    .ok (s.setContext
      { s.context with compaction := { s.context.compaction with phase := .queuedManual } })
  | .compactionFinished baseRevision status failureRef usage _ => do
    validateBaseRevision s baseRevision
    require (¬ (status = .succeeded ∧ failureRef.isSome))
      (violation "successful context compaction cannot include a failure ref")
    require (s.context.compaction.isPending ∨ s.context.compaction.isQueued)
      (violation "context compaction finished without a pending request")
    .ok (finishCompaction s status failureRef usage)

/-! ## Consumption -/

/-- `mark_context_entries_consumed_by_turn`, on the run. -/
def markConsumed (run : ActiveRun) (turnId : TurnId) (consumedIds : List ContextEntryId) :
    ActiveRun :=
  { run with
    inputConsumedByTurnId :=
      if run.inputConsumedByTurnId.isNone ∧ ∀ id ∈ run.inputEntryIds, id ∈ consumedIds then
        some turnId
      else run.inputConsumedByTurnId
    steering := run.steering.map fun steering =>
      if steering.consumedByTurnId.isNone ∧ steering.entryIds.length = steering.input.length ∧
          ∀ id ∈ steering.entryIds, id ∈ consumedIds then
        { steering with consumedByTurnId := some turnId }
      else steering }

/-- `mark_current_context_consumed_by_turn`. -/
def markCurrentContextConsumedByTurn (s : CoreAgentState) (runId : RunId) (turnId : TurnId) :
    Result CoreAgentState := do
  let run ← activeRunRef s runId
  .ok (s.setActive (markConsumed run turnId (plannedContextEntryIds s)))

end Lightspeed.Harness
