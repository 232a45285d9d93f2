import Mathlib.Data.List.Sort
import Lightspeed.Harness.Basic

/-!
# The context component: rendering and compaction

The pure part of `components/context.rs`: the order in which active entries are rendered into a
request (`plannedContextEntryIds`, with tool results kept behind their calls by
`toolGroupsAdjacent`), which prefix of it a standalone compaction covers (`standalonePrefixIds`), and
when the session is at a boundary where compaction may run. Where the source walks a list of entry
ids and looks each one up, the model walks the entries themselves: active entries have distinct ids.
-/

namespace Lightspeed.Harness

open Lib

def supersededCatalogCap : Nat := 5
def openaiResponsesCompactionProviderKind : String := "openai.responses.compaction"
def openaiCompletionsCompactionProviderKind : String := "openai.completions.compaction"
def anthropicMessagesCompactionProviderKind : String := "anthropic.messages.compaction"
def entryCountCompactionTrigger : Nat := 1500
def entryGuardLimit : Nat := 2000
def standaloneCompactionSource : String := "standalone_compaction_prefix"
def maxContextRecoveryAttempts : Nat := 2

/-- `is_standalone_prefix`. -/
def isStandalonePrefix (entry : ContextEntry) : Bool :=
  match entry.source with
  | .runtime label => label == standaloneCompactionSource
  | _ => false

/-- `is_supersedable_catalog_kind`. -/
def isSupersedableCatalogKind : ContextEntryKind → Bool
  | .catalog _ => true
  | _ => false

/-- `ContextEntryKind::is_replaceable`. -/
def ContextEntryKind.isReplaceable : ContextEntryKind → Bool
  | .toolResult _ _ | .message .user => true
  | _ => false

/-- The order of instructions: by key, an absent one first, then by id. -/
def instructionLe (a b : ContextEntry) : Prop :=
  match a.key, b.key with
  | none, none => a.entryId ≤ b.entryId
  | none, some _ => True
  | some _, none => False
  | some k, some l => k < l ∨ (k = l ∧ a.entryId ≤ b.entryId)

instance : DecidableRel instructionLe := fun a b => by
  unfold instructionLe
  split <;> infer_instance

/-! ## Rendering -/

/-- The loop state of `tool_groups_adjacent`. -/
structure GroupScan where
  rendered : List ContextEntry := []
  held : List ContextEntry := []
  unanswered : List ToolCallId := []
  callingTurn : Option (RunId × TurnId) := none

/-- The start of a step of `tool_groups_adjacent`: another turn's output closes the open group. -/
def GroupScan.enter (scan : GroupScan) (entry : ContextEntry) : GroupScan :=
  if entry.outputTurn.isSome ∧ entry.outputTurn ≠ scan.callingTurn then
    { rendered := scan.rendered ++ scan.held, held := [], unanswered := []
      callingTurn := entry.outputTurn }
  else scan

/-- The calls still unanswered once `entry` has been seen. -/
def unansweredAfter (unanswered : List ToolCallId) (entry : ContextEntry) : List ToolCallId :=
  match entry.kind with
  | .toolCall callId _ => unanswered.insert callId
  | .toolResult callId _ => unanswered.filter (fun id => id ≠ callId)
  | _ => unanswered

/-- Whether an entry belongs to the open group. -/
def inGroup (unanswered : List ToolCallId) (entry : ContextEntry) : Bool :=
  match entry.kind with
  | .toolCall _ _ => true
  | .toolResult callId _ => callId ∈ unanswered
  | _ => entry.outputTurn.isSome

/-- The rest of a step of `tool_groups_adjacent`: render or hold the entry, and release what is
held once every call is answered. -/
def GroupScan.place (scan : GroupScan) (entry : ContextEntry) : GroupScan :=
  let unanswered := unansweredAfter scan.unanswered entry
  let render := inGroup scan.unanswered entry || unanswered.isEmpty
  let rendered := if render then scan.rendered ++ [entry] else scan.rendered
  let held := if render then scan.held else scan.held ++ [entry]
  if unanswered.isEmpty then { scan with rendered := rendered ++ held, held := [], unanswered }
  else { scan with rendered, held, unanswered }

/-- One step of `tool_groups_adjacent`. -/
def GroupScan.step (scan : GroupScan) (entry : ContextEntry) : GroupScan :=
  (scan.enter entry).place entry

/-- `tool_groups_adjacent`: arrival order, except that nothing separates a tool call from its
result. -/
def toolGroupsAdjacent (entries : List ContextEntry) : List ContextEntry :=
  let scan := entries.foldl GroupScan.step {}
  scan.rendered ++ scan.held

/-- The instructions of `planned_context_entry_ids`, in key order. -/
def instructionEntries (s : CoreAgentState) : List ContextEntry :=
  (s.context.entries.filter (fun entry => entry.kind == .instructions)).insertionSort instructionLe

/-- The entries that `planned_context_entry_ids` renders behind the instructions and the standalone
prefix. -/
def bodyEntries (s : CoreAgentState) : List ContextEntry :=
  s.context.entries.filter (fun entry => entry.kind != .instructions && !isStandalonePrefix entry)

/-- `planned_context_entry_ids`, as the entries that it names: the instructions, the standalone
prefix, then everything else with tool groups adjacent. -/
def plannedContextEntries (s : CoreAgentState) : List ContextEntry :=
  instructionEntries s ++
    s.context.entries.filter (fun entry => entry.kind != .instructions && isStandalonePrefix entry) ++
    toolGroupsAdjacent (bodyEntries s)

/-- `planned_context_entry_ids`. -/
def plannedContextEntryIds (s : CoreAgentState) : List ContextEntryId :=
  (plannedContextEntries s).map ContextEntry.entryId

/-- `context_entries_by_id`. -/
def contextEntriesById (s : CoreAgentState) (entryIds : List ContextEntryId) :
    Result (List ContextEntry) :=
  entryIds.mapM fun entryId =>
    orError (entryById s entryId) (violation s!"context references missing entry {entryId}")

/-- The quality of two combined estimates. -/
def TokenEstimateQuality.combine : TokenEstimateQuality → TokenEstimateQuality →
    TokenEstimateQuality
  | .estimated, _ | _, .estimated => .estimated
  | .providerCounted, _ | _, .providerCounted => .providerCounted
  | .exact, .exact => .exact

/-- `combined_token_estimate`: absent when an entry has none or the sum leaves a `u32`. -/
def combinedTokenEstimate (entries : List ContextEntry) : Option TokenEstimate :=
  entries.foldlM
    (fun total entry => do
      let estimate ← entry.tokenEstimate
      if total.tokens + estimate.tokens < u32Bound then
        some ⟨total.tokens + estimate.tokens, total.quality.combine estimate.quality⟩
      else none)
    ⟨0, .exact⟩

/-- `planned_context_snapshot`. -/
def plannedContextSnapshot (s : CoreAgentState) (apiKind : ProviderApiKind) :
    Result ContextSnapshot := do
  let entries ← contextEntriesById s (plannedContextEntryIds s)
  .ok { apiKind, contextRevision := s.context.revision, entries
        tokenEstimate := combinedTokenEstimate entries }

/-! ## What compaction may cover -/

/-- `is_superseded_context_entry`. -/
def isSupersededContextEntry (s : CoreAgentState) (entryId : ContextEntryId) : Bool :=
  s.context.entries.any (fun entry => entry.supersedes == some entryId)

/-- `is_compactable_entry`: instructions and current catalogs survive compaction. -/
def isCompactableEntry (s : CoreAgentState) (entry : ContextEntry) : Bool :=
  match entry.kind with
  | .instructions => false
  | .catalog _ => isSupersededContextEntry s entry.entryId
  | _ => true

/-- `compactable_context_entry_ids`, as the entries that it names. -/
def compactableContextEntries (s : CoreAgentState) : List ContextEntry :=
  (plannedContextEntries s).filter (isCompactableEntry s)

/-- `validate_entry_is_not_unconsumed_active_run_input`. -/
def validateEntryIsNotUnconsumedActiveRunInput (s : CoreAgentState) (entryId : ContextEntryId) :
    Result Unit :=
  match s.runs.active with
  | none => .ok ()
  | some run => do
    require (¬ (run.inputConsumedByTurnId.isNone ∧ entryId ∈ run.inputEntryIds))
      (violation s!"cannot remove unconsumed run input context entry {entryId}")
    require (¬ ∃ steering ∈ run.steering,
        steering.consumedByTurnId.isNone ∧ entryId ∈ steering.entryIds)
      (violation s!"cannot remove unconsumed steering context entry {entryId}")

/-- Whether an entry may leave context: `validate_entry_is_not_unconsumed_active_run_input` is
`Ok`. -/
def isRemovable (s : CoreAgentState) (entryId : ContextEntryId) : Bool :=
  (validateEntryIsNotUnconsumedActiveRunInput s entryId).isOk

/-- Whether an entry is input or steering of the run. -/
def ContextEntry.isInputOf (entry : ContextEntry) (runId : RunId) : Bool :=
  match entry.source with
  | .runInput previous _ | .steering previous _ _ => previous == runId
  | _ => false

/-- The walk back of `standalone_prefix_ids` from a turn's first output at `boundary` over the run's
input directly before it; `before` is what precedes it, nearest first. -/
def walkBack (runId : RunId) : List ContextEntry → Nat → Nat
  | [], boundary => boundary
  | previous :: before, boundary =>
    if previous.isInputOf runId then walkBack runId before (boundary - 1) else boundary

/-- The boundary loop of `standalone_prefix_ids`: one cut position for each change of output turn. -/
def boundariesFrom (last : Option (RunId × TurnId)) (before : List ContextEntry) :
    List ContextEntry → List Nat
  | [] => []
  | entry :: rest =>
    match entry.outputTurn with
    | some turn =>
      if last ≠ some turn then
        walkBack turn.1 before before.length :: boundariesFrom (some turn) (entry :: before) rest
      else boundariesFrom last (entry :: before) rest
    | none => boundariesFrom last (entry :: before) rest

/-- Whether `standalone_prefix_ids` covers the whole window, as a second overflow recovery does. -/
def retryOverflow (s : CoreAgentState) : Bool :=
  s.runs.active.any fun run =>
    0 < run.contextRecovery.attempts &&
      run.latestTurn.any fun turn =>
        run.contextRecovery.recoveryAttemptedTurnId != some turn.turnId &&
          match turn.outcome with
          | some (.contextLimit _) => true
          | _ => false

/-- Where `standalone_prefix_ids` cuts the compactable entries. -/
def standaloneCut (s : CoreAgentState) (entries : List ContextEntry) : Nat :=
  let boundaries := boundariesFrom none [] entries
  let cut :=
    if retryOverflow s ∨ entryGuardLimit ≤ s.context.entries.length then entries.length
    else (boundaries.reverse[1]?.or boundaries.head?).getD entries.length
  if cut = 0 then entries.length else cut

/-- `standalone_prefix_ids`, as the entries that it names. -/
def standalonePrefixEntries (s : CoreAgentState) : List ContextEntry :=
  let entries := compactableContextEntries s
  (entries.take (standaloneCut s entries)).takeWhile (fun entry => isRemovable s entry.entryId)

/-- `standalone_prefix_ids`. -/
def standalonePrefixIds (s : CoreAgentState) : List ContextEntryId :=
  (standalonePrefixEntries s).map ContextEntry.entryId

/-! ## Limits and boundaries -/

/-- `compaction_input_limit_tokens`. -/
def compactionInputLimitTokens (s : CoreAgentState) : Option Nat := do
  let config ← s.lifecycle.config
  let run := s.runs.active
  let model :=
    ((run.map fun run => run.runConfig.modelOverride.getD config.model).or
      (s.context.lastGeneration.map (fun generation => generation.model))).getD config.model
  (run.bind (fun run => run.inputLimitTokens)).or
    ((if model = config.model then config.context.inputLimitTokens else none).or
      (if run.isNone then s.context.lastGeneration.bind (fun generation => generation.inputLimitTokens)
        else none))

/-- `compaction_safe_boundary`. -/
def compactionSafeBoundary (s : CoreAgentState) : Bool :=
  !s.context.compaction.isPending && !hasActiveNonterminalToolBatch s &&
    s.runs.active.all fun run =>
      run.status == .running && run.activeTurnId.isNone && run.activeToolBatchId.isNone &&
        !hasUnstartedToolCallTurn run

/-- `compaction_enabled`. -/
def compactionEnabled (config : SessionConfig) : Bool :=
  match config.context.compaction with
  | none | some .disabled => false
  | _ => true

inductive EntryGuard where
  | clear
  | compact
  | failRun
  deriving DecidableEq

/-- `entry_guard`: what this turn boundary owes `ENTRY_GUARD_LIMIT`. -/
def entryGuard (s : CoreAgentState) (run : ActiveRun) : EntryGuard :=
  if s.context.entries.length < entryGuardLimit ∨ ¬ compactionSafeBoundary s then .clear
  else if ¬ run.entryGuardAttempted ∧ s.lifecycle.config.any compactionEnabled ∧
      ¬ (standalonePrefixIds s).isEmpty then .compact
  else .failRun

/-- `grown_past_floor`. -/
def grownPastFloor (value floor : Nat) : Bool := saturatingAdd64 floor (floor / 10) ≤ value

/-- `ContextState::observed_tokens`. -/
def ContextState.observedTokens (c : ContextState) : Option Nat :=
  (c.usageObservation.filter (fun observation => observation.contextRevision == c.revision)).map
    (fun observation => observation.tokens)

/-- The output tokens that a generation reported. -/
def LlmGenerationFacts.outputTokens (facts : LlmGenerationFacts) : Nat :=
  (facts.usage.bind (fun usage => usage.outputTokens)).getD 0

/-- `high_watermark_token_estimate`: the best token count there is for the context as it stands. -/
def highWatermarkTokenEstimate (s : CoreAgentState) : Option Nat :=
  (((combinedTokenEstimate s.context.entries).or
      (combinedTokenEstimate (s.context.entries.filter (isCompactableEntry s)))).map
        (fun estimate => estimate.tokens)).or
    (s.context.observedTokens.or (do
      let run ← s.runs.active
      let turn ← run.latestTurn
      if turn.plannedRequest.any (fun planned =>
          s.context.compaction.lastFinishedRevision.any
            (fun finished => planned.contextRevision < finished)) then none
      else
        let facts ← turn.facts
        facts.contextTokenEstimate.map
          (fun estimate => saturatingAdd32 estimate.tokens facts.outputTokens)))

/-- `entry_count_calls_for_compaction`. -/
def entryCountCallsForCompaction (s : CoreAgentState) : Bool :=
  let entries := s.context.entries.length
  entryCountCompactionTrigger ≤ entries &&
    s.context.compaction.failureFloor.all (fun floor => grownPastFloor entries floor.entries) &&
    entries - (standalonePrefixIds s).length + 1 < entryCountCompactionTrigger

/-! ## Keys -/

/-- `current_key_entry`: the newest entry under a key. -/
def currentKeyEntry (s : CoreAgentState) (key : ContextEntryKey) : Option ContextEntry :=
  s.context.entries.reverse.find? (fun entry => entry.key == some key)

/-- `supersede_target`: the catalog that a keyed catalog write supersedes. -/
def supersedeTarget (s : CoreAgentState) (key : ContextEntryKey) (kind : ContextEntryKind) :
    Option ContextEntryId :=
  if isSupersedableCatalogKind kind then
    ((currentKeyEntry s key).filter (fun current => isSupersedableCatalogKind current.kind)).map
      ContextEntry.entryId
  else none

/-- `context_key_starts_with`: the key is the prefix, or goes on from it with a dot. -/
def contextKeyStartsWith (key keyPrefix : ContextEntryKey) : Bool :=
  key == keyPrefix || (keyPrefix.toList ++ ['.']).isPrefixOf key.toList

/-- An entry to be numbered: its key, its source and its content. -/
abbrev SourcedInput := Option ContextEntryKey × ContextEntrySource × ContextEntryInput

/-- `context_entries_after`: number inputs after `lastEntryId`. -/
def contextEntriesAfter (s : CoreAgentState) (lastEntryId : Nat) :
    List SourcedInput → List ContextEntry
  | [] => []
  | (key, source, input) :: rest =>
    input.commit (lastEntryId + 1) key source
        (key.bind (fun key => supersedeTarget s key input.kind)) ::
      contextEntriesAfter s (lastEntryId + 1) rest

/-- `context_entries_from_inputs`. -/
def contextEntriesFromInputs (s : CoreAgentState) (inputs : List SourcedInput) :
    List ContextEntry :=
  contextEntriesAfter s s.idCursors.lastContextEntryId inputs

end Lightspeed.Harness
