import Lightspeed.Harness.State

/-!
# Reading the active run

The small readers of `components/run.rs` that the components share: the active run an event names,
its pending approvals, whether a turn limit is reached, and whether the latest turn still owes a tool
batch.
-/

namespace Lightspeed.Harness

open Lib

/-- `DomainError::InvariantViolation`, the error that every consistency check raises. -/
abbrev violation (message : String) : DomainError := .invariantViolation message

namespace CoreAgentState

/-- The state with `run` in the active slot. -/
def setActive (s : CoreAgentState) (run : ActiveRun) : CoreAgentState :=
  { s with runs := { s.runs with active := some run } }

/-- The state with other context. -/
def setContext (s : CoreAgentState) (context : ContextState) : CoreAgentState :=
  { s with context := context }

/-- The state with other context entries. -/
def setEntries (s : CoreAgentState) (entries : List ContextEntry) : CoreAgentState :=
  { s with context := { s.context with entries := entries } }

end CoreAgentState

/-- `active_run_ref` of `components/run.rs`, which `active_run_mut` repeats: the active run, when an
event names it. -/
def activeRunRef (s : CoreAgentState) (runId : RunId) : Result ActiveRun := do
  let run ← orError s.runs.active (violation "no active run")
  let activeId := run.runId
  require (activeId = runId)
    (violation s!"event run id {runId} does not match active run {activeId}")
  .ok run

/-- `ActiveRun::pending_approvals`. -/
def ActiveRun.pendingApprovals (run : ActiveRun) : List ApprovalRecord :=
  run.approvals.values.filter (fun record => record.status == .pending)

/-- `ActiveRun::steering_for_submission`. -/
def ActiveRun.steeringForSubmission (run : ActiveRun) (id : SubmissionId) : Option SteeringBatch :=
  run.steering.find? (fun steering => steering.submissionId == id)

/-- The run's latest turn: the one with the greatest id. -/
def ActiveRun.latestTurn (run : ActiveRun) : Option TurnState := run.turns.last?.map Prod.snd

/-- Whether the batch with this id is the one the run is parked on. -/
def ActiveRun.isParkedOn (run : ActiveRun) (batchId : ToolBatchId) : Bool :=
  run.parkedToolBatch.any (fun parked => parked.batchId == batchId)

/-- `turn_limit_reached` of `components/run.rs`. -/
def turnLimitReached (s : CoreAgentState) (run : ActiveRun) : Bool :=
  (run.runConfig.maxTurns.or (s.lifecycle.config.bind (fun config => config.limits.maxTurns))).any
    (fun limit => limit ≤ run.turnCount)

/-- `has_unconsumed_steering` of `components/run.rs`. -/
def hasUnconsumedSteering (run : ActiveRun) : Bool :=
  run.steering.any (fun steering => steering.consumedByTurnId.isNone)

/-- `has_unmaterialized_steering` of `components/run.rs`. -/
def hasUnmaterializedSteering (run : ActiveRun) : Bool :=
  run.steering.any (fun steering => steering.entryIds.length < steering.input.length)

/-- Whether the run holds an open or a completed batch of the turn. -/
def ActiveRun.hasBatchOf (run : ActiveRun) (turnId : TurnId) : Bool :=
  run.toolBatches.values.any (fun batch => batch.turnId == turnId) ||
    run.completedToolBatches.values.any (fun batch => batch.turnId == turnId)

/-- `has_unstarted_tool_call_turn` of `components/run.rs`. Of the completed batches it looks at the
latest only. -/
def hasUnstartedToolCallTurn (run : ActiveRun) : Bool :=
  run.turns.last?.any fun (turnId, turn) =>
    turn.status == .completed &&
      turn.outcome == some .toolCallsQueued &&
      turn.facts.any (fun facts => !facts.toolCalls.isEmpty) &&
      !run.toolBatches.values.any (fun batch => batch.turnId == turnId) &&
      !run.completedToolBatches.last?.any (fun e => e.2.turnId == turnId)

/-- `has_active_nonterminal_tool_batch` of `components/context.rs`. -/
def hasActiveNonterminalToolBatch (s : CoreAgentState) : Bool :=
  s.runs.active.any fun run =>
    run.toolBatches.values.any fun batch =>
      batch.calls.any (fun call => !call.status.isTerminal)

/-- `RunsState::is_pruned`. -/
def RunsState.isPruned (runs : RunsState) (runId : RunId) : Bool :=
  runs.prunedThrough.any (fun through => runId ≤ through) &&
    !runs.finished.any (fun run => run.runId == runId) &&
    !runs.queued.any (fun run => run.runId == runId) &&
    !runs.active.any (fun run => run.runId == runId)

/-- `PromiseComponentState::pending`. -/
def PromiseComponentState.pending (p : PromiseComponentState) : List Promise :=
  p.promises.values.filter (fun promise => promise.status == .pending)

/-- `PromiseComponentState::pending_for_run`. -/
def PromiseComponentState.pendingForRun (p : PromiseComponentState) (runId : RunId) :
    List Promise :=
  p.pending.filter (fun promise => promise.scope == .run runId)

/-- `WorkflowToolState::binding_for_tool_id`. -/
def WorkflowToolState.bindingForToolId (w : WorkflowToolState) (toolId : ToolId) :
    Option WorkflowToolBinding :=
  w.bindings.values.find? (fun binding => binding.definition.tool.id == toolId)

/-! ## Entries -/

/-- `entry_by_id` of `components/context.rs`. -/
def entryById (s : CoreAgentState) (entryId : ContextEntryId) : Option ContextEntry :=
  s.context.entries.find? (fun entry => entry.entryId == entryId)

/-- The turn that produced an output entry. -/
def ContextEntry.outputTurn (entry : ContextEntry) : Option (RunId × TurnId) :=
  match entry.source with
  | .assistantOutput runId turnId | .reasoning runId turnId => some (runId, turnId)
  | _ => none

/-- A brace, which a Rust `Debug` text has around its fields. -/
def braces (fields : String) : String := " \x7b " ++ fields ++ " \x7d"

/-- The `Debug` form of an entry kind. -/
def ContextEntryKind.debug : ContextEntryKind → String
  | .message .user => "Message" ++ braces "role: User"
  | .message .assistant => "Message" ++ braces "role: Assistant"
  | .instructions => "Instructions"
  | .catalog title => "Catalog" ++ braces ("title: " ++ title.quote)
  | .toolCall callId name =>
    "ToolCall" ++ braces ("call_id: ToolCallId(" ++ callId.quote ++ "), name: ToolName(" ++
      name.quote ++ ")")
  | .toolResult callId isError =>
    "ToolResult" ++ braces ("call_id: ToolCallId(" ++ callId.quote ++ "), is_error: " ++
      toString isError)
  | .reasoningState => "ReasoningState"
  | .providerOpaque => "ProviderOpaque"
  | .mcpApprovalResponse id approve =>
    "McpApprovalResponse" ++ braces ("approval_request_id: " ++ id.quote ++ ", approve: " ++
      toString approve)

end Lightspeed.Harness
