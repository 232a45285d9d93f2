import Lightspeed.Lib.EventSource
import Lightspeed.Harness.Admit
import Lightspeed.Harness.Codec

/-!
# The drive

`CoreAgentDrive` of `drive.rs`: one session's state with everything that can move it. Each entry point
proposes events against the state. `appendAction` adds what the end of a run owes its promises, stores
the events and reduces them on a copy first, so that a list commits as a whole or is refused. `drive` is
the event-sourced system that results.
-/

namespace Lightspeed.Harness

open Lib

/-- `CoreAgentDriveError` of `drive.rs`. -/
inductive CoreAgentDriveError where
  | command (error : CommandError)
  | domain (error : DomainError)

/-- What the drive returns. -/
abbrev Driven (α : Type) := Except CoreAgentDriveError α

/-- A domain error of the drive. -/
def driven {α : Type} (result : Result α) : Driven α :=
  match result with
  | .ok a => .ok a
  | .error error => .error (.domain error)

/-! ## Approvals of runtime MCP calls -/

/-- `RuntimeMcpApprovalRequest` of `drive.rs`. -/
structure RuntimeMcpApprovalRequest where
  callId : ToolCallId
  subject : ApprovalSubject

/-- The loop of `runtime_mcp_approval_proposals` over the gated calls. -/
def validateGatedCalls (batch : ActiveToolBatch) (seen : List ToolCallId) :
    List RuntimeMcpApprovalRequest → Result Unit
  | [] => .ok ()
  | approval :: rest => do
    require (batch.hasPending approval.callId ∧ approval.callId ∉ seen)
      (violation "runtime MCP approval does not match a pending active call")
    validateGatedCalls batch (approval.callId :: seen) rest

/-- `runtime_mcp_approval_proposals`. -/
def runtimeMcpApprovalProposals (s : CoreAgentState) (batchId : ToolBatchId)
    (approvals : List RuntimeMcpApprovalRequest) : Result (List CoreAgentEventProposal) := do
  require (approvals ≠ [])
    (violation "runtime MCP approval park requires at least one gated call")
  let run ← orError s.runs.active (violation "runtime MCP approval requires an active run")
  let batch ← orError (run.toolBatches.get? batchId)
    (violation s!"tool batch {batchId} is missing")
  require (run.activeToolBatchId = some batchId)
    (violation "runtime MCP approval does not match the active tool batch")
  validateGatedCalls batch [] approvals
  let observed := approvals.map fun approval : RuntimeMcpApprovalRequest =>
    (⟨approval.subject, .runtimeMcp batchId approval.callId⟩ : ObservedApprovalRequest)
  let requested := (approvalRequestsAfter batch.runId s.idCursors.lastApprovalId observed).zip
    (approvals.map RuntimeMcpApprovalRequest.callId)
  .ok (requested.map (fun (approval, callId) =>
      ⟨{ batch.joins with toolCallId := some callId }, .approval (.requested approval)⟩) ++
    [⟨batch.joins, .approval (.runParked batch.runId)⟩])

/-! ## Committing -/

/-- `terminal_run_id_for_proposal`. -/
def CoreAgentEvent.terminalRunId : CoreAgentEvent → Option RunId
  | .run (.completed runId _) | .run (.failed runId _) | .run (.cancelled runId)
  | .run (.forceCancelled runId) => some runId
  | _ => none

/-- The cancellations that the end of a run owes its promises, less those already proposed. -/
def promiseCancellations (s : CoreAgentState) (cancelled : List PromiseId) (runId : RunId) :
    List PromiseId :=
  ((s.promises.pendingForRun runId).map Promise.promiseId).filter (fun id => id ∉ cancelled)

/-- The loop of `with_run_terminal_side_effects`. -/
def runTerminalSideEffects (s : CoreAgentState) (cancelled : List PromiseId) :
    List CoreAgentEventProposal → List CoreAgentEventProposal
  | [] => []
  | proposal :: rest =>
    match proposal.event.terminalRunId with
    | none => proposal :: runTerminalSideEffects s cancelled rest
    | some runId =>
      let owed := promiseCancellations s cancelled runId
      proposal :: owed.map (fun id => runProposal runId (.promise (.cancelled id))) ++
        runTerminalSideEffects s (owed ++ cancelled) rest

/-- `with_run_terminal_side_effects`. -/
def withRunTerminalSideEffects (s : CoreAgentState) (proposals : List CoreAgentEventProposal) :
    List CoreAgentEventProposal :=
  runTerminalSideEffects s [] proposals

/-- The entries that stored events become, numbered from `seq`. -/
def entriesFrom (observedAtMs : Nat) (seq : EventSeq) :
    List CoreAgentEventProposal → List CoreAgentEntry
  | [] => []
  | proposal :: rest =>
    { seq, observedAtMs, joins := proposal.joins, event := proposal.event.stored } ::
      entriesFrom observedAtMs (seq + 1) rest

/-- The entries that a list of proposals would append to the log. -/
def uncommitted (s : CoreAgentState) (observedAtMs : Nat)
    (proposals : List CoreAgentEventProposal) : List CoreAgentEntry :=
  entriesFrom observedAtMs s.nextSeq (withRunTerminalSideEffects s proposals)

/-- `append_action` with `dry_run_append`: the entries to commit, when the reducer takes them all. -/
def appendAction (s : CoreAgentState) (observedAtMs : Nat)
    (proposals : List CoreAgentEventProposal) : Driven (List CoreAgentEntry) := do
  let entries := uncommitted s observedAtMs proposals
  let _ ← driven (entries.foldlM applyEvent s)
  .ok entries

/-! ## The next action -/

/-- `CoreAgentAction` of `drive.rs`. -/
inductive CoreAgentAction where
  | appendEvents (entries : List CoreAgentEntry)
  | generateLlm (request : LlmGenerationRequest)
  | compactContext (request : ContextCompactionRequest)
  | invokeTools (request : ToolInvocationBatchRequest)
  | idle
  | closed

/-- `classify_core_agent_action`. -/
def classifyCoreAgentAction (s : CoreAgentState) : CoreAgentAction :=
  if s.lifecycle.status = .closed then .closed else .idle

/-- The effect that a session asks for when nothing is left to plan. -/
def requestAction (sessionId : SessionId) (s : CoreAgentState) : Result CoreAgentAction := do
  match ← nextGenerationRequest sessionId s with
  | some request => .ok (.generateLlm request)
  | none =>
    match ← nextContextCompactionRequest sessionId s with
    | some request => .ok (.compactContext request)
    | none =>
      match ← nextToolBatchRequest sessionId s with
      | some request => .ok (.invokeTools request)
      | none => .ok (classifyCoreAgentAction s)

/-- `next_action_unbounded`. -/
def nextActionUnbounded (sessionId : SessionId) (s : CoreAgentState) (observedAtMs : Nat) :
    Driven CoreAgentAction := do
  let proposals ← driven (planNext s)
  if proposals ≠ [] then do
    let entries ← appendAction s observedAtMs proposals
    .ok (.appendEvents entries)
  else driven (requestAction sessionId s)

/-! ## The system -/

/-- What can move a session: a command, its own planning, and the results of its effects. -/
inductive DriveInput where
  | admitCommand (command : CoreAgentCommand)
  | nextAction
  | resumeGeneration (result : LlmGenerationResult)
  | resumeContextCompaction (result : ContextCompactionResult)
  | resumeToolBatch (result : ToolInvocationBatchResult)
  | resumeToolCall (batchId : ToolBatchId) (result : ToolCallResult)
  | requestRuntimeMcpApprovals (batchId : ToolBatchId) (approvals : List RuntimeMcpApprovalRequest)
  | parkToolBatch (batchId : ToolBatchId) (callId : ToolCallId) (results : List ToolCallResult)
      (spec : AwaitSpec)

/-- The batch result that `resume_tool_call` makes of one call's. -/
def toolCallBatchResult (s : CoreAgentState) (batchId : ToolBatchId) (result : ToolCallResult) :
    Result ToolInvocationBatchResult := do
  let run ← orError s.runs.active (violation "tool call result requires an active run")
  require (run.activeToolBatchId = some batchId)
    (violation "tool call result does not match active tool batch")
  let batch ← orError (run.toolBatches.get? batchId)
    (violation s!"tool batch {batchId} is missing")
  .ok (batch.result [result])

/-- `resume_context_compaction`, before the append. -/
def resumedCompactionProposals (sessionId : SessionId) (s : CoreAgentState)
    (result : ContextCompactionResult) : Result (List CoreAgentEventProposal) := do
  let resultSession := result.sessionId
  require (resultSession = sessionId)
    (violation (s!"context compaction result session {resultSession} does not match drive " ++
      s!"session {sessionId}"))
  contextCompactionResultProposals s result

/-- The proposals of each entry point of the drive. -/
def inputProposals (sessionId : SessionId) (s : CoreAgentState) (observedAtMs : Nat) :
    DriveInput → Driven (List CoreAgentEventProposal)
  | .admitCommand command =>
    match admitCommand s observedAtMs command with
    | .ok proposals => .ok proposals
    | .error error => .error (.command error)
  | .nextAction => driven (planNext s)
  | .resumeGeneration result => driven (generationResultProposals s result)
  | .resumeContextCompaction result => driven (resumedCompactionProposals sessionId s result)
  | .resumeToolBatch result => driven (toolBatchResultProposals sessionId s result)
  | .resumeToolCall batchId result => driven do
    let batch ← toolCallBatchResult s batchId result
    toolBatchResultProposals sessionId s batch
  | .requestRuntimeMcpApprovals batchId approvals =>
    driven (runtimeMcpApprovalProposals s batchId approvals)
  | .parkToolBatch batchId callId results spec =>
    driven (toolBatchParkedProposals sessionId s batchId callId results spec)

/-- The entries of each entry point of the drive, at a time that the host observed. -/
def proposeEntries (sessionId : SessionId) (s : CoreAgentState) (input : Nat × DriveInput) :
    Driven (List CoreAgentEntry) := do
  let proposals ← inputProposals sessionId s input.1 input.2
  appendAction s input.1 proposals

/-- A session's drive, as an event-sourced system: `resume_appended` reduces what was committed. -/
def drive (sessionId : SessionId) :
    EventSource CoreAgentState CoreAgentEntry (Nat × DriveInput) DomainError
      CoreAgentDriveError where
  init := CoreAgentState.new
  reduce := applyEvent
  propose := proposeEntries sessionId

/-- The states of a session and the logs that they are the reductions of. -/
abbrev Reachable (sessionId : SessionId) : CoreAgentState → List CoreAgentEntry → Prop :=
  EventSource.Reaches (drive sessionId)

end Lightspeed.Harness
