import Lightspeed.Harness.State

/-!
# The durable codec

An event is stored as JSON with `U+0000` replaced by `U+FFFD` in every text, and the state only ever
reduces what was stored (`replace_nul_in_json` of `codec.rs`). `stored` is the event that a proposal
becomes. Identifiers, digests and validated names cannot hold `U+0000`, so only free text changes.
-/

namespace Lightspeed.Harness

open Lib

/-- `replace_nul`. -/
def replaceNul (text : String) : String :=
  text.map (fun c => if c = Char.ofNat 0 then Char.ofNat 0xFFFD else c)

/-! ## Content -/

def ContentRef.stored (content : ContentRef) : ContentRef :=
  { content with
    mediaType := content.mediaType.map replaceNul
    providerKind := content.providerKind.map replaceNul }

def ContextEntryKind.stored : ContextEntryKind → ContextEntryKind
  | .catalog title => .catalog (replaceNul title)
  | .mcpApprovalResponse id approve => .mcpApprovalResponse (replaceNul id) approve
  | kind => kind

def ContextEntryInput.stored (input : ContextEntryInput) : ContextEntryInput :=
  { input with
    kind := input.kind.stored
    content := input.content.stored
    preview := input.preview.map replaceNul
    origin := input.origin.map replaceNul }

def ContextEntry.stored (entry : ContextEntry) : ContextEntry :=
  { entry with
    kind := entry.kind.stored
    content := entry.content.stored
    preview := entry.preview.map replaceNul
    origin := entry.origin.map replaceNul }

/-! ## Configuration -/

def ModelSelection.stored (model : ModelSelection) : ModelSelection :=
  { model with providerId := replaceNul model.providerId, model := replaceNul model.model }

def SessionConfig.stored (config : SessionConfig) : SessionConfig :=
  { config with
    model := config.model.stored
    generation := { config.generation with
      reasoningEffort := config.generation.reasoningEffort.map replaceNul } }

def RunConfig.stored (config : RunConfig) : RunConfig :=
  { config with
    modelOverride := config.modelOverride.map ModelSelection.stored
    reasoningEffort := config.reasoningEffort.map replaceNul }

def ToolSpec.stored (tool : ToolSpec) : ToolSpec :=
  { tool with
    kind := match tool.kind with
      | .builtin settings => .builtin (replaceNul settings)
      | kind => kind }

def ToolConfigEvent.stored : ToolConfigEvent → ToolConfigEvent
  | .toolsReplaced baseRevision tools =>
    .toolsReplaced baseRevision (tools.mapValues (fun _ tool => tool.stored))
  | .toolsPatched baseRevision patch =>
    .toolsPatched baseRevision { patch with upsert := patch.upsert.map ToolSpec.stored }

def LifecycleEvent.stored : LifecycleEvent → LifecycleEvent
  | .opened config => .opened config.stored
  | .configChanged config revision => .configChanged config.stored revision
  | .closed => .closed

/-! ## Tool calls, approvals and turns -/

def ObservedToolCall.stored (call : ObservedToolCall) : ObservedToolCall :=
  { call with providerKind := call.providerKind.map replaceNul }

def ToolCallResult.stored (result : ToolCallResult) : ToolCallResult :=
  { result with
    modelVisibleContextEntries := result.modelVisibleContextEntries.map ContextEntryInput.stored }

def ToolEvent.stored : ToolEvent → ToolEvent
  | .batchStarted runId turnId batchId revision calls =>
    .batchStarted runId turnId batchId revision (calls.map ObservedToolCall.stored)
  | .callCompleted runId turnId batchId result =>
    .callCompleted runId turnId batchId result.stored
  | event => event

def ApprovalSubject.stored : ApprovalSubject → ApprovalSubject
  | .mcpToolCall serverId serverLabel toolName argumentsRef =>
    .mcpToolCall (replaceNul serverId) (replaceNul serverLabel) (replaceNul toolName) argumentsRef

def ApprovalContinuation.stored : ApprovalContinuation → ApprovalContinuation
  | .providerMcp providerRequestId => .providerMcp (replaceNul providerRequestId)
  | .runtimeMcp batchId callId => .runtimeMcp batchId callId

def ApprovalEvent.stored : ApprovalEvent → ApprovalEvent
  | .requested approval =>
    .requested { approval with
      subject := approval.subject.stored
      continuation := approval.continuation.stored }
  | .decided approvalId runId decision note =>
    .decided approvalId runId decision (note.map replaceNul)
  | event => event

def ObservedApprovalRequest.stored (request : ObservedApprovalRequest) :
    ObservedApprovalRequest where
  subject := request.subject.stored
  continuation := request.continuation.stored

def LlmGenerationFacts.stored (facts : LlmGenerationFacts) : LlmGenerationFacts :=
  { facts with
    toolCalls := facts.toolCalls.map ObservedToolCall.stored
    approvalRequests := facts.approvalRequests.map ObservedApprovalRequest.stored }

def TurnOutcome.stored : TurnOutcome → TurnOutcome
  | .finalOutput output => .finalOutput (output.map ContentRef.stored)
  | outcome => outcome

def TurnEvent.stored : TurnEvent → TurnEvent
  | .generationCompleted turnId runId status facts =>
    .generationCompleted turnId runId status facts.stored
  | .completed turnId outcome => .completed turnId outcome.stored
  | event => event

/-! ## Runs and context -/

def RunTerminalNotifyIntent.stored (intent : RunTerminalNotifyIntent) :
    RunTerminalNotifyIntent where
  holderWorkflowId := replaceNul intent.holderWorkflowId
  token := replaceNul intent.token

def RunSource.stored (source : RunSource) : RunSource where
  input := source.input.map ContextEntryInput.stored

def RunEvent.stored : RunEvent → RunEvent
  | .accepted event =>
    .accepted { event with
      source := event.source.stored
      runConfig := event.runConfig.stored
      notifyOnTerminal := event.notifyOnTerminal.map RunTerminalNotifyIntent.stored }
  | .steeringAccepted runId steeringId submissionId input =>
    .steeringAccepted runId steeringId submissionId (input.map ContextEntryInput.stored)
  | .completed runId output => .completed runId (output.map ContentRef.stored)
  | event => event

def ContextEvent.stored : ContextEvent → ContextEvent
  | .entriesApplied baseRevision entries =>
    .entriesApplied baseRevision (entries.map ContextEntry.stored)
  | .keyPrefixReplaced baseRevision keyPrefix entries =>
    .keyPrefixReplaced baseRevision keyPrefix (entries.map ContextEntry.stored)
  | .entriesReplaced baseRevision entries =>
    .entriesReplaced baseRevision (entries.map ContextEntry.stored)
  | event => event

/-! ## Promises and workflow tools -/

def PromiseEvent.stored : PromiseEvent → PromiseEvent
  | .created promise =>
    .created { promise with
      source := match promise.source with
        | .timer fireAtMs => .timer fireAtMs
        | .workflow workflowId kind invocationId key =>
          .workflow (replaceNul workflowId) kind invocationId key }
  | event => event

def WorkflowEndpointRef.stored (endpoint : WorkflowEndpointRef) : WorkflowEndpointRef :=
  { endpoint with workflowId := replaceNul endpoint.workflowId }

def WorkflowToolTarget.stored : WorkflowToolTarget → WorkflowToolTarget
  | .bound receiver dispatch => .bound receiver.stored dispatch
  | .start ref => .start { ref with recipeFingerprint := replaceNul ref.recipeFingerprint }

def WorkflowToolCompletionKeySource.stored :
    WorkflowToolCompletionKeySource → WorkflowToolCompletionKeySource
  | .reply => .reply
  | .stringArray pointer => .stringArray (replaceNul pointer)
  | .arrayItemField pointer field => .arrayItemField (replaceNul pointer) (replaceNul field)
  | .arrayIndices pointer keyPrefix => .arrayIndices (replaceNul pointer) keyPrefix

def WorkflowToolCompletion.stored : WorkflowToolCompletion → WorkflowToolCompletion
  | .promises schema deadline maxPromises keySource =>
    .promises schema deadline maxPromises keySource.stored
  | completion => completion

def WorkflowToolBinding.stored (binding : WorkflowToolBinding) : WorkflowToolBinding :=
  { binding with
    definition := { binding.definition with tool := binding.definition.tool.stored }
    target := binding.target.stored
    completion := binding.completion.stored }

def WorkflowToolConfigEvent.stored : WorkflowToolConfigEvent → WorkflowToolConfigEvent
  | .declaredBindingsAdmitted universeId version controller fingerprint bindings =>
    .declaredBindingsAdmitted universeId version (controller.map WorkflowEndpointRef.stored)
      fingerprint (bindings.map WorkflowToolBinding.stored)
  | .systemBindingAdmitted binding => .systemBindingAdmitted binding.stored

/-! ## The event -/

/-- What `decode_event` gives for what `encode_event` stores. -/
def CoreAgentEvent.stored : CoreAgentEvent → CoreAgentEvent
  | .lifecycle event => .lifecycle event.stored
  | .run event => .run event.stored
  | .approval event => .approval event.stored
  | .turn event => .turn event.stored
  | .context event => .context event.stored
  | .toolConfig event => .toolConfig event.stored
  | .tool event => .tool event.stored
  | .promise event => .promise event.stored
  | .workflowToolConfig event => .workflowToolConfig event.stored
  | event => event

end Lightspeed.Harness
