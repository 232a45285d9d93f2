import Lightspeed.Harness.Runs

/-!
# Requests

What the drive asks a runtime for: a generation (`components/llm.rs`), a compaction of a prefix of the
context, and the invocation of a batch's pending calls. A request is a function of the state, and the
fingerprint of a planned generation lets the drive notice when the state under it has moved.
-/

namespace Lightspeed.Harness

open Lib

/-! ## Generations -/

structure LlmRequest where
  model : ModelSelection
  requestFingerprint : RequestFingerprint
  context : ContextSnapshot
  tools : List ToolSpec
  codeMode : Option CodeModePresentation
  toolChoice : Option ToolChoice
  outputLimit : Option Nat
  reasoningEffort : Option String
  parallelToolUse : Option Bool
  processingTier : Option ModelProcessingTier
  compaction : Option CompactionPolicy

/-- `effective_generation`: the session's defaults under the run's overrides. -/
def effectiveGeneration (base : GenerationConfig) (runConfig : RunConfig) : GenerationConfig where
  maxOutputTokens := runConfig.maxOutputTokens.or base.maxOutputTokens
  reasoningEffort := runConfig.reasoningEffort.or base.reasoningEffort
  toolChoice := runConfig.toolChoice.or base.toolChoice
  parallelToolUse := runConfig.parallelToolUse.or base.parallelToolUse
  processingTier := runConfig.processingTier.or base.processingTier

/-- `remote_mcp_supported_by_provider`. -/
def remoteMcpSupportedByProvider : ProviderApiKind → Bool
  | .openAiResponses | .anthropicMessages => true
  | .openAiCompletions => false

/-- `validate_tools_for_api_kind`, on one tool. -/
def validateToolForApiKind (apiKind : ProviderApiKind) (tool : ToolSpec) : Result Unit :=
  let id := tool.id
  let requested := apiKind.debug
  match tool.kind with
  | .providerNative native =>
    let kind := native.apiKind.debug
    require (native.apiKind = apiKind)
      (.providerCompatibility (s!"provider-native tool {id} api kind {kind} does not match " ++
        s!"request api kind {requested}"))
  | .remoteMcp remote =>
    require (¬ (remote.execution = .provider ∧ ¬ remoteMcpSupportedByProvider apiKind))
      (.providerCompatibility (s!"provider-executed MCP tool {id} is not supported by request " ++
        s!"api kind {requested}; switch the server record to runtime execution or register a " ++
        "runtime twin"))
  | _ => .ok ()

/-- `validate_tools_for_api_kind`. -/
def validateToolsForApiKind (tools : List ToolSpec) (apiKind : ProviderApiKind) : Result Unit :=
  tools.forM (validateToolForApiKind apiKind)

/-- `active_tools`. -/
def activeTools (s : CoreAgentState) (apiKind : ProviderApiKind) : Result (List ToolSpec) := do
  validateToolsForApiKind s.tooling.tools.values apiKind
  .ok s.tooling.tools.values

/-- The error of a tool choice that names no active tool. -/
def missingToolChoice (toolId : ToolId) : DomainError :=
  violation s!"tool_choice references missing active tool {toolId}"

/-- `validate_tool_choice_for_tools` of `components/config.rs`. -/
def validateToolChoiceForTools (tools : ToolMap) : Option ToolChoice → Result Unit
  | some (.specific toolId) => require (tools.contains toolId) (missingToolChoice toolId)
  | _ => .ok ()

/-- `code_mode_presentation`. -/
def codeModePresentation (s : CoreAgentState) (tools : List ToolSpec) :
    Option CodeModePresentation := do
  let config ← s.lifecycle.config
  let feature ← config.features.codeMode
  some {
    allowedTools := OrdMap.ofList
      ((tools.filter fun tool => feature.allowedTools.all (fun allowed => tool.id ∈ allowed)).map
        (fun tool => (tool.id, ())))
    workflowResults := OrdMap.ofList (tools.filterMap fun tool =>
      (s.workflowTools.bindingForToolId tool.id).map fun binding =>
        (tool.id, { completion := binding.completion
                    startsWorkflow := !binding.target.isBound })) }

/-- `build_llm_request`. -/
def buildLlmRequest (s : CoreAgentState) (run : ActiveRun) (turnId : TurnId) :
    Result LlmRequest := do
  let config ← orError s.lifecycle.config (violation "active session is missing config")
  let model := run.runConfig.modelOverride.getD config.model
  let generation := effectiveGeneration config.generation run.runConfig
  let context ← plannedContextSnapshot s model.apiKind
  let tools ← activeTools s model.apiKind
  validateToolChoiceForTools s.tooling.tools generation.toolChoice
  let codeMode := codeModePresentation s tools
  .ok { model, context, tools, codeMode
        requestFingerprint := ⟨model, context, tools, generation, run.runId, turnId, codeMode⟩
        toolChoice := generation.toolChoice
        outputLimit := generation.maxOutputTokens
        reasoningEffort := generation.reasoningEffort
        parallelToolUse := generation.parallelToolUse
        processingTier := generation.processingTier
        compaction := config.context.compaction }

/-- `build_planned_llm_request`. The source folds any error of `build_llm_request` into an
invariant violation with its text. -/
def buildPlannedLlmRequest (s : CoreAgentState) (run : ActiveRun) (turnId : TurnId)
    (planned : PlannedRequestState) : Result LlmRequest := do
  let plannedConfig := planned.configRevision
  let plannedContext := planned.contextRevision
  let plannedTools := planned.toolsetRevision
  let activeConfig := s.lifecycle.configRevision
  let activeContext := s.context.revision
  let activeRevision := s.tooling.revision
  require (plannedConfig = activeConfig)
    (violation (s!"planned request config revision {plannedConfig} does not match active " ++
      s!"revision {activeConfig}"))
  require (plannedContext = activeContext)
    (violation (s!"planned request context revision {plannedContext} does not match active " ++
      s!"revision {activeContext}"))
  require (plannedTools = activeRevision)
    (violation (s!"planned request toolset revision {plannedTools} does not match active " ++
      s!"revision {activeRevision}"))
  let request ←
    match buildLlmRequest s run turnId with
    | .ok request => .ok request
    | .error error => .error (violation error.message)
  require (request.requestFingerprint = planned.requestFingerprint)
    (violation "rebuilt request fingerprint does not match planned fingerprint")
  .ok request

/-- `LlmGenerationRequest` of `io.rs`. -/
structure LlmGenerationRequest where
  sessionId : SessionId
  runId : RunId
  turnId : TurnId
  request : LlmRequest

/-- `next_generation_request` of `drive.rs`. -/
def nextGenerationRequest (sessionId : SessionId) (s : CoreAgentState) :
    Result (Option LlmGenerationRequest) :=
  match s.runs.active with
  | none => .ok none
  | some run =>
    if run.status ≠ .running then .ok none
    else
      match run.activeTurnId with
      | none => .ok none
      | some turnId => do
        let turn ← orError (run.turns.get? turnId) (violation s!"active turn {turnId} is missing")
        if turn.status ≠ .generationPending then .ok none
        else do
          let planned ← orError turn.plannedRequest
            (violation "generation-pending turn is missing planned request metadata")
          let request ← buildPlannedLlmRequest s run turnId planned
          .ok (some { sessionId, runId := run.runId, turnId, request })

/-! ## Compactions -/

structure ContextCompactionTask where
  model : ModelSelection
  context : ContextSnapshot
  targetTokens : Option Nat
  coveredEntryIds : List ContextEntryId
  tools : List ToolSpec
  inputLimitTokens : Option Nat

/-- Whether a compaction request carries the entry whatever it covers. -/
def ContextEntryKind.isStanding : ContextEntryKind → Bool
  | .instructions | .catalog _ => true
  | _ => false

/-- `build_context_compaction_task`. -/
def buildContextCompactionTask (s : CoreAgentState) : Result ContextCompactionTask := do
  let config ← orError s.lifecycle.config (violation "active session is missing config")
  let plan ← orError s.context.compaction.pendingPlan
    (violation "context compaction request is missing pending state")
  let model :=
    ((s.runs.active.map (fun run => run.runConfig.modelOverride.getD config.model)).or
      (s.context.lastGeneration.map (fun generation => generation.model))).getD config.model
  let targetTokens :=
    match config.context.compaction with
    | some (.providerStandalone _ targetTokens) => targetTokens
    | _ => none
  let covered := plan.coveredEntryIds
  let ids := (plannedContextEntryIds s).filter fun id =>
    id ∈ covered || (entryById s id).any (fun entry => entry.kind.isStanding)
  let entries ← contextEntriesById s ids
  let tools ← activeTools s model.apiKind
  .ok { model, targetTokens, tools
        context := { apiKind := model.apiKind, contextRevision := s.context.revision, entries
                     tokenEstimate := combinedTokenEstimate entries }
        coveredEntryIds := covered
        inputLimitTokens := compactionInputLimitTokens s }

structure ContextCompactionRequest where
  sessionId : SessionId
  request : ContextCompactionTask

/-- `next_context_compaction_request` of `drive.rs`. -/
def nextContextCompactionRequest (sessionId : SessionId) (s : CoreAgentState) :
    Result (Option ContextCompactionRequest) :=
  if s.lifecycle.status ≠ .open ∨ ¬ s.context.compaction.isPending then .ok none
  else do
    let request ← buildContextCompactionTask s
    .ok (some { sessionId, request })

/-! ## Tool invocations -/

def awaitToolId : ToolId := "concurrency.await"
def mcpFindToolsToolId : ToolId := "mcp.find_tools"
def mcpCallToolId : ToolId := "mcp.call"
def remoteMcpAllowedToolMaxLen : Nat := 128

structure RemoteMcpCallTarget where
  serverId : String
  recordRevision : Nat
  serverLabel : String
  allowedTools : Option (List String)
  approval : RemoteMcpApprovalPolicy

inductive RemoteMcpCallRuntime where
  | injected (target : RemoteMcpCallTarget) (remoteToolName : String)
      (approvalDecision : Option Bool)
  | search (targets : List RemoteMcpCallTarget) (approvalDecision : Option Bool)

/-- `remote_mcp_target`. -/
def remoteMcpTarget (spec : RemoteMcpToolSpec) : RemoteMcpCallTarget where
  serverId := spec.serverId
  recordRevision := spec.recordRevision
  serverLabel := spec.serverLabel
  allowedTools := spec.allowedTools
  approval := spec.approval

/-- Whether `validate_remote_mcp_allowed_tool_name` accepts a name. -/
def remoteMcpToolNameIsValid (name : String) : Bool :=
  name ≠ "" && name.utf8ByteSize ≤ remoteMcpAllowedToolMaxLen &&
    !name.toList.any (fun c => isWhitespace c || c.toNat < 32 || (127 ≤ c.toNat && c.toNat < 160))

/-- `resolve_injected_runtime_mcp`. -/
def resolveInjectedRuntimeMcp (s : CoreAgentState) (toolId : ToolId) (exposedName : ToolName) :
    Option (RemoteMcpToolSpec × String) := do
  let tool ← s.tooling.tools.get? toolId
  match tool.kind with
  | .remoteMcp spec =>
    let namePrefix := (toolId ++ "__").toList
    if spec.execution = .runtime ∧ spec.exposure = .inject ∧
        namePrefix.isPrefixOf exposedName.toList then
      let remoteName := String.ofList (exposedName.toList.drop namePrefix.length)
      if spec.allowedTools.all (fun allowed => remoteName ∈ allowed) ∧
          remoteMcpToolNameIsValid remoteName then some (spec, remoteName)
      else none
    else none
  | _ => none

/-- The decision of a run-owned approval of a batch's call. -/
def ApprovalRecord.runtimeDecision (record : ApprovalRecord) (batchId : ToolBatchId)
    (callId : ToolCallId) : Option (Option Bool) :=
  match record.request.continuation with
  | .runtimeMcp b c =>
    if b = batchId ∧ c = callId then
      some (match record.status with
        | .approved => some true
        | .rejected => some false
        | .pending | .cancelled => none)
    else none
  | .providerMcp _ => none

/-- `remote_mcp_call_runtime`. -/
def remoteMcpCallRuntime (s : CoreAgentState) (batchId : ToolBatchId) (call : ObservedToolCall) :
    Option RemoteMcpCallRuntime := do
  let toolId ← call.toolId
  let decision := (s.runs.active.bind fun run =>
    run.approvals.values.findSome? (fun record => record.runtimeDecision batchId call.callId)).join
  match resolveInjectedRuntimeMcp s toolId call.toolName with
  | some (spec, remoteName) => some (.injected (remoteMcpTarget spec) remoteName decision)
  | none =>
    if toolId = mcpFindToolsToolId ∨ toolId = mcpCallToolId then
      let targets := s.tooling.tools.values.filterMap fun tool =>
        match tool.kind with
        | .remoteMcp spec =>
          if spec.execution = .runtime ∧ spec.exposure = .search then some (remoteMcpTarget spec)
          else none
        | _ => none
      if targets = [] then none else some (.search targets decision)
    else none

/-- `in_flight_invocation_count`. -/
def inFlightInvocationCount (s : CoreAgentState) (runId : RunId) (toolId : WorkflowToolId) : Nat :=
  (s.workflowTools.invocations.filter fun invocation =>
    invocation.runId == runId && invocation.workflowToolId == toolId &&
      invocation.promiseIds.any (fun id =>
        (s.promises.promises.get? id).any (fun promise => !promise.status.isTerminal))).length

structure WorkflowToolCallRuntime where
  binding : WorkflowToolBinding
  inFlightInvocationCount : Nat

structure BuiltinToolCallRuntime where
  settings : String
  model : Option ModelSelection

structure ToolInvocationRequest where
  callId : ToolCallId
  toolId : Option ToolId
  toolName : ToolName
  argumentsRef : BlobRef
  builtin : Option BuiltinToolCallRuntime
  workflowTool : Option WorkflowToolCallRuntime
  remoteMcp : Option RemoteMcpCallRuntime

structure ToolInvocationBatchRequest where
  sessionId : SessionId
  runId : RunId
  turnId : TurnId
  batchId : ToolBatchId
  activeEnvironmentId : Option EnvironmentId
  environmentPolicy : Option EnvironmentsFeature
  codeModePolicy : Option CodeModeFeature
  promiseIdBase : Nat
  calls : List ToolInvocationRequest

/-- The request of one call, in `tool_invocation_request`. -/
def callInvocationRequest (s : CoreAgentState) (run : ActiveRun) (batchId : ToolBatchId)
    (call : ObservedToolCall) : ToolInvocationRequest where
  callId := call.callId
  toolId := call.toolId
  toolName := call.toolName
  argumentsRef := call.argumentsRef
  builtin := (call.toolId.bind s.tooling.tools.get?).bind fun tool =>
    match tool.kind with
    | .builtin settings =>
      some { settings
             model := run.runConfig.modelOverride.or
               (s.lifecycle.config.map (fun config => config.model)) }
    | _ => none
  workflowTool := (call.toolId.bind s.workflowTools.bindingForToolId).map fun binding =>
    { binding
      inFlightInvocationCount :=
        inFlightInvocationCount s run.runId binding.definition.workflowToolId }
  remoteMcp := remoteMcpCallRuntime s batchId call

/-- `tool_invocation_request`. -/
def toolInvocationRequest (s : CoreAgentState) (sessionId : SessionId) (runId : RunId)
    (turnId : TurnId) (batchId : ToolBatchId) (promiseIdBase : Nat)
    (calls : List ObservedToolCall) : Result ToolInvocationBatchRequest := do
  let run ← orError (s.runs.active.filter (fun run => run.runId == runId))
    (violation "tool invocation requires its active run")
  .ok { sessionId, runId, turnId, batchId, promiseIdBase
        activeEnvironmentId := s.environment.activeEnvironmentId
        environmentPolicy := s.lifecycle.config.bind (fun config => config.features.environments)
        codeModePolicy := s.lifecycle.config.bind (fun config => config.features.codeMode)
        calls := calls.map (callInvocationRequest s run batchId) }

/-- `next_tool_batch_request` of `drive.rs`. -/
def nextToolBatchRequest (sessionId : SessionId) (s : CoreAgentState) :
    Result (Option ToolInvocationBatchRequest) :=
  match s.runs.active with
  | none => .ok none
  | some run =>
    if run.status ≠ .running then .ok none
    else
      match run.activeToolBatchId with
      | none => .ok none
      | some batchId => do
        let batch ← orError (run.toolBatches.get? batchId)
          (violation s!"active tool batch {batchId} is missing")
        let calls := (batch.calls.filter (fun call => call.status == .pending)).map
          (fun call => call.call)
        if run.isParkedOn batchId ∨ calls = [] then .ok none
        else do
          let request ← toolInvocationRequest s sessionId batch.runId batch.turnId batch.batchId
            (max batch.promiseIdBase (saturatingAdd64 s.idCursors.lastPromiseId 1)) calls
          .ok (some request)

end Lightspeed.Harness
