import Lightspeed.Harness.Config

/-!
# Workflow tools: declarations and invocations

The admission half of `components/workflow_tool.rs`: what a declared workflow tool must satisfy, the
identities that are derived from it, and `validate_invoke_effect`, which checks the invocation that an
executor proposes against the binding, the call and the limit on invocations in flight.
-/

namespace Lightspeed.Harness

open Lib

def declaredToolDeclarationVersion : Nat := 1
def maxDeclaredTools : Nat := 32
def maxInFlightWorkflowToolInvocations : Nat := 32
def completionKeyMaxLen : Nat := 64
def workflowIdMaxLen : Nat := 512
def workflowKindMaxLen : Nat := 128
def semanticTypeMaxLen : Nat := 192
def recipeFingerprintMaxLen : Nat := 256
def reservedRunTerminalSemanticType : String := "lightspeed.run.terminal.v1"

/-! ## Declarations -/

/-- `WorkflowEndpointRef::validate`. -/
def WorkflowEndpointRef.validate (endpoint : WorkflowEndpointRef) : Result Unit := do
  let size := endpoint.workflowId.utf8ByteSize
  let max := workflowIdMaxLen
  require (endpoint.workflowId ≠ "") (violation "workflow endpoint id must not be empty")
  require (size ≤ max) (violation s!"workflow endpoint id is too long: {size} bytes, max {max}")
  validateComponent "workflow endpoint kind" endpoint.workflowKind workflowKindMaxLen

/-- `WorkflowStartRef::validate`. -/
def WorkflowStartRef.validate (start : WorkflowStartRef) : Result Unit := do
  let max := recipeFingerprintMaxLen
  require (start.recipeFormat ≠ 0 ∧ start.recipeRevision ≠ 0)
    (violation "workflow start recipe format and recipe revision must be greater than zero")
  require (start.recipeFingerprint ≠ "" ∧ start.recipeFingerprint.utf8ByteSize ≤ max)
    (violation s!"workflow start recipe fingerprint must be 1..={max} bytes")

/-- `WorkflowToolTarget::validate`. -/
def WorkflowToolTarget.validate : WorkflowToolTarget → Result Unit
  | .bound receiver _ => receiver.validate
  | .start ref => ref.validate

/-- `WorkflowToolTarget::bound_receiver`. -/
def WorkflowToolTarget.boundReceiver : WorkflowToolTarget → Option WorkflowEndpointRef
  | .bound receiver _ => some receiver
  | .start _ => none

/-- `validate_completion_pointer`. -/
def validateCompletionPointer (pointer : String) (maxPromises : Nat) : Result Unit := do
  require (pointer.toList.head? = some '/')
    (violation "workflow tool completion key pointer must be a JSON Pointer starting with '/'")
  require (2 ≤ maxPromises)
    (violation "workflow tool completion key pointer requires max_promises >= 2")

/-- `validate_completion_key`. -/
def validateCompletionKey (key : String) : Result Unit :=
  validateComponent "workflow tool completion key" key completionKeyMaxLen

/-- `WorkflowToolCompletionKeySource::validate`. -/
def WorkflowToolCompletionKeySource.validate (source : WorkflowToolCompletionKeySource)
    (maxPromises : Nat) : Result Unit :=
  match source with
  | .reply =>
    require (maxPromises = 1)
      (violation "workflow tool reply completion key source requires max_promises = 1")
  | .stringArray pointer => validateCompletionPointer pointer maxPromises
  | .arrayItemField pointer field => do
    validateCompletionPointer pointer maxPromises
    require (field ≠ "" ∧ '/' ∉ field.toList)
      (violation "workflow tool array-item completion key field must be a non-empty object key")
  | .arrayIndices pointer keyPrefix => do
    validateCompletionPointer pointer maxPromises
    match validateCompletionKey (keyPrefix ++ toString (maxPromises - 1)) with
    | .ok _ => .ok ()
    | .error error =>
      .error (violation
        ("workflow tool array-index completion key prefix is invalid: " ++ error.message))

/-- `WorkflowToolCompletion::validate`. -/
def WorkflowToolCompletion.validate : WorkflowToolCompletion → Result Unit
  | .accepted => .ok ()
  | .joined _ deadlineAfterMs =>
    require (deadlineAfterMs ≠ some 0)
      (violation "joined workflow tool completion requires a non-zero deadline_after_ms")
  | .promises _ _ maxPromises keySource => do
    let max := maxCompletionPromises
    require (maxPromises ≠ 0 ∧ maxPromises ≤ max)
      (violation s!"workflow tool completion max_promises must be 1..={max}")
    keySource.validate maxPromises

/-- `WorkflowToolCompletion::is_promise_bearing`. -/
def WorkflowToolCompletion.isPromiseBearing : WorkflowToolCompletion → Bool
  | .joined _ _ | .promises _ _ _ _ => true
  | .accepted => false

/-- The deadline of a completion. -/
def WorkflowToolCompletion.deadlineAfterMs : WorkflowToolCompletion → Option Nat
  | .joined _ deadline | .promises _ deadline _ _ => deadline
  | .accepted => none

/-- The texts between dots. -/
def segments (text : String) : List (List Char) := text.toList.splitOn '.'

/-- `validate_semantic_type`. -/
def validateSemanticType (value : String) : Result Unit := do
  validateComponent "workflow tool semantic type" value semanticTypeMaxLen
  let version := (segments value).getLast?.getD []
  require (3 ≤ (segments value).length ∧ [] ∉ segments value ∧ 2 ≤ version.length ∧
      version.head? = some 'v' ∧ version.tail.all Char.isDigit)
    (violation "workflow tool semantic type must be a dotted identifier ending in '.v<digits>'")
  require (value ≠ reservedRunTerminalSemanticType)
    (violation s!"workflow tool semantic type {value} is reserved by the emission substrate")

/-- Whether a workflow tool may have this kind. -/
def ToolKind.isFunction : ToolKind → Bool
  | .builtin _ | .function _ => true
  | _ => false

/-- `WorkflowToolDefinition::validate`. -/
def WorkflowToolDefinition.validate (definition : WorkflowToolDefinition) : Result Unit := do
  let id := definition.workflowToolId
  require (definition.schemaRevision ≠ 0)
    (violation s!"workflow tool {id} schema revision must be greater than zero")
  validateSemanticType definition.semanticType
  definition.tool.validate
  require definition.tool.kind.isFunction
    (violation s!"workflow tool {id} must use a function tool")

/-- `validate_target_completion`. -/
def validateTargetCompletion (id : WorkflowToolId) :
    WorkflowToolTarget → WorkflowToolCompletion → Result Unit
  | .bound _ .push, .joined _ none =>
    .error (violation (s!"workflow tool {id} joined on a bound receiver requires a hard " ++
      "deadline: a receiver that never answers has no recovery path"))
  | .bound _ .pull, .joined _ _ | .bound _ .pull, .promises _ _ _ _ =>
    .error (violation s!"workflow tool {id} pull dispatch supports Accepted completion only")
  | .start _, .accepted =>
    .error (violation (s!"workflow tool {id} fire-and-forget start targets are not supported; " ++
      "start targets require promise-bearing completion"))
  | _, _ => .ok ()

/-! ## Identities -/

/-- A digest, identified with the parts that it digests, each under its length. -/
def digestText (scheme : String) (parts : List String) : String :=
  parts.foldl (fun text part => text ++ toString part.utf8ByteSize ++ ":" ++ part) scheme

/-- `update_optional_part`. -/
def optionalParts {α : Type} (parts : α → List String) : Option α → List String
  | none => ["none"]
  | some a => "some" :: parts a

/-- `update_endpoint_fingerprint`. -/
def WorkflowEndpointRef.parts (endpoint : WorkflowEndpointRef) : List String :=
  [endpoint.workflowId, endpoint.workflowKind]

/-- `update_target_fingerprint`. -/
def WorkflowToolTarget.parts : WorkflowToolTarget → List String
  | .bound receiver dispatch =>
    ["bound"] ++ receiver.parts ++ [match dispatch with | .pull => "pull" | .push => "push"]
  | .start ref =>
    ["start", toString ref.recipeFormat, toString ref.recipeRevision, ref.recipeRef.content,
      ref.recipeFingerprint]

/-- The key source part of `update_completion_fingerprint`. -/
def WorkflowToolCompletionKeySource.parts : WorkflowToolCompletionKeySource → List String
  | .reply => ["reply"]
  | .stringArray pointer => ["string_array", pointer]
  | .arrayItemField pointer field => ["array_item_field", pointer, field]
  | .arrayIndices pointer keyPrefix => ["array_indices", pointer, keyPrefix]

/-- `update_completion_fingerprint`. -/
def WorkflowToolCompletion.parts : WorkflowToolCompletion → List String
  | .accepted => ["accepted"]
  | .joined schema deadline =>
    ["joined"] ++ optionalParts (fun ref => [ref.content]) schema ++
      [(deadline.map toString).getD "none"]
  | .promises schema deadline maxPromises keySource =>
    ["promises"] ++ optionalParts (fun ref => [ref.content]) schema ++
      optionalParts (fun ms => [toString ms]) deadline ++ [toString maxPromises] ++ keySource.parts

/-- The tool part of `update_definition_fingerprint`. -/
def ToolKind.parts : ToolKind → Result (List String)
  | .builtin settings => .ok ["builtin", settings]
  | .function spec =>
    .ok (["function"] ++ optionalParts (fun ref => [ref.content]) spec.descriptionRef ++
      [spec.inputSchemaRef.content] ++
      optionalParts (fun ref => [ref.content]) spec.outputSchemaRef ++
      [(spec.strict.map toString).getD "none"] ++
      optionalParts (fun ref => [ref.content]) spec.providerOptionsRef)
  | _ => .error (violation "workflow tool fingerprint requires a function definition")

/-- `binding_fingerprint`. -/
def bindingFingerprint (sessionUniverseId : String) (definition : WorkflowToolDefinition)
    (target : WorkflowToolTarget) (completion : WorkflowToolCompletion) : Result String := do
  let tool ← definition.tool.kind.parts
  let parallelism :=
    match definition.tool.parallelism with
    | .exclusive => "exclusive"
    | .parallelSafe => "parallel_safe"
  .ok (digestText "wtb:" ([sessionUniverseId, definition.workflowToolId,
    toString definition.schemaRevision, definition.semanticType, definition.tool.id] ++ tool ++
    [parallelism, "target_free"] ++ target.parts ++ completion.parts))

/-- `creation_fingerprint`. The bindings were admitted just before, so their own check passes. -/
def creationFingerprint (sessionUniverseId : String) (version : Nat)
    (controller : Option WorkflowEndpointRef) (bindings : List WorkflowToolBinding) : String :=
  digestText "dsc:" ([sessionUniverseId, toString version] ++
    optionalParts WorkflowEndpointRef.parts controller ++ [toString bindings.length] ++
    bindings.map (fun binding => binding.bindingFingerprint))

/-- `WorkflowToolInvocationId::for_call`. -/
def invocationIdForCall (sessionUniverseId : String) (sessionId : SessionId) (runId : RunId)
    (turnId : TurnId) (toolBatchId : ToolBatchId) (toolCallId : ToolCallId)
    (bindingFingerprint : String) : WorkflowToolInvocationId :=
  digestText "wti:" [sessionUniverseId, sessionId, toString runId, toString turnId,
    toString toolBatchId, toolCallId, bindingFingerprint]

/-- `workflow_tool_execution_id`. -/
def workflowToolExecutionId (invocationId : WorkflowToolInvocationId)
    (recipeFingerprint : String) : String :=
  digestText "wtx:" [invocationId, recipeFingerprint]

/-- `completion_promise_source`. -/
def completionPromiseSource (binding : WorkflowToolBinding) (invocation : WorkflowToolInvocation)
    (key : String) : PromiseSource :=
  match binding.target with
  | .bound receiver _ =>
    .workflow receiver.workflowId receiver.workflowKind invocation.invocationId key
  | .start ref =>
    .workflow (workflowToolExecutionId invocation.invocationId ref.recipeFingerprint)
      workflowToolExecutionKind invocation.invocationId key

/-! ## Admission -/

structure WorkflowToolDeclaration where
  definition : WorkflowToolDefinition
  target : WorkflowToolTarget
  completion : WorkflowToolCompletion

structure DeclaredSessionWorkflowTools where
  version : Nat
  lifecycleController : Option WorkflowEndpointRef := none
  tools : List WorkflowToolDeclaration

/-- Whether a completion creates promises with a deadline of zero. -/
def WorkflowToolCompletion.isZeroPromiseDeadline : WorkflowToolCompletion → Bool
  | .promises _ deadline _ _ => deadline == some 0
  | _ => false

/-- `WorkflowToolBinding::validate_policy`. -/
def WorkflowToolBinding.validatePolicy (binding : WorkflowToolBinding) : Result Unit := do
  let id := binding.definition.workflowToolId
  let kind := workflowToolExecutionKind
  require (¬ binding.target.boundReceiver.any (fun receiver => receiver.workflowKind == kind))
    (violation (s!"workflow tool {id} cannot bind a receiver of kind {kind}, which is reserved " ++
      "for system-started executions"))
  require (¬ binding.completion.isZeroPromiseDeadline)
    (violation s!"workflow tool {id} requires a non-zero promise deadline_after_ms")

/-- `WorkflowToolBinding::admit`. -/
def WorkflowToolDeclaration.toBinding (declaration : WorkflowToolDeclaration)
    (sessionUniverseId : String) : Result WorkflowToolBinding := do
  declaration.definition.validate
  declaration.target.validate
  declaration.completion.validate
  validateTargetCompletion declaration.definition.workflowToolId declaration.target
    declaration.completion
  let fingerprint ← bindingFingerprint sessionUniverseId declaration.definition declaration.target
    declaration.completion
  let binding : WorkflowToolBinding :=
    { sessionUniverseId, definition := declaration.definition, target := declaration.target
      completion := declaration.completion, bindingFingerprint := fingerprint }
  binding.validatePolicy
  .ok binding

/-- `validate_controller_self_receiver`. -/
def validateControllerSelfReceiver (binding : WorkflowToolBinding)
    (controller : Option WorkflowEndpointRef) : Result Unit :=
  let id := binding.definition.workflowToolId
  require (binding.target.boundReceiver ≠ controller ∨ controller.isNone ∨
      ¬ binding.completion.isPromiseBearing ∨
      binding.completion.deadlineAfterMs.any (fun deadline => 0 < deadline))
    (violation (s!"workflow tool {id} bound to the session's lifecycle controller requires a " ++
      "non-zero promise deadline_after_ms"))

/-- The loop of `DeclaredSessionWorkflowTools::admit`. -/
def admitDeclarations (sessionUniverseId : String) (controller : Option WorkflowEndpointRef)
    (ids : List WorkflowToolId) (names : List ToolId) :
    List WorkflowToolDeclaration → Result (List WorkflowToolBinding)
  | [] => .ok []
  | declaration :: rest => do
    let id := declaration.definition.workflowToolId
    let name := declaration.definition.tool.id
    require (id ∉ ids) (violation s!"session integration contains duplicate tool id {id}")
    require (name ∉ names) (violation s!"session integration contains duplicate tool name {name}")
    let binding ← declaration.toBinding sessionUniverseId
    validateControllerSelfReceiver binding controller
    let bindings ← admitDeclarations sessionUniverseId controller (id :: ids) (name :: names) rest
    .ok (binding :: bindings)

/-- `DeclaredSessionWorkflowTools::admit`, with the event that records what it admits. -/
def DeclaredSessionWorkflowTools.toEvent (declared : DeclaredSessionWorkflowTools)
    (sessionUniverseId : String) : Result WorkflowToolConfigEvent := do
  let version := declared.version
  let count := declared.tools.length
  let max := maxDeclaredTools
  require (version = declaredToolDeclarationVersion)
    (violation s!"unsupported session integration version {version}")
  match declared.lifecycleController with
  | none => .ok ()
  | some controller => controller.validate
  require (count ≤ max) (violation s!"session integration contains {count} tools, max {max}")
  let sorted := declared.tools.insertionSort
    (fun a b => a.definition.workflowToolId ≤ b.definition.workflowToolId)
  let bindings ← admitDeclarations sessionUniverseId declared.lifecycleController [] [] sorted
  .ok (.declaredBindingsAdmitted sessionUniverseId version declared.lifecycleController
    (creationFingerprint sessionUniverseId version declared.lifecycleController bindings) bindings)

/-! ## Invocations -/

/-- The loop of `validate_completion_promises` over the keys. -/
def validateKeyedPromises (seen : List PromiseId) : List (String × PromiseId) → Result Unit
  | [] => .ok ()
  | (key, promiseId) :: rest => do
    let text := promiseId.text
    validateCompletionKey key
    require (promiseId ∉ seen)
      (violation s!"workflow tool completion promise {text} is used for more than one key")
    validateKeyedPromises (promiseId :: seen) rest

/-- Whether a promise map has the single reserved key. -/
def isReplyMap (promises : OrdMap String PromiseId) : Bool :=
  promises.entries.length == 1 && promises.contains replyCompletionKey

/-- `validate_completion_promises`. -/
def validateCompletionPromises (completion : WorkflowToolCompletion)
    (promises : Option (OrdMap String PromiseId)) : Result Unit :=
  match completion, promises with
  | .accepted, none => .ok ()
  | .accepted, some _ =>
    .error (violation "accepted workflow tool invocation must not include completion promises")
  | _, none =>
    .error (violation
      "promise-bearing workflow tool invocation is missing its completion promises")
  | .joined _ _, some promises =>
    require (isReplyMap promises)
      (violation ("joined workflow tool invocation must use the single reserved completion key `" ++
        replyCompletionKey ++ "`"))
  | .promises _ _ maxPromises keySource, some promises => do
    let count := promises.entries.length
    require (promises.entries ≠ [])
      (violation "promise-bearing workflow tool invocation must create at least one promise")
    require (count ≤ maxPromises)
      (violation
        s!"workflow tool invocation creates {count} promises, binding allows {maxPromises}")
    require (¬ (keySource = .reply ∧ ¬ isReplyMap promises))
      (violation ("workflow tool reply key source must use the single reserved completion key `" ++
        replyCompletionKey ++ "`"))
    validateKeyedPromises [] promises.entries

/-- `in_flight_limit_message`. -/
def inFlightLimitMessage (toolId : WorkflowToolId) : String :=
  let max := maxInFlightWorkflowToolInvocations
  s!"workflow tool {toolId} already has {max} invocations in flight in this run; wait for one to " ++
    "finish before starting another"

/-- The joins that an executor's effect must carry: its session and the call that made it. -/
structure EffectOrigin where
  sessionId : SessionId
  runId : RunId
  turnId : TurnId
  batchId : ToolBatchId
  callId : ToolCallId

/-- The call behind an invoke effect, in `validate_invoke_effect`. -/
def validateInvokingCall (s : CoreAgentState) (run : ActiveRun) (origin : EffectOrigin)
    (binding : WorkflowToolBinding) (invocation : WorkflowToolInvocation) : Result Unit :=
  let batchId := origin.batchId
  let callId := origin.callId
  match codeToolCallForId s callId with
  | some (scope, call) => do
    validateCodeToolInvocation s scope call binding invocation
    require (call.status = .pending) (violation "code tool effect requires a pending call")
  | none => do
    let batch ← orError (run.toolBatches.get? batchId)
      (violation s!"workflow tool invoke effect references missing tool batch {batchId}")
    let call ← orError (batch.calls.find? (fun call => call.call.callId == callId))
      (violation s!"workflow tool invoke effect references missing tool call {callId}")
    require (call.call.toolId = some binding.definition.tool.id ∧
        call.call.argumentsRef = invocation.argumentsRef)
      (violation ("workflow tool invoke effect does not match its admitted tool identity and " ++
        "arguments"))

/-- `validate_invoke_effect`, which returns the binding that it found. -/
def validateInvokeEffect (s : CoreAgentState) (origin : EffectOrigin)
    (invocation : WorkflowToolInvocation) (inFlightInThisResult : Nat) :
    Result WorkflowToolBinding := do
  let toolId := invocation.workflowToolId
  require (invocation.sessionId = origin.sessionId ∧ invocation.runId = origin.runId ∧
      invocation.turnId = origin.turnId ∧ invocation.toolBatchId = origin.batchId ∧
      invocation.toolCallId = origin.callId)
    (violation
      "workflow tool invoke effect does not match its session/run/turn/batch/call joins")
  let binding ← orError (s.workflowTools.bindings.get? toolId)
    (violation s!"workflow tool invocation references unknown tool {toolId}")
  validateInvocationIdentity binding invocation
  validateCompletionPromises binding.completion invocation.completionPromises
  let run ← orError s.runs.active
    (violation "workflow tool invoke effect requires an active run")
  validateInvokingCall s run origin binding invocation
  require (invocation.invocationId = invocationIdForCall invocation.sessionUniverseId
      invocation.sessionId invocation.runId invocation.turnId invocation.toolBatchId
      invocation.toolCallId invocation.bindingFingerprint)
    (violation "workflow tool invocation id does not match its durable call identity")
  require (¬ (binding.completion.isPromiseBearing ∧
      maxInFlightWorkflowToolInvocations ≤
        inFlightInvocationCount s invocation.runId toolId + inFlightInThisResult))
    (violation (inFlightLimitMessage toolId))
  .ok binding

end Lightspeed.Harness
