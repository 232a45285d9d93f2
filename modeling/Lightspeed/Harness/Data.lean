import Mathlib.Data.String.Basic
import Lightspeed.Lib.Result
import Lightspeed.Lib.OrdMap

/-!
# The data of the harness core

The values that the session state machine of `crates/harness/src/core` carries: identifiers, content
references, context entries, session and run configuration, tools, promises, and the results of
generations and tool calls. Identifiers that the harness counts up (`RunId`, `TurnId`, ...) are
natural numbers. A promise number is chosen by an executor, so `PromiseId` keeps the bound of its
64-bit representation. A blob reference and a request fingerprint are SHA-256 digests in the source,
and are identified here with what they digest.
-/

namespace Lightspeed.Harness

open Lib

/-! ## Errors -/

/-- `DomainError` of `components/error.rs`. -/
inductive DomainError where
  | invariantViolation (message : String)
  | eventOrdering (message : String)
  | providerCompatibility (message : String)
  deriving DecidableEq

/-- What a reducer or a planner returns. A planner's own `PlanningError::Rejected` is raised only
when serialization fails, which it does not, so a planner's error is a domain error too. -/
abbrev Result (α : Type) := Except DomainError α

/-- `CommandRejectionKind` of `components/error.rs`. -/
inductive CommandRejectionKind where
  | sessionLifecycle
  | activeWork
  | missingActiveRun
  | unknownReference
  | invalid
  | providerCompatibility
  | duplicateSubmission
  | revisionConflict
  | conflict
  | approvalAlreadyTerminal
  | refused
  | internal

/-- `CommandError` of `components/error.rs`: a rejection in the caller's terms, or a domain error. -/
inductive CommandError where
  | rejected (kind : CommandRejectionKind) (message : String)
  | domain (error : DomainError)

/-- The text of a domain error. -/
def DomainError.message : DomainError → String
  | .invariantViolation m | .eventOrdering m | .providerCompatibility m => m

/-! ## Identifiers -/

abbrev RunId := Nat
abbrev SteeringId := Nat
abbrev TurnId := Nat
abbrev ToolBatchId := Nat
abbrev ContextEntryId := Nat
abbrev EventSeq := Nat
abbrev SessionId := String
abbrev SubmissionId := String
abbrev ApprovalId := String
abbrev ContextEntryKey := String
abbrev EnvironmentId := String
abbrev ToolCallId := String
abbrev ToolId := String
abbrev ToolName := String
abbrev WorkflowToolId := String
abbrev WorkflowToolInvocationId := String

/-- The number of values of a `u64`. -/
def u64Bound : Nat := 2 ^ 64

theorem one_lt_u64Bound : 1 < u64Bound := by decide

/-- The number of values of a `u32`. -/
def u32Bound : Nat := 2 ^ 32

/-- `u32::saturating_add`. -/
def saturatingAdd32 (a b : Nat) : Nat := min (a + b) (u32Bound - 1)

/-- `u64::saturating_add`. -/
def saturatingAdd64 (a b : Nat) : Nat := min (a + b) (u64Bound - 1)

/-- `u64::checked_add`. -/
def checkedAdd64 (a b : Nat) : Option Nat := if a + b < u64Bound then some (a + b) else none

/-- The id of the `n`th approval, in the only form `validate_approval_id` accepts. -/
def approvalId (n : Nat) : ApprovalId := "approval_" ++ toString n

/-- `PromiseId` of `components/promise.rs`: `promise_` and the decimal form of a `u64`, ordered by
that number. -/
structure PromiseId where
  number : Nat
  bound : number < u64Bound
  deriving DecidableEq

theorem PromiseId.number_injective : Function.Injective PromiseId.number := by
  rintro ⟨a, ha⟩ ⟨b, hb⟩ h
  cases h
  rfl

instance : LinearOrder PromiseId :=
  LinearOrder.lift' PromiseId.number PromiseId.number_injective

/-- The text of a promise id. -/
def PromiseId.text (id : PromiseId) : String := "promise_" ++ toString id.number

/-- `IdCursors` of `components/ids.rs`. -/
structure IdCursors where
  lastRunId : Nat := 0
  lastSteeringId : Nat := 0
  lastTurnId : Nat := 0
  lastToolBatchId : Nat := 0
  lastContextEntryId : Nat := 0
  lastPromiseId : Nat := 0
  lastApprovalId : Nat := 0

/-! ## Content -/

/-- A content-addressed blob reference, identified with the content that it addresses. -/
structure BlobRef where
  content : String
  deriving DecidableEq

/-- `BlobRef::from_bytes`. -/
def BlobRef.fromBytes (content : String) : BlobRef := ⟨content⟩

/-- `ContentRef` of `blob.rs`. -/
structure ContentRef where
  contentRef : BlobRef
  mediaType : Option String := none
  providerKind : Option String := none
  deriving DecidableEq

inductive TokenEstimateQuality where
  | exact
  | providerCounted
  | estimated
  deriving DecidableEq

structure TokenEstimate where
  tokens : Nat
  quality : TokenEstimateQuality
  deriving DecidableEq

inductive ContextMessageRole where
  | user
  | assistant
  deriving DecidableEq

/-- `ContextEntryKind` of `components/context.rs`. -/
inductive ContextEntryKind where
  | message (role : ContextMessageRole)
  | instructions
  | catalog (title : String)
  | toolCall (callId : ToolCallId) (name : ToolName)
  | toolResult (callId : ToolCallId) (isError : Bool)
  | reasoningState
  | providerOpaque
  | mcpApprovalResponse (approvalRequestId : String) (approve : Bool)
  deriving DecidableEq

/-- `ContextEntrySource` of `components/context.rs`. -/
inductive ContextEntrySource where
  | contextEdit
  | runInput (runId : RunId) (inputIndex : Nat)
  | steering (runId : RunId) (steeringId : SteeringId) (inputIndex : Nat)
  | assistantOutput (runId : RunId) (turnId : TurnId)
  | approvalDecision (runId : RunId) (approvalId : ApprovalId)
  | tool (runId : RunId) (turnId : TurnId) (batchId : Option ToolBatchId)
  | reasoning (runId : RunId) (turnId : TurnId)
  | runtime (label : String)
  deriving DecidableEq

/-- `ContextEntryInput` of `components/context.rs`. -/
structure ContextEntryInput where
  kind : ContextEntryKind
  content : ContentRef
  preview : Option String := none
  origin : Option String := none
  provenanceRef : Option BlobRef := none
  tokenEstimate : Option TokenEstimate := none
  deriving DecidableEq

/-- `ContextEntry` of `components/context.rs`. -/
structure ContextEntry where
  entryId : ContextEntryId
  key : Option ContextEntryKey := none
  kind : ContextEntryKind
  source : ContextEntrySource
  content : ContentRef
  preview : Option String := none
  origin : Option String := none
  provenanceRef : Option BlobRef := none
  tokenEstimate : Option TokenEstimate := none
  supersedes : Option ContextEntryId := none
  deriving DecidableEq

/-- `ContextEntryInput::commit`. -/
def ContextEntryInput.commit (input : ContextEntryInput) (entryId : ContextEntryId)
    (key : Option ContextEntryKey) (source : ContextEntrySource)
    (supersedes : Option ContextEntryId) : ContextEntry where
  entryId := entryId
  key := key
  kind := input.kind
  source := source
  content := input.content
  preview := input.preview
  origin := input.origin
  provenanceRef := input.provenanceRef
  tokenEstimate := input.tokenEstimate
  supersedes := supersedes

/-! ## Configuration -/

inductive ProviderApiKind where
  | openAiResponses
  | anthropicMessages
  | openAiCompletions
  deriving DecidableEq

/-- The `Debug` form of an API kind. -/
def ProviderApiKind.debug : ProviderApiKind → String
  | .openAiResponses => "OpenAiResponses"
  | .anthropicMessages => "AnthropicMessages"
  | .openAiCompletions => "OpenAiCompletions"

structure ModelSelection where
  apiKind : ProviderApiKind
  providerId : String
  model : String
  deriving DecidableEq

inductive ModelProcessingTier where
  | standard
  | fast
  | flex
  deriving DecidableEq

/-- `ToolChoice` of `components/tooling.rs`. -/
inductive ToolChoice where
  | auto
  | none
  | requiredAny
  | specific (toolId : ToolId)
  deriving DecidableEq

structure GenerationConfig where
  maxOutputTokens : Option Nat := .none
  reasoningEffort : Option String := .none
  toolChoice : Option ToolChoice := .none
  parallelToolUse : Option Bool := .none
  processingTier : Option ModelProcessingTier := .none
  deriving DecidableEq

inductive CompactionPolicy where
  | disabled
  | providerTriggered (compactThresholdTokens : Option Nat)
  | providerStandalone (compactThresholdTokens targetTokens : Option Nat)
  deriving DecidableEq

structure ContextConfig where
  compaction : Option CompactionPolicy := none
  inputLimitTokens : Option Nat := none
  deriving DecidableEq

structure LimitsConfig where
  maxTurns : Option Nat := none
  deriving DecidableEq

/-- `CodeModeFeature` of `components/config.rs`, with the grant that planning reads. -/
structure CodeModeFeature where
  version : Nat
  allowedTools : Option (List ToolId) := none
  deriving DecidableEq

structure EnvironmentAttachment where
  environmentId : String
  default : Bool := false
  workingDirectory : Option String := none
  deriving DecidableEq

/-- `EnvironmentsFeature` of `components/config.rs`, with the attachments that admission reads. -/
structure EnvironmentsFeature where
  version : Nat
  environments : List EnvironmentAttachment := []
  deriving DecidableEq

/-- `FeaturesConfig` of `components/config.rs`, with the two features that the core reads. -/
structure FeaturesConfig where
  codeMode : Option CodeModeFeature := none
  environments : Option EnvironmentsFeature := none
  deriving DecidableEq

structure SessionConfig where
  model : ModelSelection
  generation : GenerationConfig := {}
  limits : LimitsConfig := {}
  context : ContextConfig := {}
  features : FeaturesConfig := {}
  deriving DecidableEq

structure RunConfig where
  maxTurns : Option Nat := .none
  modelOverride : Option ModelSelection := .none
  maxOutputTokens : Option Nat := .none
  reasoningEffort : Option String := .none
  processingTier : Option ModelProcessingTier := .none
  toolChoice : Option ToolChoice := .none
  parallelToolUse : Option Bool := .none
  deriving DecidableEq

/-! ## Tools -/

structure FunctionToolSpec where
  descriptionRef : Option BlobRef := none
  inputSchemaRef : BlobRef
  outputSchemaRef : Option BlobRef := none
  strict : Option Bool := none
  providerOptionsRef : Option BlobRef := none
  deriving DecidableEq

inductive ProviderNativeToolExecution where
  | providerHosted
  | clientEffect
  deriving DecidableEq

structure ProviderNativeToolSpec where
  apiKind : ProviderApiKind
  nativeToolRef : BlobRef
  execution : ProviderNativeToolExecution
  deriving DecidableEq

inductive RemoteMcpExecution where
  | provider
  | runtime
  deriving DecidableEq

inductive RemoteMcpExposure where
  | inject
  | search
  deriving DecidableEq

inductive RemoteMcpApprovalPolicy where
  | never
  | always
  deriving DecidableEq

structure RemoteMcpToolSpec where
  serverId : String
  recordRevision : Nat
  serverLabel : String
  descriptionRef : Option BlobRef := none
  allowedTools : Option (List String) := none
  execution : RemoteMcpExecution := .runtime
  exposure : RemoteMcpExposure := .inject
  approval : RemoteMcpApprovalPolicy
  deferLoading : Option Bool := none
  deriving DecidableEq

inductive ToolKind where
  | builtin (settings : String)
  | function (spec : FunctionToolSpec)
  | providerNative (spec : ProviderNativeToolSpec)
  | remoteMcp (spec : RemoteMcpToolSpec)
  deriving DecidableEq

inductive ToolParallelism where
  | exclusive
  | parallelSafe
  deriving DecidableEq

inductive ToolExecutionClass where
  | interactive
  | remoteInteractive
  | process
  | bulk
  deriving DecidableEq

structure ToolExecutionSpec where
  class_ : ToolExecutionClass := .interactive
  retrySafe : Bool := false
  deriving DecidableEq

structure ToolSpec where
  id : ToolId
  kind : ToolKind
  parallelism : ToolParallelism := .parallelSafe
  execution : ToolExecutionSpec := {}
  deriving DecidableEq

/-- `ToolSpec::invokes_client_effect`. -/
def ToolSpec.invokesClientEffect (tool : ToolSpec) : Bool :=
  match tool.kind with
  | .builtin _ | .function _ => true
  | .providerNative native => native.execution == .clientEffect
  | .remoteMcp remote => remote.execution == .runtime

abbrev ToolMap := OrdMap ToolId ToolSpec

structure ToolPatch where
  upsert : List ToolSpec := []
  remove : List ToolId := []
  deriving DecidableEq

/-- `ObservedToolCall` of `components/tooling.rs`. -/
structure ObservedToolCall where
  callId : ToolCallId
  toolId : Option ToolId := none
  toolName : ToolName
  providerKind : Option String := none
  argumentsRef : BlobRef
  nativeCallRef : Option BlobRef := none
  deriving DecidableEq

/-- `ToolCallStatus` of `components/tooling.rs`. -/
inductive ToolCallStatus where
  | accepted
  | unavailable
  | pending
  | succeeded
  | failed
  | cancelled
  deriving DecidableEq

/-- `ToolCallStatus::is_terminal`. -/
def ToolCallStatus.isTerminal : ToolCallStatus → Bool
  | .unavailable | .succeeded | .failed | .cancelled => true
  | .accepted | .pending => false

/-- `ToolCallStatus::is_error`. -/
def ToolCallStatus.isError : ToolCallStatus → Bool
  | .succeeded => false
  | _ => true

end Lightspeed.Harness
