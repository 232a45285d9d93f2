import Lightspeed.Harness.Requests

/-!
# Admission policy

What a new document must satisfy before it enters the log: the session and run configuration of
`components/config.rs`, the tool map and patch of `components/tooling.rs`, and the workflow-tool
declarations of `components/workflow_tool.rs`. The reducer repeats none of this, so that an old log
replays under a newer policy. A digest is identified with the text that it digests.
-/

namespace Lightspeed.Harness

open Lib

def currentFeatureVersion : Nat := 1
def minOpenaiResponsesCompactThreshold : Nat := 1000
def minAnthropicMessagesCompactThreshold : Nat := 50000
def maxApprovalNoteBytes : Nat := 2000
def toolNameMaxLen : Nat := 64
def generalStringIdMaxLen : Nat := 128

/-! ## Texts -/

def isAsciiAlphanumeric (c : Char) : Bool :=
  ('a' ≤ c && c ≤ 'z') || ('A' ≤ c && c ≤ 'Z') || ('0' ≤ c && c ≤ '9')

/-- The characters of a component. -/
def isComponentChar (c : Char) : Bool := isAsciiAlphanumeric c || c ∈ ['_', '-', '.']

/-- The first character that is not allowed, with its byte index. -/
def invalidChar (allowed : Char → Bool) (index : Nat) : List Char → Option (Nat × Char)
  | [] => none
  | c :: rest => if allowed c then invalidChar allowed (index + c.utf8Size) rest else some (index, c)

/-- A bounded text that starts with a letter or a digit and has only allowed characters. -/
def validateText (kind value : String) (maxLen : Nat) (allowedText : String)
    (allowed : Char → Bool) : Result Unit := do
  let size := value.utf8ByteSize
  require (value ≠ "") (violation s!"{kind} must not be empty")
  require (size ≤ maxLen) (violation s!"{kind} is too long: {size} bytes, max {maxLen}")
  require (value.toList.head?.any isAsciiAlphanumeric)
    (violation s!"{kind} must start with an ASCII letter or digit")
  match invalidChar allowed 0 value.toList with
  | none => .ok ()
  | some (index, c) =>
    let quoted := c.quote
    .error (violation
      s!"{kind} contains invalid character {quoted} at byte {index}; allowed: {allowedText}")

/-- `validate_component`, as every caller uses it. -/
def validateComponent (kind value : String) (maxLen : Nat) : Result Unit :=
  validateText kind value maxLen "ASCII letters, digits, '_', '-', '.'" isComponentChar

/-- `validate_general_string_id`. -/
def validateGeneralStringId (kind value : String) : Result Unit :=
  validateText kind value generalStringIdMaxLen "ASCII letters, digits, '_', '-', '.', ':'"
    (fun c => isComponentChar c || c == ':')

/-- `validate_note` of `components/approval.rs`. -/
def validateNote (note : Option String) : Result Unit :=
  match note with
  | none => .ok ()
  | some note => do
    let size := note.utf8ByteSize
    require (trim note = note ∧ note ≠ "")
      (violation "approval note must be non-empty and trimmed when present")
    require (size ≤ maxApprovalNoteBytes)
      (violation s!"approval note is too long: {size} bytes, max {maxApprovalNoteBytes}")

/-! ## Session and run configuration -/

/-- `validate_max_turns`. -/
def validateMaxTurns (maxTurns : Option Nat) : Result Unit :=
  require (maxTurns ≠ some 0)
    (violation "maxTurns must be at least 1; leave it unset for no limit")

/-- Whether an API kind is one of OpenAI's. -/
def ProviderApiKind.isOpenAi : ProviderApiKind → Bool
  | .openAiResponses | .openAiCompletions => true
  | .anthropicMessages => false

/-- `validate_generation`. -/
def validateGeneration (generation : GenerationConfig) (model : ModelSelection) :
    Result Unit := do
  require (¬ generation.reasoningEffort.any (fun effort => trim effort == ""))
    (violation "reasoning_effort must be a non-empty string when set")
  require (¬ (generation.processingTier.isSome ∧
      (model.providerId ≠ "openai" ∨ ¬ model.apiKind.isOpenAi)))
    (.providerCompatibility
      "processing tier is supported only by the built-in openai provider")

/-- `validate_context_config`, with the checks of its policies. -/
def validateContextConfig (context : ContextConfig) (apiKind : ProviderApiKind) :
    Result Unit := do
  let kind := apiKind.debug
  let openAiMin := minOpenaiResponsesCompactThreshold
  let anthropicMin := minAnthropicMessagesCompactThreshold
  require (context.inputLimitTokens ≠ some 0)
    (.providerCompatibility "input_limit_tokens must be positive")
  match context.compaction, apiKind with
  | none, _ | some .disabled, _ => .ok ()
  | some (.providerTriggered threshold), .openAiResponses =>
    require (¬ threshold.any (fun tokens => tokens < openAiMin))
      (.providerCompatibility
        s!"OpenAI Responses compact_threshold_tokens must be at least {openAiMin} when set")
  | some (.providerTriggered threshold), .anthropicMessages =>
    require (¬ threshold.any (fun tokens => tokens < anthropicMin))
      (.providerCompatibility
        s!"Anthropic Messages compact_threshold_tokens must be at least {anthropicMin} when set")
  | some (.providerTriggered _), .openAiCompletions =>
    .error (.providerCompatibility ("provider-triggered compaction requires OpenAI Responses or " ++
      s!"Anthropic Messages api kind, got {kind}"))
  | some (.providerStandalone threshold targetTokens), _ => do
    require (threshold ≠ some 0)
      (.providerCompatibility ("provider-standalone compaction compact_threshold_tokens must be " ++
        "greater than 0 when set"))
    require (targetTokens ≠ some 0)
      (.providerCompatibility
        "provider-standalone compaction target_tokens must be greater than 0 when set")

/-- `validate_feature_version`. -/
def validateFeatureVersion (feature : String) (version : Nat) : Result Unit :=
  require (version = currentFeatureVersion)
    (violation (s!"unsupported {feature} feature version {version}; supported: " ++
      toString currentFeatureVersion))

/-- Whether `ToolName::try_new` accepts a text. -/
def isToolName (name : String) : Bool :=
  name ≠ "" && name.utf8ByteSize ≤ toolNameMaxLen && name.toList.all isComponentChar

/-- `CodeModeFeature::validate`, less the execution limits. -/
def CodeModeFeature.validate (feature : CodeModeFeature) : Result Unit := do
  validateFeatureVersion "code_mode" feature.version
  require (feature.allowedTools.all (fun allowed =>
      allowed.length ≤ 4096 && allowed.all isToolName && decide allowed.Nodup))
    (violation ("code mode allowed tools must contain at most 4096 unique valid logical tool " ++
      "ids"))

/-- `U+0000`. -/
def nul : Char := Char.ofNat 0

/-- Whether a working directory is absolute, on either kind of host. -/
def isAbsoluteDirectory (path : String) : Bool :=
  match path.toList with
  | '/' :: rest => !rest.contains nul
  | drive :: ':' :: separator :: rest =>
    isAsciiAlphanumeric drive && !drive.isDigit && (separator == '/' || separator == '\\') &&
      !rest.contains nul
  | _ => false

/-- The loop of `validate_environment_attachments`. -/
def validateAttachments (seen : List String) : List EnvironmentAttachment → Result Unit
  | [] => .ok ()
  | attachment :: rest => do
    let id := attachment.environmentId
    match validateGeneralStringId "EnvironmentId" id with
    | .ok _ => .ok ()
    | .error error => .error (violation ("invalid environment attachment: " ++ error.message))
    require (id ∉ seen) (violation s!"environment {id} is attached more than once")
    require (attachment.workingDirectory.all isAbsoluteDirectory)
      (violation s!"environment {id} working directory must be absolute")
    validateAttachments (id :: seen) rest

/-- `validate_environment_attachments`. -/
def validateEnvironmentAttachments (attachments : List EnvironmentAttachment) : Result Unit := do
  validateAttachments [] attachments
  require (attachments.countP EnvironmentAttachment.default ≤ 1)
    (violation "at most one environment attachment may be the default")

/-- `validate_features`, on the features that the core reads. -/
def validateFeatures (features : FeaturesConfig) : Result Unit := do
  match features.codeMode with
  | none => .ok ()
  | some codeMode => codeMode.validate
  match features.environments with
  | none => .ok ()
  | some environments => do
    validateFeatureVersion "environments" environments.version
    validateEnvironmentAttachments environments.environments

/-- `SessionConfig::validate`. -/
def SessionConfig.validate (config : SessionConfig) : Result Unit := do
  validateMaxTurns config.limits.maxTurns
  validateGeneration config.generation config.model
  validateContextConfig config.context config.model.apiKind
  validateFeatures config.features

/-- `validate_config_update_for_state`. -/
def validateConfigUpdateForState (s : CoreAgentState) (config : SessionConfig) :
    Result Unit := do
  validateRecordedConfigUpdate s config
  config.validate

/-- `RunConfig::validate_provider_compatibility`. -/
def RunConfig.validateProviderCompatibility (runConfig : RunConfig) (model : ModelSelection) :
    Result Unit := do
  match runConfig.modelOverride with
  | some proposed => validateSessionProviderIsPinned model proposed
  | none => .ok ()
  require (¬ (runConfig.processingTier.isSome ∧ ¬ model.apiKind.isOpenAi))
    (.providerCompatibility "processing tier requires an OpenAI API kind")
  require (¬ (runConfig.processingTier.isSome ∧
      runConfig.modelOverride.any (fun model => model.providerId != "openai")))
    (.providerCompatibility
      "processing tier is supported only by the built-in openai provider")

/-- `validate_run_config_for_state`. -/
def validateRunConfigForState (s : CoreAgentState) (runConfig : RunConfig) : Result Unit := do
  validateMaxTurns runConfig.maxTurns
  let config ← currentConfig s
  runConfig.validateProviderCompatibility config.model
  let model := runConfig.modelOverride.getD config.model
  validateToolChoiceForTools s.tooling.tools runConfig.toolChoice
  validateToolsForApiKind s.tooling.tools.values model.apiKind

/-- `materialize_compaction_default`. -/
def materializeCompactionDefault (config : SessionConfig) : SessionConfig :=
  if config.context.compaction.isNone then
    { config with context := { config.context with
        compaction := some (.providerStandalone none none) } }
  else config

/-! ## Tools -/

/-- `validate_remote_mcp_server_label`. -/
def validateRemoteMcpServerLabel (label : String) : Result Unit := do
  require (label ≠ "" ∧ label.utf8ByteSize ≤ remoteMcpAllowedToolMaxLen)
    (violation "remote MCP server label must contain 1 to 128 bytes")
  require (label.toList.head?.any isAsciiAlphanumeric ∧
      label.toList.all (fun c => isAsciiAlphanumeric c || c == '_' || c == '-'))
    (violation ("remote MCP server label must start with an ASCII letter or digit and contain " ++
      "only ASCII letters, digits, '_' or '-'"))

/-- `validate_remote_mcp_allowed_tool_name`. -/
def validateRemoteMcpAllowedToolName (name : String) : Result Unit := do
  let size := name.utf8ByteSize
  let max := remoteMcpAllowedToolMaxLen
  require (name ≠ "") (violation "remote MCP allowed tool name must not be empty")
  require (size ≤ max)
    (violation s!"remote MCP allowed tool name is too long: {size} bytes, max {max}")
  require (¬ name.toList.any isWhitespace)
    (violation "remote MCP allowed tool name must not contain whitespace")
  require (¬ name.toList.any (fun c => c.toNat < 32 || (127 ≤ c.toNat && c.toNat < 160)))
    (violation "remote MCP allowed tool name must not contain control characters")

/-- The loop of `RemoteMcpToolSpec::validate` over the allowed tools. -/
def validateAllowedTools (seen : List String) : List String → Result Unit
  | [] => .ok ()
  | name :: rest => do
    validateRemoteMcpAllowedToolName name
    require (name ∉ seen)
      (violation s!"remote MCP allowed_tools contains duplicate tool name {name}")
    validateAllowedTools (name :: seen) rest

/-- `RemoteMcpToolSpec::validate`. -/
def RemoteMcpToolSpec.validate (spec : RemoteMcpToolSpec) : Result Unit := do
  validateGeneralStringId "remote MCP server id" spec.serverId
  require (spec.recordRevision ≠ 0) (violation "remote MCP record revision must be >= 1")
  validateRemoteMcpServerLabel spec.serverLabel
  match spec.allowedTools with
  | none => .ok ()
  | some allowed => do
    require (allowed ≠ []) (violation "remote MCP allowed_tools must not be empty when present")
    validateAllowedTools [] allowed
  require (¬ (spec.execution = .provider ∧ spec.exposure ≠ .inject))
    (violation "remote MCP exposure applies only to runtime execution")

/-- `ToolSpec::validate`. -/
def ToolSpec.validate (tool : ToolSpec) : Result Unit :=
  match tool.kind with
  | .builtin _ | .function _ | .providerNative _ => .ok ()
  | .remoteMcp spec => spec.validate

/-- The server label of a remote MCP tool. -/
def ToolSpec.serverLabel? (tool : ToolSpec) : Option String :=
  match tool.kind with
  | .remoteMcp spec => some spec.serverLabel
  | _ => none

/-- `validate_unique_remote_mcp_server_labels`. -/
def validateUniqueRemoteMcpServerLabels (seen : List (String × ToolId)) :
    List ToolSpec → Result Unit
  | [] => .ok ()
  | tool :: rest =>
    match tool.serverLabel? with
    | none => validateUniqueRemoteMcpServerLabels seen rest
    | some label => do
      let id := tool.id
      match seen.find? (fun e => e.1 == label) with
      | none => .ok ()
      | some (_, existing) =>
        .error (violation (s!"active tool set has duplicate remote MCP server label {label} " ++
          s!"for tools {existing} and {id}"))
      validateUniqueRemoteMcpServerLabels ((label, id) :: seen) rest

/-- The name prefix of the tools of an injected runtime MCP server. -/
def ToolSpec.injectedPrefix? (tool : ToolSpec) : Option (List Char) :=
  match tool.kind with
  | .remoteMcp spec =>
    if spec.execution = .runtime ∧ spec.exposure = .inject then some (tool.id ++ "__").toList
    else none
  | _ => none

/-- Whether one of two prefixes starts with the other. -/
def prefixesAreAmbiguous (a b : ToolSpec) : Bool :=
  match a.injectedPrefix?, b.injectedPrefix? with
  | some p, some q => p.isPrefixOf q || q.isPrefixOf p
  | _, _ => false

/-- `validate_unique_runtime_mcp_prefixes`. -/
def validateUniqueRuntimeMcpPrefixes : List ToolSpec → Result Unit
  | [] => .ok ()
  | tool :: rest => do
    let name := tool.id
    match rest.find? (prefixesAreAmbiguous tool) with
    | none => .ok ()
    | some other =>
      let otherName := other.id
      .error (violation s!"runtime MCP tool prefixes for {name} and {otherName} are ambiguous")
    validateUniqueRuntimeMcpPrefixes rest

/-- `validate_tool_map`. -/
def validateToolMap (tools : ToolMap) : Result Unit := do
  tools.entries.forM fun (key, tool) =>
    let id := tool.id
    require (id = key) (violation s!"tool map key {key} does not match tool name {id}")
  validateUniqueRemoteMcpServerLabels [] tools.values
  validateUniqueRuntimeMcpPrefixes tools.values
  tools.values.forM ToolSpec.validate

/-- The loop of `ToolPatch::validate_for` over what a patch writes. -/
def validateUpserts (seen : List ToolId) : List ToolSpec → Result Unit
  | [] => .ok ()
  | tool :: rest => do
    let id := tool.id
    tool.validate
    require (id ∉ seen) (violation s!"tool patch contains duplicate upsert {id}")
    validateUpserts (id :: seen) rest

/-- `ToolPatch::validate_for`. -/
def ToolPatch.validateFor (patch : ToolPatch) (tools : ToolMap) : Result Unit := do
  validateUpserts [] patch.upsert
  validateEach "tool patch contains duplicate remove" id
    (fun id => do
      require (id ∉ patch.upsert.map ToolSpec.id)
        (violation s!"tool patch cannot both upsert and remove {id}")
      require (tools.contains id) (violation s!"tool patch removes missing tool {id}"))
    [] patch.remove

/-- `ToolPatch::apply_to`. -/
def ToolPatch.applyTo (patch : ToolPatch) (tools : ToolMap) : Result ToolMap := do
  patch.validateFor tools
  validateToolMap (patch.mergedInto tools)
  .ok (patch.mergedInto tools)

end Lightspeed.Harness
