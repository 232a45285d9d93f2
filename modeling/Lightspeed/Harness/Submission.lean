import Lightspeed.Harness.State

/-!
# The record that a finished run keeps

A finished run keeps a digest of what was submitted, to tell a retry from a different request under
the same submission id, and its source without text previews. The digest is FNV-1a over the JSON form
of the submission, as `request_run_submission_digest` of `components/run.rs` computes it.
-/

namespace Lightspeed.Harness

open Lib

/-! ## Text -/

/-- `char::is_whitespace`: the Unicode property `White_Space`. -/
def isWhitespace (c : Char) : Bool :=
  (9 ≤ c.toNat && c.toNat ≤ 13) || (0x2000 ≤ c.toNat && c.toNat ≤ 0x200A) ||
    c.toNat ∈ [0x20, 0x85, 0xA0, 0x1680, 0x2028, 0x2029, 0x202F, 0x205F, 0x3000]

/-- `str::trim`, on characters. -/
def trimChars (cs : List Char) : List Char :=
  ((cs.dropWhile isWhitespace).reverse.dropWhile isWhitespace).reverse

/-- `str::trim`. -/
def trim (text : String) : String := String.ofList (trimChars text.toList)

/-- `char::to_ascii_lowercase`. -/
def toAsciiLowercase (c : Char) : Char :=
  if 'A' ≤ c ∧ c ≤ 'Z' then Char.ofNat (c.toNat + 32) else c

/-! ## JSON -/

/-- A lower-case hexadecimal digit. -/
def hexDigit (n : Nat) : Char := Char.ofNat (if n < 10 then 48 + n else 87 + n)

/-- The escapes of a JSON string. -/
def escapeChar (c : Char) : List Char :=
  if c = '"' then ['\\', '"']
  else if c = '\\' then ['\\', '\\']
  else if c.toNat = 8 then ['\\', 'b']
  else if c.toNat = 12 then ['\\', 'f']
  else if c = '\n' then ['\\', 'n']
  else if c = '\r' then ['\\', 'r']
  else if c = '\t' then ['\\', 't']
  else if c.toNat < 32 then ['\\', 'u', '0', '0', hexDigit (c.toNat / 16), hexDigit (c.toNat % 16)]
  else [c]

/-- A JSON string. -/
def jsonString (text : String) : String :=
  "\"" ++ String.ofList (text.toList.flatMap escapeChar) ++ "\""

/-- A JSON array. -/
def jsonArray (values : List String) : String := "[" ++ ",".intercalate values ++ "]"

/-- A JSON object. -/
def jsonObject (fields : List (String × String)) : String :=
  "\x7b" ++ ",".intercalate (fields.map (fun f => jsonString f.1 ++ ":" ++ f.2)) ++ "\x7d"

/-- A nullable JSON value. -/
def jsonOption {α : Type} (json : α → String) : Option α → String
  | none => "null"
  | some a => json a

/-- A field that is left out when it is absent. -/
def jsonField {α : Type} (name : String) (json : α → String) : Option α → List (String × String)
  | none => []
  | some a => [(name, json a)]

/-- A unit variant, or a variant with fields, of an externally tagged enumeration. -/
def jsonVariant (name : String) (fields : List (String × String)) : String :=
  jsonObject [(name, jsonObject fields)]

/-! ## What is submitted -/

def ProviderApiKind.json : ProviderApiKind → String
  | .openAiResponses => jsonString "open_ai_responses"
  | .anthropicMessages => jsonString "anthropic_messages"
  | .openAiCompletions => jsonString "open_ai_completions"

def ModelSelection.json (model : ModelSelection) : String :=
  jsonObject [("api_kind", model.apiKind.json), ("provider_id", jsonString model.providerId),
    ("model", jsonString model.model)]

def ModelProcessingTier.json : ModelProcessingTier → String
  | .standard => jsonString "standard"
  | .fast => jsonString "fast"
  | .flex => jsonString "flex"

def ToolChoice.json : ToolChoice → String
  | .auto => jsonString "auto"
  | .none => jsonString "none"
  | .requiredAny => jsonString "required_any"
  | .specific toolId => jsonVariant "specific" [("tool_id", jsonString toolId)]

def RunConfig.json (config : RunConfig) : String :=
  jsonObject
    (jsonField "max_turns" toString config.maxTurns ++
      jsonField "model_override" ModelSelection.json config.modelOverride ++
      jsonField "max_output_tokens" toString config.maxOutputTokens ++
      jsonField "reasoning_effort" jsonString config.reasoningEffort ++
      jsonField "processing_tier" ModelProcessingTier.json config.processingTier ++
      jsonField "tool_choice" ToolChoice.json config.toolChoice ++
      jsonField "parallel_tool_use" toString config.parallelToolUse)

def ContextEntryKind.json : ContextEntryKind → String
  | .message .user => jsonVariant "message" [("role", jsonString "user")]
  | .message .assistant => jsonVariant "message" [("role", jsonString "assistant")]
  | .instructions => jsonString "instructions"
  | .catalog title => jsonVariant "catalog" [("title", jsonString title)]
  | .toolCall callId name =>
    jsonVariant "tool_call" [("call_id", jsonString callId), ("name", jsonString name)]
  | .toolResult callId isError =>
    jsonVariant "tool_result" [("call_id", jsonString callId), ("is_error", toString isError)]
  | .reasoningState => jsonString "reasoning_state"
  | .providerOpaque => jsonString "provider_opaque"
  | .mcpApprovalResponse id approve =>
    jsonVariant "mcp_approval_response"
      [("approval_request_id", jsonString id), ("approve", toString approve)]

def BlobRef.json (ref : BlobRef) : String := jsonString ref.content

def ContentRef.json (content : ContentRef) : String :=
  jsonObject [("content_ref", content.contentRef.json),
    ("media_type", jsonOption jsonString content.mediaType),
    ("provider_kind", jsonOption jsonString content.providerKind)]

def TokenEstimateQuality.json : TokenEstimateQuality → String
  | .exact => jsonString "exact"
  | .providerCounted => jsonString "provider_counted"
  | .estimated => jsonString "estimated"

def TokenEstimate.json (estimate : TokenEstimate) : String :=
  jsonObject [("tokens", toString estimate.tokens), ("quality", estimate.quality.json)]

def ContextEntryInput.json (input : ContextEntryInput) : String :=
  jsonObject (jsonField "origin" jsonString input.origin ++
    [("kind", input.kind.json), ("content", input.content.json),
      ("preview", jsonOption jsonString input.preview),
      ("provenance_ref", jsonOption BlobRef.json input.provenanceRef),
      ("token_estimate", jsonOption TokenEstimate.json input.tokenEstimate)])

def RunSource.json (source : RunSource) : String :=
  jsonObject [("type", jsonString "input"),
    ("input", jsonArray (source.input.map ContextEntryInput.json))]

def RunTerminalNotifyIntent.json (intent : RunTerminalNotifyIntent) : String :=
  jsonObject [("holder_workflow_id", jsonString intent.holderWorkflowId),
    ("token", jsonString intent.token)]

/-! ## The digest and the source -/

def fnvOffset : Nat := 0xcbf29ce484222325
def fnvPrime : Nat := 0x00000100000001b3

/-- `submission_digest_json`: FNV-1a with 64 bits. -/
def submissionDigestJson (json : String) : Nat :=
  json.toByteArray.data.toList.foldl
    (fun hash byte => ((hash ^^^ byte.toNat) * fnvPrime) % u64Bound) fnvOffset

/-- `request_run_submission_digest`. -/
def requestRunSubmissionDigest (source : RunSource) (runConfig : RunConfig)
    (notifyOnTerminal : List RunTerminalNotifyIntent) : Nat :=
  submissionDigestJson (jsonArray [jsonString "request_run", source.json, runConfig.json,
    jsonArray (notifyOnTerminal.map RunTerminalNotifyIntent.json)])

/-- `normalized_media_type` of `media.rs`. -/
def normalizedMediaType (mediaType : String) : String :=
  String.ofList ((trimChars (mediaType.toList.takeWhile (fun c => c ≠ ';'))).map toAsciiLowercase)

/-- `is_media_content` of `media.rs`: an image or a PDF that providers take natively. -/
def isMediaContent (content : ContentRef) : Bool :=
  content.mediaType.any fun mediaType =>
    normalizedMediaType mediaType ∈
      ["image/jpeg", "image/png", "image/webp", "image/gif", "application/pdf"]

/-- `compact_terminal_source`: a finished run keeps the previews of media only. -/
def compactTerminalSource (source : RunSource) : RunSource where
  input := source.input.map fun entry =>
    if isMediaContent entry.content then entry else { entry with preview := none }

end Lightspeed.Harness
