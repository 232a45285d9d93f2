import Lightspeed.Bots.Ids

/-!
# Inbound messages

What a connector hands to the core of one provider message, and the checks that it passes: every id is
there, a thread is not the empty one, and each attachment is of an admitted type and size. The lowercase
mapping of Unicode is a parameter.
-/

namespace Lightspeed.Channels

open Lightspeed.Bots (BotIdError validateBotName)

/-- A text, whose length in bytes is a machine word. -/
structure Text where
  value : String
  sized : value.utf8ByteSize < 2 ^ 64
  deriving DecidableEq

/-- The characters of a text. -/
def Text.chars (text : Text) : List Char := text.value.toList

theorem Text.ext_chars {s t : Text} (h : s.chars = t.chars) : s = t := by
  cases s
  cases t
  rw [Text.mk.injEq]
  exact String.toList_inj.mp h

/-- Authored channel account id, unique per universe. -/
structure ChannelAccountId where
  value : String
  valid : validateBotName "channel account id" value = .ok ()

/-- Chat provider name, an authored slug. -/
structure ChannelProvider where
  value : String
  valid : validateBotName "channel provider" value = .ok ()

inductive ChannelError where
  | invalidInput (message : String)
  deriving DecidableEq

/-! ## Attachments -/

inductive ChannelMediaKind where
  | image
  | audio
  | document
  deriving DecidableEq

/-- A provider-owned attachment reference, never bytes. -/
structure ChannelInboundMedia where
  fileId : String
  kind : ChannelMediaKind
  mime : String
  name : Option String := none
  byteSize : Option Nat := none
  deriving DecidableEq

def maxImageBytes : Nat := 10 * 1024 * 1024
def maxPdfBytes : Nat := 10 * 1024 * 1024
def maxTextDocumentBytes : Nat := 1024 * 1024
def maxAudioBytes : Nat := 25 * 1024 * 1024

/-- Attachments one provider message may carry. -/
def maxChannelMediaPerMessage : Nat := 8

def imageMimes : List String := ["image/jpeg", "image/png", "image/webp", "image/gif"]

def documentMimes : List String :=
  ["application/pdf", "text/plain", "text/markdown", "text/csv", "application/json"]

def documentMimeByExtension : List (String × String) :=
  [("pdf", "application/pdf"), ("txt", "text/plain"), ("text", "text/plain"), ("log", "text/plain"),
    ("md", "text/markdown"), ("markdown", "text/markdown"), ("csv", "text/csv"),
    ("json", "application/json")]

def audioMimes : List String :=
  ["audio/mpeg", "audio/mp4", "audio/wav", "audio/webm", "audio/ogg", "audio/aac", "audio/amr",
    "audio/3gpp", "audio/3gpp2"]

def audioMimeByExtension : List (String × String) :=
  [("mp3", "audio/mpeg"), ("mpeg", "audio/mpeg"), ("mpga", "audio/mpeg"), ("m4a", "audio/mp4"),
    ("mp4", "audio/mp4"), ("wav", "audio/wav"), ("wave", "audio/wav"), ("webm", "audio/webm"),
    ("oga", "audio/ogg"), ("ogg", "audio/ogg"), ("opus", "audio/ogg"), ("aac", "audio/aac"),
    ("amr", "audio/amr"), ("3gp", "audio/3gpp"), ("3gpp", "audio/3gpp"), ("3g2", "audio/3gpp2"),
    ("3gpp2", "audio/3gpp2")]

def audioMimeAliases : List (String × String) :=
  [("audio/mp3", "audio/mpeg"), ("audio/x-m4a", "audio/mp4"), ("audio/m4a", "audio/mp4"),
    ("audio/x-wav", "audio/wav"), ("audio/wave", "audio/wav"), ("audio/vnd.wave", "audio/wav"),
    ("audio/oga", "audio/ogg"), ("audio/opus", "audio/ogg"), ("audio/x-aac", "audio/aac"),
    ("audio/3gp", "audio/3gpp"), ("audio/3g2", "audio/3gpp2")]

def lookup (table : List (String × String)) (key : String) : Option String :=
  (table.find? fun entry => entry.1 = key).map (·.2)

def allowed (list : List String) (mime : String) : Option String := list.find? (· = mime)

/-- The characters with the Unicode property White_Space. -/
def isWhitespace (ch : Char) : Bool :=
  (9 ≤ ch.toNat && ch.toNat ≤ 13) || (0x2000 ≤ ch.toNat && ch.toNat ≤ 0x200A) ||
    ch.toNat ∈ [0x20, 0x85, 0xA0, 0x1680, 0x2028, 0x2029, 0x202F, 0x205F, 0x3000]

def trim (text : List Char) : List Char :=
  ((text.dropWhile isWhitespace).reverse.dropWhile isWhitespace).reverse

section

variable (lowercase : String → String)

/-- Lowercased media type without parameters. -/
def cleanMime (value : Option String) : Option String := do
  let mime := trim ((lowercase (← value)).toList.takeWhile (· ≠ ';'))
  if mime.isEmpty then none else some (String.ofList mime)

/-- Lowercased extension of a file name, when it has one that is not the whole name. -/
def extensionOf (fileName : Option String) : Option String := do
  let lowered := (lowercase (← fileName)).toList
  let extension := (lowered.reverse.takeWhile (· ≠ '.')).reverse
  if extension.isEmpty || extension = lowered then none else some (String.ofList extension)

def imageMime (reportedMime : Option String) : Option String := do
  allowed imageMimes (← cleanMime lowercase reportedMime)

/-- The file extension wins over the reported type. -/
def documentMime (fileName reportedMime : Option String) : Option String :=
  match (extensionOf lowercase fileName).bind (lookup documentMimeByExtension) with
  | some mime => some mime
  | none => (cleanMime lowercase reportedMime).bind (allowed documentMimes)

def audioMime (fileName reportedMime : Option String) : Option String :=
  match (extensionOf lowercase fileName).bind (lookup audioMimeByExtension) with
  | some mime => some mime
  | none => do
    let reported ← cleanMime lowercase reportedMime
    match lookup audioMimeAliases reported with
    | some normalized => allowed audioMimes normalized
    | none => allowed audioMimes reported

/-- The admitted type for a media kind, or nothing when unsupported. -/
def admittedMime (kind : ChannelMediaKind) (fileName : Option String) (reportedMime : String) :
    Option String :=
  match kind with
  | .image => imageMime lowercase (some reportedMime)
  | .audio => audioMime lowercase fileName (some reportedMime)
  | .document => documentMime lowercase fileName (some reportedMime)

def mediaByteLimit (kind : ChannelMediaKind) (mime : String) : Nat :=
  match kind with
  | .image => maxImageBytes
  | .audio => maxAudioBytes
  | .document => if mime = "application/pdf" then maxPdfBytes else maxTextDocumentBytes

def mediaKindStr : ChannelMediaKind → String
  | .image => "image"
  | .audio => "audio"
  | .document => "document"

/-- One attachment reference with its admitted type. -/
def validateInboundMedia (media : ChannelInboundMedia) : Except String ChannelInboundMedia :=
  if media.fileId.isEmpty then .error "media.fileId must be a non-empty string"
  else if media.mime.isEmpty then .error "media.mime must be a non-empty string"
  else if media.name.any (·.isEmpty) then .error "media.name must be a non-empty string"
  else
    match admittedMime lowercase media.kind media.name media.mime with
    | none => .error ("unsupported " ++ mediaKindStr media.kind ++ " MIME")
    | some mime =>
      let limit := mediaByteLimit media.kind mime
      if media.byteSize.any (limit < ·) then
        .error ("media exceeds the " ++ toString limit ++ " byte limit")
      else .ok { media with mime }

end

/-! ## Messages -/

/-- One normalized provider message. -/
structure ChannelInbound where
  messageId : Text
  chatId : Text
  threadId : Option Text := none
  senderId : Text
  senderName : Text
  timestampMs : Int
  text : String
  media : List ChannelInboundMedia := []
  isDirect : Bool := false
  mentionedBot : Bool := false
  isReplyToBot : Bool := false
  deriving DecidableEq

/-- The name of the first field that is the empty text. -/
def firstEmpty (fields : List (String × Text)) : Option String :=
  (fields.find? fun field => field.2.value.isEmpty).map (·.1)

/-- A connector's message with every attachment's admitted type. -/
def normalizeInbound (lowercase : String → String) (inbound : ChannelInbound) :
    Except ChannelError ChannelInbound :=
  match firstEmpty [("messageId", inbound.messageId), ("chatId", inbound.chatId),
      ("senderId", inbound.senderId), ("senderName", inbound.senderName)] with
  | some name => .error (.invalidInput (name ++ " must be a non-empty string"))
  | none =>
    if inbound.threadId.any (·.value.isEmpty) then
      .error (.invalidInput "threadId must be a non-empty string")
    else if inbound.timestampMs < 0 then
      .error (.invalidInput "timestampMs must not be negative")
    else if maxChannelMediaPerMessage < inbound.media.length then
      .error (.invalidInput ("channel inbound media must contain at most " ++
        toString maxChannelMediaPerMessage ++ " items"))
    else
      match inbound.media.mapM (validateInboundMedia lowercase) with
      | .error message => .error (.invalidInput message)
      | .ok media =>
        if inbound.text.isEmpty && media.isEmpty then
          .error (.invalidInput "channel inbound payload must contain text or media")
        else .ok { inbound with media }

variable {lowercase : String → String} {inbound normalized : ChannelInbound}

/-- An accepted message is the one that came in but for its attachments, and its thread is not the
empty text. -/
theorem normalizeInbound_eq_ok (h : normalizeInbound lowercase inbound = .ok normalized) :
    (∃ media, normalized = { inbound with media }) ∧
      ∀ thread ∈ normalized.threadId, thread.chars ≠ [] := by
  unfold normalizeInbound at h
  split at h
  · cases h
  · split_ifs at h with hthread
    split at h
    · cases h
    next media hmedia =>
      split_ifs at h
      obtain rfl := (Except.ok.inj h).symm
      refine ⟨⟨media, rfl⟩, fun thread hmem hempty => hthread ?_⟩
      have hvalue : thread.value.isEmpty = true := by
        rw [String.isEmpty_iff]
        exact String.toList_inj.mp hempty
      rw [Option.mem_def.mp hmem]
      exact hvalue

end Lightspeed.Channels
