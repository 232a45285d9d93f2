import Mathlib.Data.List.Sort
import Mathlib.Data.String.Basic

/-!
# The identities that the bots subsystem derives

Every id is a concatenation: the session prefix, the bot's name, and a suffix for the generation of
the main session, for a key or for an event. The digest is a parameter of the ids that use one.
-/

namespace Lightspeed.Bots

/-- A result that is not an error. -/
theorem eq_ok_of_toOption {ε α : Type} {result : Except ε α} {a : α} (h : result.toOption = some a) :
    result = .ok a := by
  cases result with
  | error error => cases h
  | ok made => exact congrArg Except.ok (Option.some.inj h)

/-! ## Authored names -/

inductive BotIdError where
  | empty (label : String)
  | invalidStart (label : String)
  | invalidCharacter (label : String) (index : Nat) (ch : Char)
  | tooLong (label : String) (max : Nat)
  deriving DecidableEq

def botIdMaxLen : Nat := 64

/-- A lowercase ASCII letter or a digit. -/
def isNameStart (ch : Char) : Bool := ch.isLower || ch.isDigit

/-- A character that a bot name may hold. -/
def isNameChar (ch : Char) : Bool := ch.isLower || ch.isDigit || ch == '-'

/-- The first character of a name that it may not hold, at its byte. -/
def checkNameChars (label : String) : Nat → List Char → Except BotIdError Unit
  | _, [] => .ok ()
  | index, ch :: rest =>
    if isNameChar ch then checkNameChars label (index + ch.utf8Size) rest
    else .error (.invalidCharacter label index ch)

def validateBotName (label value : String) : Except BotIdError Unit :=
  match value.toList with
  | [] => .error (.empty label)
  | first :: rest =>
    if value.utf8ByteSize > botIdMaxLen then .error (.tooLong label botIdMaxLen)
    else if !isNameStart first then .error (.invalidStart label)
    else checkNameChars label 0 (first :: rest)

/-- An authored bot id. -/
structure BotId where
  value : String
  /-- The name passes its check. -/
  valid : validateBotName "bot id" value = .ok ()
  deriving DecidableEq

/-- An authored trigger id, unique per bot. -/
structure BotTriggerId where
  value : String
  /-- The name passes its check. -/
  valid : validateBotName "trigger id" value = .ok ()

/-- What passes the check of the characters holds allowed ones only. -/
theorem checkNameChars_eq_ok {label : String} {index : Nat} {chars : List Char}
    (h : checkNameChars label index chars = .ok ()) : ∀ ch ∈ chars, isNameChar ch = true := by
  induction chars generalizing index with
  | nil => simp
  | cons ch rest ih =>
    rw [checkNameChars] at h
    split at h
    next hch => exact List.forall_mem_cons.mpr ⟨hch, ih h⟩
    · cases h

/-- A name that is accepted begins with a letter or a digit, and holds allowed characters only. -/
theorem validateBotName_eq_ok {label value : String} (h : validateBotName label value = .ok ()) :
    (∃ first rest, value.toList = first :: rest ∧ isNameStart first = true) ∧
      ∀ ch ∈ value.toList, isNameChar ch = true := by
  rw [validateBotName] at h
  split at h
  · cases h
  next first rest hvalue =>
    split_ifs at h with hlen hstart
    refine ⟨⟨first, rest, hvalue, by simpa using hstart⟩, ?_⟩
    rw [hvalue]
    exact checkNameChars_eq_ok h

/-- A bot id holds no colon, which is what separates it from a key or an event. -/
theorem BotId.colon_not_mem (botId : BotId) : ':' ∉ botId.value.toList := by
  intro hmem
  have : isNameChar ':' = true := (validateBotName_eq_ok botId.valid).2 ':' hmem
  exact absurd this (by decide)

theorem BotId.ext_toList {a b : BotId} (h : a.value.toList = b.value.toList) : a = b := by
  cases a
  cases b
  rw [BotId.mk.injEq]
  exact String.toList_inj.mp h

/-! ## Sessions -/

/-- The prefix that every session of a bot shares. -/
def botSessionPrefix : String := "bot:v1:"

/-- The bot's main session: its bare id for generation one, and a suffix after a rotation. -/
def botMainSessionId (botId : BotId) (generation : Nat) : String :=
  if generation ≤ 1 then botSessionPrefix ++ botId.value
  else botSessionPrefix ++ botId.value ++ "-g" ++ toString generation

/-- Whether the text holds the pattern. -/
def containsChars (pattern : List Char) : List Char → Bool
  | [] => pattern.isEmpty
  | ch :: rest => pattern.isPrefixOf (ch :: rest) || containsChars pattern rest

inductive BotSessionKind where
  | main
  | perKey
  | perEvent
  deriving DecidableEq

/-- The kind that a session id that the controller generated says, successors included. -/
def botSessionKind (sessionId : String) : BotSessionKind :=
  if containsChars [':', 'k', '-'] sessionId.toList then .perKey
  else if containsChars [':', 'e', '-'] sessionId.toList then .perEvent
  else .main

/-- Takes one character into a slug: what is not alphanumeric leaves a dash due. -/
def slugStep (slug : List Char × Bool) (ch : Char) : List Char × Bool :=
  let lower := ch.toLower
  if lower.isAlphanum then
    ((if slug.2 && !slug.1.isEmpty then slug.1 ++ ['-'] else slug.1) ++ [lower], false)
  else (slug.1, true)

def slugify (value : String) (maxLen : Nat) : String :=
  let slug := (value.toList.foldl slugStep ([], false)).1
  String.ofList ((slug.take maxLen).reverse.dropWhile (· == '-')).reverse

section

variable (sha256Hex : String → String)

def digestPrefix (value : String) (len : Nat) : String :=
  String.ofList ((sha256Hex value).toList.take len)

/-- Session id for a key: a readable slug, plus a digest so that distinct keys stay apart. -/
def botKeyedSessionId (botId : BotId) (key : String) : String :=
  let slug := slugify key 40
  let slug := if slug.isEmpty then "key" else slug
  botSessionPrefix ++ botId.value ++ ":k-" ++ slug ++ "-" ++ digestPrefix sha256Hex key 8

/-- Session id for one event. -/
def botPerEventSessionId (botId : BotId) (eventId : String) : String :=
  botSessionPrefix ++ botId.value ++ ":e-" ++ digestPrefix sha256Hex eventId 12

/-- The id of one polled item: retried fires and overlapping polls converge. -/
def pollEventId (triggerId : BotTriggerId) (itemKey : String) : String :=
  "poll:" ++ triggerId.value ++ ":" ++ digestPrefix sha256Hex itemKey 32

end

/-- What precedes and what follows the last `-g`. -/
def rsplitOnceGeneration : List Char → Option (List Char × List Char)
  | [] => none
  | ch :: rest =>
    match rsplitOnceGeneration rest with
    | some (base, generation) => some (ch :: base, generation)
    | none => (List.isPrefixOf? ['-', 'g'] (ch :: rest)).map fun generation => ([], generation)

/-- The base that routing and receipts address: the id without its generation suffix. -/
def routedSessionBase (sessionId : String) : String :=
  match rsplitOnceGeneration sessionId.toList with
  | none => sessionId
  | some (base, generation) =>
    if generation ≠ [] ∧ generation.all Char.isDigit then String.ofList base else sessionId

/-- The session id of a generation of a routed base id. -/
def routedSessionGenerationId (base : String) (generation : Nat) : String :=
  if generation ≤ 1 then base else base ++ "-g" ++ toString generation

/-- Whether a session id belongs to the bot: its main session, a generation of it, or a routed
session. -/
def isBotSession (botId : BotId) (sessionId : String) : Bool :=
  let base := botSessionPrefix ++ botId.value
  sessionId == base ||
    match List.isPrefixOf? base.toList sessionId.toList with
    | some rest => [':'].isPrefixOf rest || ['-', 'g'].isPrefixOf rest
    | none => false

/-! ## Deliveries and runs -/

section

variable (sha256Hex : String → String)

/-- The identity of a delivery: a single event keeps its id, and a batch does not depend on the order
of its events. The source never builds a delivery of no event. -/
def deliveryId : List String → String
  | [] => ""
  | [only] => only
  | many => "batch-" ++ sha256Hex ("\n".intercalate (many.insertionSort (· ≤ ·)))

/-- The notify token of the end of a delivery's run. -/
def deliveryTerminalToken (deliveryId : String) : String :=
  "bot-event-terminal-v1-" ++ sha256Hex deliveryId

end

/-! ## Sample names -/

def triage : BotId := ⟨"triage", by decide +kernel⟩

def botA : BotId := ⟨"a", by decide +kernel⟩

end Lightspeed.Bots
