import Lightspeed.Bots.Ids
import Lightspeed.Lib.Framing

/-!
# Workflow and schedule ids

A workflow id is the universe, a slash, and a segment: that of a bot's controller, of a trigger's fires
or of its schedule, or a session's own id. The segment of a trigger joins two names by a dash, which
either name may hold, so it is one trigger's only where neither bot is named like the other with the
first part of a trigger's name behind it.
-/

namespace Lightspeed.Bots

/-! ## Universes -/

def isHexDigit (ch : Char) : Bool := ch.isDigit || ('a' ≤ ch && ch ≤ 'f')

/-- Lowercase hexadecimal digits, in groups of eight, four, four, four and twelve. -/
def isHyphenated (text : String) : Bool :=
  text.toList.length == 36 &&
    text.toList.zipIdx.all fun (ch, index) =>
      if index ∈ [8, 13, 18, 23] then ch == '-' else isHexDigit ch

/-- A universe's id, as the text that it is shown as. -/
structure Uuid where
  text : String
  hyphenated : isHyphenated text = true

/-! ## Session ids -/

inductive StringIdError where
  | empty (kind : String)
  | tooLong (kind : String) (max actual : Nat)
  | invalidStart (kind : String)
  | invalidCharacter (kind : String) (index : Nat) (ch : Char) (allowed : String)

def generalStringIdMaxLen : Nat := 128

def generalStringIdAllowed : String := "ASCII letters, digits, '_', '-', '.', ':'"

def isGeneralIdChar (ch : Char) : Bool := ch.isAlphanum || ch ∈ ['_', '-', '.', ':']

/-- The first character of an id that it may not hold, at its byte. -/
def checkGeneralIdChars (kind : String) : Nat → List Char → Except StringIdError Unit
  | _, [] => .ok ()
  | index, ch :: rest =>
    if isGeneralIdChar ch then checkGeneralIdChars kind (index + ch.utf8Size) rest
    else .error (.invalidCharacter kind index ch generalStringIdAllowed)

def validateGeneralStringId (kind value : String) : Except StringIdError Unit :=
  match value.toList with
  | [] => .error (.empty kind)
  | first :: rest =>
    if value.utf8ByteSize > generalStringIdMaxLen then
      .error (.tooLong kind generalStringIdMaxLen value.utf8ByteSize)
    else if !first.isAlphanum then .error (.invalidStart kind)
    else checkGeneralIdChars kind 0 (first :: rest)

/-- The segments that are reserved for system workflows, which share a universe's ids with its
sessions. -/
def reservedSessionIdPrefixes : List String := ["bot-", "botfire-", "botsched-", "chat-", "envjob-"]

/-- Prefixes of the sessions that only the runtime creates. -/
def runtimeSessionIdPrefixes : List String := ["bot:v1:", "agent_"]

/-- Why a session is not started. -/
inductive SessionIdRefusal where
  | reserved (idPrefix : String)
  | invalid (error : StringIdError)
  | forbidden

/-- The id that the server gives to a session. -/
def allocatedSessionId (random : Uuid) : String :=
  "session_" ++ String.ofList (random.text.toList.filter (· ≠ '-'))

/-- The id that a client asks for, where it may have it. -/
def acceptSessionId (sessionId : String) : Except SessionIdRefusal String :=
  match reservedSessionIdPrefixes.find? fun idPrefix =>
      idPrefix.toList.isPrefixOf sessionId.toList with
  | some idPrefix => .error (.reserved idPrefix)
  | none =>
    match validateGeneralStringId "SessionId" sessionId with
    | .ok () => .ok sessionId
    | .error error => .error (.invalid error)

def chooseSessionId (requested : Option String) (random : Uuid) : Except SessionIdRefusal String :=
  match requested with
  | some sessionId => acceptSessionId sessionId
  | none => .ok (allocatedSessionId random)

/-- The id of a session that is started. -/
def startSessionId (requested : Option String) (random : Uuid) (controlled : Bool) :
    Except SessionIdRefusal String := do
  let sessionId ← chooseSessionId requested random
  if !controlled && runtimeSessionIdPrefixes.any fun idPrefix =>
      idPrefix.toList.isPrefixOf sessionId.toList then .error .forbidden
  else .ok sessionId

/-! ## Workflows and schedules -/

def botControllerWorkflowId (universeId : Uuid) (botId : BotId) : String :=
  universeId.text ++ "/bot-" ++ botId.value

/-- Base workflow id of a trigger's fires. -/
def botTriggerFireWorkflowId (universeId : Uuid) (botId : BotId) (triggerId : BotTriggerId) : String :=
  universeId.text ++ "/botfire-" ++ botId.value ++ "-" ++ triggerId.value

/-- The schedule of a trigger that fires by itself. -/
def botScheduleId (universeId : Uuid) (botId : BotId) (triggerId : BotTriggerId) : String :=
  universeId.text ++ "/botsched-" ++ botId.value ++ "-" ++ triggerId.value

def composeWorkflowId (universeId : Uuid) (sessionId : String) : String :=
  universeId.text ++ "/" ++ sessionId

/-- What precedes and what follows the first occurrence of a character. -/
def splitOnce (separator : Char) : List Char → Option (List Char × List Char)
  | [] => none
  | ch :: rest =>
    if ch = separator then some ([], rest)
    else (splitOnce separator rest).map fun (front, back) => (ch :: front, back)

def BotId.tryNew (value : String) : Except BotIdError BotId :=
  match h : validateBotName "bot id" value with
  | .ok () => .ok ⟨value, h⟩
  | .error error => .error error

/-- The universe and the bot of a controller's workflow id. Reading a universe's id is a parameter. -/
def splitBotControllerWorkflowId (parseStr : String → Option Uuid) (workflowId : String) :
    Option (Uuid × BotId) := do
  let (front, rest) ← splitOnce '/' workflowId.toList
  let universeId ← parseStr (String.ofList front)
  let name ← List.isPrefixOf? "bot-".toList rest
  let botId ← (BotId.tryNew (String.ofList name)).toOption
  some (universeId, botId)

/-! ## The segments -/

variable {parseStr : String → Option Uuid} {u : Uuid} {a b : BotId} {s t : BotTriggerId}
  {sessionId workflowId : String}

theorem BotId.tryNew_eq_ok {value : String} {botId : BotId} :
    BotId.tryNew value = .ok botId ↔ botId.value = value := by
  unfold BotId.tryNew
  split
  next h =>
    rw [Except.ok.injEq]
    constructor
    · rintro rfl
      rfl
    · intro hvalue
      exact BotId.ext_toList (by rw [hvalue])
  next error h =>
    refine ⟨fun heq => (nomatch heq), fun hvalue => ?_⟩
    have hvalid := botId.valid
    rw [hvalue, h] at hvalid
    cases hvalid

theorem splitOnce_eq_some {separator : Char} {chars front back : List Char} :
    splitOnce separator chars = some (front, back) ↔
      separator ∉ front ∧ chars = front ++ separator :: back := by
  induction chars generalizing front with
  | nil => simp [splitOnce]
  | cons ch rest ih =>
    unfold splitOnce
    cases front with
    | nil =>
      split_ifs with hch
      · simp [hch]
      · simp [hch]
    | cons first front =>
      split_ifs with hch
      · simp only [Option.some.injEq, Prod.mk.injEq, List.nil_eq, reduceCtorEq, false_and,
          List.cons_append, List.cons.injEq, List.mem_cons, not_or, false_iff]
        rintro ⟨⟨hfirst, -⟩, hsame, -⟩
        exact hfirst (hch.symm.trans hsame)
      · simp only [Option.map_eq_some_iff, Prod.exists, Prod.mk.injEq, List.cons.injEq,
          List.cons_append, List.mem_cons, not_or]
        constructor
        · rintro ⟨front', back', hsplit, ⟨rfl, rfl⟩, rfl⟩
          obtain ⟨hfront, rfl⟩ := ih.mp hsplit
          exact ⟨⟨Ne.symm hch, hfront⟩, rfl, rfl⟩
        · rintro ⟨⟨-, hfront⟩, rfl, hrest⟩
          exact ⟨front, back, ih.mpr ⟨hfront, hrest⟩, ⟨rfl, rfl⟩, rfl⟩

/-- A universe's text holds no slash. -/
theorem Uuid.slash_not_mem (u : Uuid) : '/' ∉ u.text.toList := by
  intro hmem
  have hall : u.text.toList.zipIdx.all (fun (ch, index) =>
      if index ∈ [8, 13, 18, 23] then ch == '-' else isHexDigit ch) = true :=
    ((Bool.and_eq_true _ _).mp u.hyphenated).2
  obtain ⟨index, hlt, hindex⟩ := List.mem_iff_getElem.mp hmem
  have hpair : ('/', index) ∈ u.text.toList.zipIdx := by
    rw [← hindex]
    exact List.mk_mem_zipIdx_iff_getElem?.mpr (List.getElem?_eq_getElem hlt)
  have hslash := List.all_eq_true.mp hall _ hpair
  dsimp only at hslash
  split_ifs at hslash
  · exact absurd hslash (by decide)
  · exact absurd hslash (by decide)

theorem BotTriggerId.ext_toList {a b : BotTriggerId} (h : a.value.toList = b.value.toList) :
    a = b := by
  cases a
  cases b
  rw [BotTriggerId.mk.injEq]
  exact String.toList_inj.mp h

/-- The trigger `s` of the bot `a` reads like the trigger `t` of the bot `b`: the name of `b` is that of
`a` with the first part of the name of `s` behind it, and the name of `t` is the rest. -/
def ReadsLike (a : BotId) (s : BotTriggerId) (b : BotId) (t : BotTriggerId) : Prop :=
  ∃ name : List Char, b.value.toList = a.value.toList ++ '-' :: name ∧
    s.value.toList = name ++ '-' :: t.value.toList

/-- Two names with a dash between them. -/
def joinNames (botId : BotId) (triggerId : BotTriggerId) : List Char :=
  botId.value.toList ++ '-' :: triggerId.value.toList

theorem joinNames_of_readsLike (h : ReadsLike a s b t) : joinNames a s = joinNames b t :=
  (Lib.CutLater.joined h).symm

/-- Two pairs of names that read the same are the same, unless one reads like the other. -/
theorem joinNames_eq_iff :
    joinNames a s = joinNames b t ↔ (a = b ∧ s = t) ∨ ReadsLike a s b t ∨ ReadsLike b t a s := by
  have hbot : a.value.toList = b.value.toList ↔ a = b :=
    ⟨BotId.ext_toList, congrArg fun botId : BotId => botId.value.toList⟩
  have htrigger : s.value.toList = t.value.toList ↔ s = t :=
    ⟨BotTriggerId.ext_toList, congrArg fun triggerId : BotTriggerId => triggerId.value.toList⟩
  unfold joinNames
  rw [Lib.append_cons_eq_iff, hbot, htrigger]
  exact or_congr_right or_comm

theorem not_readsLike_self : ¬ ReadsLike a s a t := fun h => (Lib.CutLater.length_lt h).false

theorem botScheduleId_toList : (botScheduleId u a s).toList =
    u.text.toList ++ '/' :: ("botsched-".toList ++ joinNames a s) := by
  have hseparator : "/botsched-".toList = '/' :: "botsched-".toList := by decide
  have hdash : "-".toList = ['-'] := by decide
  unfold botScheduleId joinNames
  simp only [String.toList_append, hseparator, hdash, List.append_assoc, List.cons_append,
    List.nil_append]

theorem botTriggerFireWorkflowId_toList : (botTriggerFireWorkflowId u a s).toList =
    u.text.toList ++ '/' :: ("botfire-".toList ++ joinNames a s) := by
  have hseparator : "/botfire-".toList = '/' :: "botfire-".toList := by decide
  have hdash : "-".toList = ['-'] := by decide
  unfold botTriggerFireWorkflowId joinNames
  simp only [String.toList_append, hseparator, hdash, List.append_assoc, List.cons_append,
    List.nil_append]

theorem botControllerWorkflowId_toList : (botControllerWorkflowId u a).toList =
    u.text.toList ++ '/' :: ("bot-".toList ++ a.value.toList) := by
  have hseparator : "/bot-".toList = '/' :: "bot-".toList := by decide
  unfold botControllerWorkflowId
  simp only [String.toList_append, hseparator, List.append_assoc, List.cons_append]

theorem composeWorkflowId_toList : (composeWorkflowId u sessionId).toList =
    u.text.toList ++ '/' :: sessionId.toList := by
  have hslash : "/".toList = ['/'] := by decide
  unfold composeWorkflowId
  simp only [String.toList_append, hslash, List.append_assoc, List.cons_append, List.nil_append]

/-! ## Families of ids -/

/-- The kinds of workflows and schedules of a universe. -/
inductive WorkflowFamily where
  | controller
  | fire
  | schedule
  | session
  deriving DecidableEq

/-- The ids of a kind. A session's is one that a session was started with. -/
inductive WorkflowFamily.Has (u : Uuid) : WorkflowFamily → String → Prop
  | controller (botId : BotId) : Has u .controller (botControllerWorkflowId u botId)
  | fire (botId : BotId) (triggerId : BotTriggerId) :
    Has u .fire (botTriggerFireWorkflowId u botId triggerId)
  | schedule (botId : BotId) (triggerId : BotTriggerId) :
    Has u .schedule (botScheduleId u botId triggerId)
  | session (requested : Option String) (random : Uuid) (controlled : Bool) (sessionId : String)
      (h : startSessionId requested random controlled = .ok sessionId) :
    Has u .session (composeWorkflowId u sessionId)

/-- Two texts that are neither the beginning of the other do not begin one text. -/
theorem not_both_prefixes {left right segment : List Char} (hleft : left <+: segment)
    (h : ¬ left <+: right ∧ ¬ right <+: left) : ¬ right <+: segment := fun hright =>
  (List.prefix_or_prefix_of_prefix hleft hright).elim h.1 h.2

/-- An allocated id is none of the reserved ones. -/
theorem allocatedSessionId_free (random : Uuid) :
    ∀ idPrefix ∈ reservedSessionIdPrefixes,
      ¬ idPrefix.toList <+: (allocatedSessionId random).toList := by
  have hstart : "session_".toList <+: (allocatedSessionId random).toList := by
    unfold allocatedSessionId
    rw [String.toList_append]
    exact List.prefix_append _ _
  intro idPrefix hmem
  refine not_both_prefixes hstart ?_
  revert idPrefix
  decide

theorem acceptSessionId_eq_ok {requested : String} (h : acceptSessionId requested = .ok sessionId) :
    sessionId = requested ∧
      ∀ idPrefix ∈ reservedSessionIdPrefixes, ¬ idPrefix.toList <+: requested.toList := by
  unfold acceptSessionId at h
  split at h
  · cases h
  next hfind =>
    split at h
    · refine ⟨(Except.ok.inj h).symm, fun idPrefix hmem hprefix => ?_⟩
      exact List.find?_eq_none.mp hfind idPrefix hmem (List.isPrefixOf_iff_prefix.mpr hprefix)
    · cases h

/-- No session is started with an id that is reserved. -/
theorem startSessionId_free {requested : Option String} {random : Uuid} {controlled : Bool}
    (h : startSessionId requested random controlled = .ok sessionId) :
    ∀ idPrefix ∈ reservedSessionIdPrefixes, ¬ idPrefix.toList <+: sessionId.toList := by
  unfold startSessionId at h
  cases hchosen : chooseSessionId requested random with
  | error refusal =>
    rw [hchosen] at h
    cases h
  | ok chosen =>
    have hsame : sessionId = chosen := by
      rw [hchosen] at h
      simp only [bind, Except.bind] at h
      split_ifs at h
      exact (Except.ok.inj h).symm
    rw [hsame]
    cases requested with
    | none =>
      have hallocated : allocatedSessionId random = chosen := Except.ok.inj hchosen
      rw [← hallocated]
      exact allocatedSessionId_free random
    | some requested =>
      obtain ⟨rfl, hfree⟩ := acceptSessionId_eq_ok hchosen
      exact hfree

/-- What stands behind the slash. -/
theorem WorkflowFamily.Has.segment {family : WorkflowFamily} (h : family.Has u workflowId) :
    ∃ segment : List Char, workflowId.toList = u.text.toList ++ '/' :: segment ∧
      match family with
      | .controller => "bot-".toList <+: segment
      | .fire => "botfire-".toList <+: segment
      | .schedule => "botsched-".toList <+: segment
      | .session => ∀ idPrefix ∈ reservedSessionIdPrefixes, ¬ idPrefix.toList <+: segment := by
  cases h with
  | controller botId =>
    exact ⟨_, botControllerWorkflowId_toList, List.prefix_append _ _⟩
  | fire botId triggerId =>
    exact ⟨_, botTriggerFireWorkflowId_toList, List.prefix_append _ _⟩
  | schedule botId triggerId => exact ⟨_, botScheduleId_toList, List.prefix_append _ _⟩
  | session requested random controlled sessionId h =>
    exact ⟨_, composeWorkflowId_toList, startSessionId_free h⟩

/-- No id is of two kinds. -/
theorem WorkflowFamily.Has.unique {f g : WorkflowFamily} (hf : f.Has u workflowId)
    (hg : g.Has u workflowId) : f = g := by
  obtain ⟨left, hleft, hfleft⟩ := hf.segment
  obtain ⟨right, hright, hgright⟩ := hg.segment
  have hsame : left = right := by
    rw [hleft] at hright
    exact (List.cons.inj (List.append_cancel_left hright)).2
  subst hsame
  have hcf : ¬ "bot-".toList <+: "botfire-".toList ∧ ¬ "botfire-".toList <+: "bot-".toList := by
    decide
  have hcs : ¬ "bot-".toList <+: "botsched-".toList ∧ ¬ "botsched-".toList <+: "bot-".toList := by
    decide
  have hfs : ¬ "botfire-".toList <+: "botsched-".toList ∧
      ¬ "botsched-".toList <+: "botfire-".toList := by decide
  cases f <;> cases g <;> dsimp only at hfleft hgright
  case controller.controller | fire.fire | schedule.schedule | session.session => rfl
  case controller.fire => exact absurd hgright (not_both_prefixes hfleft hcf)
  case controller.schedule => exact absurd hgright (not_both_prefixes hfleft hcs)
  case controller.session => exact absurd hfleft (hgright _ (by decide))
  case fire.controller => exact absurd hfleft (not_both_prefixes hgright hcf)
  case fire.schedule => exact absurd hgright (not_both_prefixes hfleft hfs)
  case fire.session => exact absurd hfleft (hgright _ (by decide))
  case schedule.controller => exact absurd hfleft (not_both_prefixes hgright hcs)
  case schedule.fire => exact absurd hfleft (not_both_prefixes hgright hfs)
  case schedule.session => exact absurd hfleft (hgright _ (by decide))
  case session.controller => exact absurd hgright (hfleft _ (by decide))
  case session.fire => exact absurd hgright (hfleft _ (by decide))
  case session.schedule => exact absurd hgright (hfleft _ (by decide))

/-! ## Reading a controller's id -/

/-- A text is read as a controller's id exactly when it is one, up to the spelling of its universe. -/
theorem splitBotControllerWorkflowId_eq_some {botId : BotId} :
    splitBotControllerWorkflowId parseStr workflowId = some (u, botId) ↔
      ∃ spelling : String, '/' ∉ spelling.toList ∧ parseStr spelling = some u ∧
        workflowId = spelling ++ "/bot-" ++ botId.value := by
  have hslash : "/bot-".toList = '/' :: "bot-".toList := by decide
  unfold splitBotControllerWorkflowId
  simp only [Option.bind_eq_bind, Option.bind_eq_some_iff, Prod.exists, Option.some.injEq,
    Prod.mk.injEq]
  constructor
  · rintro ⟨front, rest, hsplit, universeId, hparse, name, hname, botId', hbot, rfl, rfl⟩
    obtain ⟨hfront, hworkflow⟩ := splitOnce_eq_some.mp hsplit
    have hrest := List.isPrefixOf?_eq_some_iff_append_eq.mp hname
    have hvalue : botId'.value = String.ofList name :=
      BotId.tryNew_eq_ok.mp (eq_ok_of_toOption hbot)
    refine ⟨String.ofList front, by rwa [String.toList_ofList], hparse, ?_⟩
    refine String.toList_inj.mp ?_
    simp only [hworkflow, hvalue, String.toList_append, hslash, String.toList_ofList, ← hrest,
      List.append_assoc, List.cons_append]
  · rintro ⟨spelling, hspelling, hparse, rfl⟩
    refine ⟨spelling.toList, "bot-".toList ++ botId.value.toList, ?_, u, ?_, botId.value.toList, ?_,
      botId, ?_, rfl, rfl⟩
    · refine splitOnce_eq_some.mpr ⟨hspelling, ?_⟩
      rw [String.toList_append, String.toList_append, hslash, List.append_assoc, List.cons_append]
    · rwa [String.ofList_toList]
    · exact List.isPrefixOf?_eq_some_iff_append_eq.mpr rfl
    · rw [String.ofList_toList, BotId.tryNew_eq_ok.mpr rfl]
      rfl

/-! ## Identities of triggers -/

/-- What keeps two triggers of a universe, its kinds of workflows, and its controllers apart. -/
structure TriggerIdentities (parseStr : String → Option Uuid) (u : Uuid) (a : BotId)
    (s : BotTriggerId) (b : BotId) (t : BotTriggerId) : Prop where
  schedules : botScheduleId u a s = botScheduleId u b t → a = b ∧ s = t
  fires : botTriggerFireWorkflowId u a s = botTriggerFireWorkflowId u b t → a = b ∧ s = t
  families : ∀ (f g : WorkflowFamily) (workflowId : String),
    f.Has u workflowId → g.Has u workflowId → f = g
  round : ∀ botId, splitBotControllerWorkflowId parseStr (botControllerWorkflowId u botId) =
    some (u, botId)
  read : ∀ workflowId botId, splitBotControllerWorkflowId parseStr workflowId = some (u, botId) ↔
    ∃ spelling : String, '/' ∉ spelling.toList ∧ parseStr spelling = some u ∧
      workflowId = spelling ++ "/bot-" ++ botId.value

/-- The identities keep two triggers apart exactly when neither reads like the other. -/
theorem trigger_identities_iff (hparse : ∀ universeId : Uuid, parseStr universeId.text = some universeId) :
    TriggerIdentities parseStr u a s b t ↔ ¬ ReadsLike a s b t ∧ ¬ ReadsLike b t a s := by
  have hschedule : botScheduleId u a s = botScheduleId u b t ↔ joinNames a s = joinNames b t := by
    rw [← String.toList_inj, botScheduleId_toList, botScheduleId_toList]
    simp
  have hfire : botTriggerFireWorkflowId u a s = botTriggerFireWorkflowId u b t ↔
      joinNames a s = joinNames b t := by
    rw [← String.toList_inj, botTriggerFireWorkflowId_toList, botTriggerFireWorkflowId_toList]
    simp
  constructor
  · intro h
    have hdistinct : ∀ hjoin : joinNames a s = joinNames b t, a = b ∧ s = t := fun hjoin =>
      h.schedules (hschedule.mpr hjoin)
    constructor
    · intro hreads
      obtain ⟨rfl, rfl⟩ := hdistinct (joinNames_of_readsLike hreads)
      exact not_readsLike_self hreads
    · intro hreads
      obtain ⟨rfl, rfl⟩ := hdistinct (joinNames_of_readsLike hreads).symm
      exact not_readsLike_self hreads
  · rintro ⟨hab, hba⟩
    have hdistinct : joinNames a s = joinNames b t → a = b ∧ s = t := by
      intro hjoin
      rcases joinNames_eq_iff.mp hjoin with h | h | h
      · exact h
      · exact absurd h hab
      · exact absurd h hba
    refine ⟨fun h => hdistinct (hschedule.mp h), fun h => hdistinct (hfire.mp h),
      fun f g workflowId => WorkflowFamily.Has.unique, fun botId => ?_,
      fun workflowId botId => splitBotControllerWorkflowId_eq_some⟩
    exact splitBotControllerWorkflowId_eq_some.mpr ⟨u.text, u.slash_not_mem, hparse u, rfl⟩

/-- Reads a universe's id where it is spelled as it is shown. -/
def parseHyphenated (text : String) : Option Uuid :=
  if h : isHyphenated text = true then some ⟨text, h⟩ else none

/-- Two triggers of one bot. -/
theorem trigger_identities_iff_triage :
    TriggerIdentities parseHyphenated ⟨"6f3a1a52-58c1-4f0e-9c2d-1a2b3c4d5e6f", by decide +kernel⟩
        triage ⟨"nightly", by decide +kernel⟩
        triage ⟨"hourly", by decide +kernel⟩ ↔
      ¬ ReadsLike triage ⟨"nightly", by decide +kernel⟩
          triage ⟨"hourly", by decide +kernel⟩ ∧
        ¬ ReadsLike triage ⟨"hourly", by decide +kernel⟩
          triage ⟨"nightly", by decide +kernel⟩ :=
  trigger_identities_iff fun universeId => dif_pos universeId.hyphenated

/-- The trigger `b-c` of the bot `a` and the trigger `c` of the bot `a-b` have one schedule, and one
base workflow for their fires. -/
theorem trigger_identities_shared :
    botScheduleId ⟨"6f3a1a52-58c1-4f0e-9c2d-1a2b3c4d5e6f", by decide +kernel⟩
        botA ⟨"b-c", by decide +kernel⟩ =
      botScheduleId ⟨"6f3a1a52-58c1-4f0e-9c2d-1a2b3c4d5e6f", by decide +kernel⟩
        ⟨"a-b", by decide +kernel⟩ ⟨"c", by decide +kernel⟩ ∧
    botTriggerFireWorkflowId ⟨"6f3a1a52-58c1-4f0e-9c2d-1a2b3c4d5e6f", by decide +kernel⟩
        botA ⟨"b-c", by decide +kernel⟩ =
      botTriggerFireWorkflowId ⟨"6f3a1a52-58c1-4f0e-9c2d-1a2b3c4d5e6f", by decide +kernel⟩
        ⟨"a-b", by decide +kernel⟩ ⟨"c", by decide +kernel⟩ := by
  decide +kernel

def sampleUniverse : Uuid := ⟨"6f3a1a52-58c1-4f0e-9c2d-1a2b3c4d5e6f", by decide +kernel⟩

end Lightspeed.Bots
