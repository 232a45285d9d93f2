import Mathlib.Data.Prod.Lex
import Mathlib.Order.Lattice
import Lightspeed.Bots.Data
import Lightspeed.Lib.OrdMap

/-!
# The numbered event log

A bot's event rows, by event id, with an index by number. The rows and the index say the same, so that
a bot has at most one row of an id and at most one of a number.
-/

namespace Lightspeed.Bots

open Lib

/-! ## Rows -/

/-- Who hears back when the delivery of an event finishes. -/
inductive EventReceiver where
  | workflow (workflowId workflowKind token : String) (toolsRef : Option String)
  | bot (botId : BotId) (session : Option RoutedSession)
  deriving DecidableEq

def EventReceiver.toolsRef : EventReceiver → Option String
  | .workflow _ _ _ toolsRef => toolsRef
  | .bot .. => none

/-- One row of a bot's event log. -/
structure BotEventRecord where
  botId : BotId
  eventId : String
  seq : Nat
  documentRef : String
  session : Option RoutedSession
  hops : Nat
  receiver : Option EventReceiver
  outcome : Option BotEventOutcome
  deriving DecidableEq

def BotEventRecord.toolsRef (record : BotEventRecord) : Option String :=
  record.receiver.bind EventReceiver.toolsRef

inductive BotRefusalCode where
  | botClosed
  deriving DecidableEq

inductive BotError where
  | botAlreadyExists (botId : BotId)
  | botNotFound (botId : BotId)
  | invalidInput (message : String)
  | refused (code : BotRefusalCode) (message : String)
  | store (message : String)
  deriving DecidableEq

inductive InsertBotEventOutcome where
  | inserted (record : BotEventRecord)
  | duplicate (record : BotEventRecord)

/-! ## The store -/

instance : LinearOrder BotId :=
  LinearOrder.lift' BotId.value fun _ _ h => BotId.ext_toList (congrArg String.toList h)

abbrev EventKey := BotId ×ₗ String

abbrev SeqKey := BotId ×ₗ Nat

/-- The bots with their event counters, the rows by id, and the ids by number. -/
structure BotEventStore where
  eventSeqs : OrdMap BotId Nat := ∅
  events : OrdMap EventKey BotEventRecord := ∅
  seqs : OrdMap SeqKey String := ∅

namespace BotEventStore

def createBot (s : BotEventStore) (botId : BotId) : Except BotError BotEventStore :=
  if s.eventSeqs.contains botId then .error (.botAlreadyExists botId)
  else .ok { s with eventSeqs := s.eventSeqs.insert botId 0 }

/-- A bot goes with its rows. -/
def deleteBot (s : BotEventStore) (botId : BotId) : Except BotError BotEventStore :=
  if s.eventSeqs.contains botId then
    .ok
      { eventSeqs := s.eventSeqs.erase botId
        events := s.events.filter fun key _ => (ofLex key).1 ≠ botId
        seqs := s.seqs.filter fun key _ => (ofLex key).1 ≠ botId }
  else .error (.botNotFound botId)

def allocateBotEventSeq (s : BotEventStore) (botId : BotId) :
    Except BotError (BotEventStore × Nat) :=
  match s.eventSeqs.get? botId with
  | none => .error (.botNotFound botId)
  | some seq => .ok ({ s with eventSeqs := s.eventSeqs.insert botId (seq + 1) }, seq + 1)

/-- A row is inserted once for each id: a second insert returns the row that is there. -/
def insertBotEvent (s : BotEventStore) (record : BotEventRecord) :
    Except BotError (BotEventStore × InsertBotEventOutcome) :=
  if !s.eventSeqs.contains record.botId then .error (.botNotFound record.botId)
  else
    match s.events.get? (toLex (record.botId, record.eventId)) with
    | some stored => .ok (s, .duplicate stored)
    | none =>
      if s.seqs.contains (toLex (record.botId, record.seq)) then
        .error (.invalidInput ("bot event #" ++ toString record.seq ++ " of " ++ record.botId.value ++
          " already exists"))
      else
        .ok
          ({ s with
              seqs := s.seqs.insert (toLex (record.botId, record.seq)) record.eventId
              events := s.events.insert (toLex (record.botId, record.eventId)) record },
            .inserted record)

def deleteBotEvent (s : BotEventStore) (botId : BotId) (eventId : String) : BotEventStore × Bool :=
  match s.events.get? (toLex (botId, eventId)) with
  | none => (s, false)
  | some removed =>
    ({ s with
        events := s.events.erase (toLex (botId, eventId))
        seqs := s.seqs.erase (toLex (botId, removed.seq)) }, true)

/-! ## Rows and numbers -/

/-- Every row stands under its own id, and its number leads to it. -/
structure Consistent (s : BotEventStore) : Prop where
  keyed : ∀ key record, s.events.get? key = some record →
    key = toLex (record.botId, record.eventId)
  numbered : ∀ key record, s.events.get? key = some record →
    s.seqs.get? (toLex (record.botId, record.seq)) = some record.eventId

variable {s t : BotEventStore} {botId : BotId} {eventId : String} {record : BotEventRecord}

theorem consistent_empty : Consistent {} :=
  ⟨fun _ _ h => (nomatch h), fun _ _ h => (nomatch h)⟩

theorem consistent_createBot (h : Consistent s) (ht : s.createBot botId = .ok t) : Consistent t := by
  unfold createBot at ht
  split_ifs at ht
  obtain rfl := Except.ok.inj ht
  exact ⟨h.keyed, h.numbered⟩

theorem createBot_events (ht : s.createBot botId = .ok t) : t.events = s.events := by
  unfold createBot at ht
  split_ifs at ht
  obtain rfl := Except.ok.inj ht
  rfl

theorem consistent_allocate {seq : Nat} (h : Consistent s)
    (ht : s.allocateBotEventSeq botId = .ok (t, seq)) : Consistent t := by
  unfold allocateBotEventSeq at ht
  split at ht
  · cases ht
  · obtain ⟨rfl, -⟩ := Prod.mk.inj (Except.ok.inj ht)
    exact ⟨h.keyed, h.numbered⟩

theorem allocateBotEventSeq_events {seq : Nat} (ht : s.allocateBotEventSeq botId = .ok (t, seq)) :
    t.events = s.events := by
  unfold allocateBotEventSeq at ht
  split at ht
  · cases ht
  · obtain ⟨rfl, -⟩ := Prod.mk.inj (Except.ok.inj ht)
    rfl

/-- What an insert does: it finds the row, or adds it under a free id and a free number. -/
theorem insertBotEvent_eq_ok {outcome : InsertBotEventOutcome}
    (ht : s.insertBotEvent record = .ok (t, outcome)) :
    (∃ stored, s.events.get? (toLex (record.botId, record.eventId)) = some stored ∧ t = s ∧
        outcome = .duplicate stored) ∨
      (s.events.get? (toLex (record.botId, record.eventId)) = none ∧
        s.seqs.get? (toLex (record.botId, record.seq)) = none ∧
        t.events = s.events.insert (toLex (record.botId, record.eventId)) record ∧
        t.seqs = s.seqs.insert (toLex (record.botId, record.seq)) record.eventId ∧
        outcome = .inserted record) := by
  unfold insertBotEvent at ht
  rw [ite_eq_iff] at ht
  obtain ⟨-, ht⟩ | ⟨-, ht⟩ := ht
  · cases ht
  split at ht
  next stored hstored =>
    obtain ⟨rfl, rfl⟩ := Prod.mk.inj (Except.ok.inj ht)
    exact .inl ⟨stored, hstored, rfl, rfl⟩
  next hnone =>
    split_ifs at ht with hseq
    obtain ⟨rfl, rfl⟩ := Prod.mk.inj (Except.ok.inj ht)
    have hfree : s.seqs.get? (toLex (record.botId, record.seq)) = none := by
      rw [OrdMap.contains, Bool.not_eq_true, Option.isSome_eq_false_iff] at hseq
      exact Option.isNone_iff_eq_none.mp hseq
    exact .inr ⟨hnone, hfree, rfl, rfl, rfl⟩

theorem consistent_insert {outcome : InsertBotEventOutcome} (h : Consistent s)
    (ht : s.insertBotEvent record = .ok (t, outcome)) : Consistent t := by
  rcases insertBotEvent_eq_ok ht with ⟨stored, -, rfl, -⟩ | ⟨hnone, hfree, hevents, hseqs, -⟩
  · exact h
  · refine ⟨fun key other hother => ?_, fun key other hother => ?_⟩
    · rw [hevents, OrdMap.get?_insert] at hother
      split_ifs at hother with hkey
      · rw [← hkey, ← Option.some.inj hother]
      · exact h.keyed key other hother
    · rw [hevents, OrdMap.get?_insert] at hother
      rw [hseqs, OrdMap.get?_insert]
      split_ifs at hother with hkey
      · rw [← Option.some.inj hother, if_pos rfl]
      · have hnumber := h.numbered key other hother
        rw [if_neg]
        · exact hnumber
        · intro hsame
          rw [← hsame, hfree] at hnumber
          cases hnumber

/-- The row that an insert found or added is in the store. -/
theorem get?_insertBotEvent {outcome : InsertBotEventOutcome}
    (ht : s.insertBotEvent record = .ok (t, outcome)) :
    (t.events.get? (toLex (record.botId, record.eventId))).isSome = true ∧
      ∀ key, (s.events.get? key).isSome = true → (t.events.get? key).isSome = true := by
  rcases insertBotEvent_eq_ok ht with ⟨stored, hstored, rfl, -⟩ | ⟨hnone, hfree, hevents, hseqs, -⟩
  · rw [hstored]
    exact ⟨rfl, fun _ h => h⟩
  · refine ⟨by rw [hevents, OrdMap.get?_insert_self]; rfl, fun key hkey => ?_⟩
    rw [hevents, OrdMap.get?_insert]
    split_ifs
    · rfl
    · exact hkey

theorem get?_deleteBotEvent (key : EventKey) :
    (s.deleteBotEvent botId eventId).1.events.get? key =
      if key = toLex (botId, eventId) then none else s.events.get? key := by
  unfold deleteBotEvent
  split
  next hnone =>
    split_ifs with hkey
    · rw [hkey, hnone]
    · rfl
  · show (s.events.erase (toLex (botId, eventId))).get? key = _
    rw [OrdMap.get?_erase]
    split_ifs <;> rfl

theorem consistent_deleteBotEvent (h : Consistent s) :
    Consistent (s.deleteBotEvent botId eventId).1 := by
  refine ⟨fun key other hother => ?_, fun key other hother => ?_⟩
  · rw [get?_deleteBotEvent] at hother
    split_ifs at hother
    exact h.keyed key other hother
  · rw [get?_deleteBotEvent] at hother
    split_ifs at hother with hkey
    have hnumber := h.numbered key other hother
    unfold deleteBotEvent
    split
    · exact hnumber
    next removed hremoved =>
      dsimp only
      rw [OrdMap.get?_erase, if_neg]
      · exact hnumber
      · intro hsame
        -- The number leads to one id only, and that is the removed row's.
        have hremovedKey := h.keyed _ removed hremoved
        have hremovedNumber := h.numbered _ removed hremoved
        have hbot : botId = removed.botId :=
          congrArg (fun key => (ofLex key).1) hremovedKey
        rw [hbot] at hsame
        rw [hsame, hremovedNumber] at hnumber
        have hid : removed.eventId = other.eventId := Option.some.inj hnumber
        have hother' := h.keyed key other hother
        have hsameBot : other.botId = removed.botId :=
          congrArg (fun key => (ofLex key).1) hsame
        apply hkey
        rw [hother', hsameBot, ← hid, hremovedKey]

theorem consistent_deleteBot (h : Consistent s) (ht : s.deleteBot botId = .ok t) : Consistent t := by
  unfold deleteBot at ht
  split_ifs at ht
  obtain rfl := Except.ok.inj ht
  refine ⟨fun key other hother => ?_, fun key other hother => ?_⟩
  · rw [OrdMap.get?_filter] at hother
    obtain ⟨hrow, -⟩ := Option.filter_eq_some_iff.mp hother
    exact h.keyed key other hrow
  · rw [OrdMap.get?_filter] at hother
    obtain ⟨hrow, hkept⟩ := Option.filter_eq_some_iff.mp hother
    have hkey := h.keyed key other hrow
    rw [OrdMap.get?_filter, h.numbered key other hrow]
    rw [hkey] at hkept
    exact Option.filter_eq_some_iff.mpr ⟨rfl, hkept⟩

/-- The rows of other bots stay. -/
theorem get?_deleteBot (ht : s.deleteBot botId = .ok t) (key : EventKey)
    (hkey : (ofLex key).1 ≠ botId) : t.events.get? key = s.events.get? key := by
  unfold deleteBot at ht
  split_ifs at ht
  obtain rfl := Except.ok.inj ht
  dsimp only
  rw [OrdMap.get?_filter]
  cases hrow : s.events.get? key with
  | none => rfl
  | some record => exact Option.filter_eq_some_iff.mpr ⟨rfl, decide_eq_true hkey⟩

/-- Two rows of a bot with one id, or with one number, are one row. -/
theorem Consistent.unique (h : Consistent s) {left right : BotEventRecord}
    (hleft : left ∈ s.events.values) (hright : right ∈ s.events.values)
    (hbot : left.botId = right.botId) (hsame : left.eventId = right.eventId ∨ left.seq = right.seq) :
    left = right := by
  obtain ⟨leftKey, hleft⟩ := OrdMap.mem_values.mp hleft
  obtain ⟨rightKey, hright⟩ := OrdMap.mem_values.mp hright
  have hid : left.eventId = right.eventId := by
    rcases hsame with hid | hseq
    · exact hid
    · have hnumber := h.numbered _ _ hleft
      rw [hbot, hseq, h.numbered _ _ hright] at hnumber
      exact (Option.some.inj hnumber).symm
  have hkey : leftKey = rightKey := by
    rw [h.keyed _ _ hleft, h.keyed _ _ hright, hbot, hid]
  rw [hkey, hright] at hleft
  exact (Option.some.inj hleft).symm

end BotEventStore

end Lightspeed.Bots
