import Lightspeed.Bots.EventStore
import Lightspeed.Lib.Machine

/-!
# Store, then wake

An admission numbers its event, stores the document and the prompt, inserts the row, and wakes the bot's
controller. When the wake of a row that it inserted itself fails, it deletes the row again, so that a
retry admits from scratch. Any number of admissions run side by side; each goes on when what it waits
for is answered.
-/

namespace Lightspeed.Bots

open Lib

/-! ## One admission -/

/-- What an admission stores for one event. -/
structure StoreBotEventInput where
  eventId : String
  session : Option RoutedSession := none
  coalesce : Option BotCoalesceParams := none
  whenBusy : Option BotWhenBusy := none
  hops : Nat := 0
  receiver : Option EventReceiver := none
  /-- Without delivery the row is archived at birth and the controller is not woken. -/
  deliver : Bool := true
  /-- A document that is already stored. -/
  documentRef : Option String := none

structure StoredBotEvent where
  event : BotEvent
  record : BotEventRecord
  duplicate : Bool
  deriving DecidableEq

/-- Where an admission stands: what it waits for, or its result. -/
inductive AdmissionPc where
  | allocating
  | storingDocument (seq : Nat)
  | storingPrompt (seq : Nat) (documentRef : String)
  | inserting (record : BotEventRecord)
  | waking (stored : StoredBotEvent)
  | discarding (stored : StoredBotEvent) (message : String)
  | done (result : Except BotError StoredBotEvent)
  deriving DecidableEq

/-- How what an admission waits for turned out. -/
inductive AdmissionAnswer where
  | done
  | blob (blobRef : String)
  | failed (message : String)
  deriving DecidableEq

structure AdmissionCall where
  botId : BotId
  input : StoreBotEventInput
  pc : AdmissionPc

namespace AdmissionCall

/-- A call begins: the row of a closed bot refuses it before anything is stored. -/
def begin (botId : BotId) (closed : Bool) (input : StoreBotEventInput) : AdmissionCall :=
  { botId, input
    pc :=
      if closed then
        .done (.error (.refused .botClosed
          (botId.value ++ " was closed and no longer accepts events")))
      else .allocating }

def record (call : AdmissionCall) (seq : Nat) (documentRef : String) : BotEventRecord :=
  { botId := call.botId
    eventId := call.input.eventId
    seq, documentRef
    session := call.input.session
    hops := call.input.hops
    receiver := call.input.receiver
    outcome := if call.input.deliver then none else some .archived }

/-- What the controller is woken with, from the row that is in the store. -/
def event (call : AdmissionCall) (record : BotEventRecord) : BotEvent :=
  { id := record.eventId
    seq := record.seq
    documentRef := record.documentRef
    session := call.input.session
    coalesce := call.input.coalesce
    whenBusy := call.input.whenBusy
    hops := call.input.hops
    reply := match call.input.receiver with | some (.bot ..) => true | _ => false
    toolsRef := record.toolsRef
    notify := match call.input.receiver with | some (.workflow ..) => true | _ => false }

def finish (call : AdmissionCall) (result : Except BotError StoredBotEvent) : AdmissionCall :=
  { call with pc := .done result }

/-- The row is in the store: the controller is woken with it, or the admission is done. -/
def inserted (call : AdmissionCall) (outcome : InsertBotEventOutcome) : AdmissionCall :=
  let stored : StoredBotEvent :=
    match outcome with
    | .inserted record => ⟨call.event record, record, false⟩
    | .duplicate record => ⟨call.event record, record, true⟩
  if call.input.deliver then { call with pc := .waking stored } else call.finish (.ok stored)

def wakeError (message : String) : BotError := .store ("wake bot controller: " ++ message)

/-- The wake failed: a row that this call inserted is deleted, and a duplicate's is left alone. -/
def wakeFailed (call : AdmissionCall) (stored : StoredBotEvent) (message : String) : AdmissionCall :=
  if stored.duplicate then call.finish (.error (wakeError message))
  else { call with pc := .discarding stored message }

/-- The call goes on with an answer: the store, the call, and what the controller is woken with. -/
def resume (store : BotEventStore) (call : AdmissionCall) (answer : AdmissionAnswer) :
    Option (BotEventStore × AdmissionCall × List BotEvent) :=
  match call.pc, answer with
  | .allocating, .done =>
    match store.allocateBotEventSeq call.botId with
    | .error error => some (store, call.finish (.error error), [])
    | .ok (store, seq) =>
      match call.input.documentRef with
      | some documentRef => some (store, { call with pc := .storingPrompt seq documentRef }, [])
      | none => some (store, { call with pc := .storingDocument seq }, [])
  | .allocating, .failed message => some (store, call.finish (.error (.store message)), [])
  | .storingDocument seq, .blob documentRef =>
    some (store, { call with pc := .storingPrompt seq documentRef }, [])
  | .storingDocument _, .failed message =>
    some (store, call.finish (.error (.store ("store event document: " ++ message))), [])
  | .storingPrompt seq documentRef, .blob _ =>
    some (store, { call with pc := .inserting (call.record seq documentRef) }, [])
  | .storingPrompt .., .failed message =>
    some (store, call.finish (.error (.store ("store event prompt: " ++ message))), [])
  | .inserting record, .done =>
    match store.insertBotEvent record with
    | .error error => some (store, call.finish (.error error), [])
    | .ok (store, outcome) => some (store, call.inserted outcome, [])
  | .inserting _, .failed message => some (store, call.finish (.error (.store message)), [])
  | .waking stored, .done => some (store, call.finish (.ok stored), [stored.event])
  | .waking stored, .failed message => some (store, call.wakeFailed stored message, [])
  | .discarding stored message, .done =>
    some ((store.deleteBotEvent call.botId stored.record.eventId).1,
      call.finish (.error (wakeError message)), [])
  | .discarding _ message, .failed _ => some (store, call.finish (.error (wakeError message)), [])
  | _, _ => none

end AdmissionCall

/-! ## Admissions side by side -/

/-- The store, the calls, what the controllers were woken with, and the bots that were deleted. -/
structure Admissions where
  store : BotEventStore := {}
  calls : List AdmissionCall := []
  received : List (BotId × BotEvent) := []
  deleted : List BotId := []

namespace Admissions

inductive Input where
  | createBot (botId : BotId)
  | deleteBot (botId : BotId)
  | beginAdmission (botId : BotId) (closed : Bool) (input : StoreBotEventInput)
  | resume (index : Nat) (answer : AdmissionAnswer)

def step (s : Admissions) : Input → Option Admissions
  | .createBot botId => (s.store.createBot botId).toOption.map fun store => { s with store }
  | .deleteBot botId =>
    (s.store.deleteBot botId).toOption.map fun store =>
      { s with store, deleted := botId :: s.deleted }
  | .beginAdmission botId closed input =>
    some { s with calls := s.calls ++ [.begin botId closed input] }
  | .resume index answer => do
    let call ← s.calls[index]?
    let (store, next, woken) ← call.resume s.store answer
    some
      { s with
        store
        calls := s.calls.set index next
        received := s.received ++ woken.map fun event => (call.botId, event) }

end Admissions

/-- Any admissions of any bots, from an empty store. -/
def admissions : Machine Admissions Admissions.Input where
  init s := s = {}
  step := Admissions.step

end Lightspeed.Bots
