import Lightspeed.Harness.State
import Lightspeed.Bots.Ids

/-!
# The data of the bot controller

The events, deliveries, buffers and sessions that a bot's controller keeps, its configuration, the
emissions that it receives, and what it hands to the next execution. An instant is in milliseconds
since the epoch, and a UTC day is the number of days since then.
-/

namespace Lightspeed.Bots

open Lib Harness

/-! ## Events -/

inductive BotWhenBusy where
  | queue
  | steer
  | append
  deriving DecidableEq

inductive BotEventOutcome where
  | handled
  | deferred
  | ignored
  | blocked
  | unresolved
  | runFailed
  | steered
  | appended
  | archived
  deriving DecidableEq

inductive RoutedSessionClosePolicy where
  | inherit
  | never
  | after (ms : Nat)
  deriving DecidableEq

/-- The routing target that is computed at admission. -/
structure RoutedSession where
  sessionId : String
  label : String
  sessionKey : Option String := none
  closePolicy : RoutedSessionClosePolicy := .inherit
  deriving DecidableEq

structure BotCoalesceParams where
  key : String
  debounceMs : Nat
  maxWaitMs : Nat
  maxCount : Nat
  deriving DecidableEq

structure BotEvent where
  id : String
  seq : Nat
  documentRef : String
  session : Option RoutedSession := none
  coalesce : Option BotCoalesceParams := none
  whenBusy : Option BotWhenBusy := none
  hops : Nat := 0
  reply : Bool := false
  toolsRef : Option String := none
  notify : Bool := false
  deriving DecidableEq

/-- A route that admission computes for a bot: the id of a key's or of an event's session, which is
below the bot's own and has no generation suffix. -/
def RoutedSession.RoutedFor (botId : BotId) (session : RoutedSession) : Prop :=
  (botSessionPrefix ++ botId.value ++ ":").toList.isPrefixOf session.sessionId.toList = true ∧
    routedSessionBase session.sessionId = session.sessionId

/-- An event that goes to the bot's main session, or by such a route. -/
def BotEvent.RoutedFor (botId : BotId) (event : BotEvent) : Prop :=
  ∀ session ∈ event.session, session.RoutedFor botId

instance (botId : BotId) (event : BotEvent) : Decidable (event.RoutedFor botId) :=
  match h : event.session with
  | none => isTrue (by simp [BotEvent.RoutedFor, h])
  | some session =>
    decidable_of_iff
      ((botSessionPrefix ++ botId.value ++ ":").toList.isPrefixOf session.sessionId.toList = true ∧
        routedSessionBase session.sessionId = session.sessionId)
      (by simp [BotEvent.RoutedFor, RoutedSession.RoutedFor, h])

/-! ## Deliveries -/

/-- One unit of work for a session: a single event or a coalesced batch. -/
structure BotDelivery where
  id : String
  events : List BotEvent
  session : Option RoutedSession
  whenBusy : BotWhenBusy
  attempts : Nat := 0
  notBeforeMs : Option Int := none
  rolledForward : Bool := false
  deriving DecidableEq

/-- The delivery of one event. -/
def BotDelivery.single (event : BotEvent) : BotDelivery :=
  { id := event.id, events := [event], session := event.session
    whenBusy := event.whenBusy.getD .queue }

/-- Whether dispatch leaves the delivery for now. -/
def BotDelivery.waiting (delivery : BotDelivery) (nowMs : Int) : Bool :=
  delivery.notBeforeMs.any fun notBefore => nowMs < notBefore

def BotDelivery.seqs (delivery : BotDelivery) : List Nat := delivery.events.map (·.seq)

def BotDelivery.eventIds (delivery : BotDelivery) : List String := delivery.events.map (·.id)

/-- The events whose source asked for receipts. -/
def BotDelivery.notifyEventIds (delivery : BotDelivery) : List String :=
  (delivery.events.filter (·.notify)).map (·.id)

/-- The events whose sender asked for a reply. -/
def BotDelivery.replyEventIds (delivery : BotDelivery) : List String :=
  (delivery.events.filter (·.reply)).map (·.id)

/-- Events sharing a coalesce key, waiting for the window to close. -/
structure CoalesceBuffer where
  params : BotCoalesceParams
  session : Option RoutedSession
  whenBusy : BotWhenBusy
  events : List BotEvent
  firstAtMs : Int
  lastAtMs : Int

/-- The debounce after the last event, bounded by the wait after the first. -/
def CoalesceBuffer.flushAtMs (buffer : CoalesceBuffer) : Int :=
  min (buffer.lastAtMs + buffer.params.debounceMs) (buffer.firstAtMs + buffer.params.maxWaitMs)

def CoalesceBuffer.isRipe (buffer : CoalesceBuffer) (nowMs : Int) : Bool :=
  buffer.flushAtMs ≤ nowMs

def CoalesceBuffer.intoDelivery (sha256Hex : String → String) (buffer : CoalesceBuffer) :
    BotDelivery :=
  { id := deliveryId sha256Hex (buffer.events.map (·.id)), events := buffer.events
    session := buffer.session, whenBusy := buffer.whenBusy }

/-- A finished delivery, as the controller's snapshot keeps it. -/
structure BotRecentDelivery where
  deliveryId : String
  seqs : List Nat
  sessionId : String
  runId : Option String
  outcome : BotEventOutcome
  summary : Option String
  finishedAtMs : Int

/-! ## Sessions -/

/-- A routed session that this controller created. -/
structure ControlledSession where
  sessionId : String
  label : String
  sessionKey : Option String
  kind : BotSessionKind
  lastActiveAtMs : Option Int
  closePolicy : RoutedSessionClosePolicy
  carriedToolIds : List String

/-- A dedupe set in insertion order, which forgets its oldest ids beyond its cap. -/
structure SeenIds (cap : Nat) where
  order : List String
  nodup : order.Nodup
  le_cap : order.length ≤ cap

namespace SeenIds

variable {cap : Nat}

/-- The set that has seen nothing. -/
def empty : SeenIds cap := ⟨[], .nil, Nat.zero_le cap⟩

instance : EmptyCollection (SeenIds cap) := ⟨empty⟩

def contains (seen : SeenIds cap) (id : String) : Bool := seen.order.contains id

/-- The set with an id that it does not hold, without the oldest one beyond the cap. -/
def push (seen : SeenIds cap) (id : String) (h : id ∉ seen.order) : SeenIds cap where
  order := (seen.order ++ [id]).drop (seen.order.length + 1 - cap)
  nodup := by
    refine List.Nodup.sublist (List.drop_sublist ..) ?_
    exact List.nodup_append.mpr ⟨seen.nodup, List.nodup_singleton _, fun a ha b hb heq =>
      h (List.mem_singleton.mp hb ▸ heq ▸ ha)⟩
  le_cap := by
    rw [List.length_drop, List.length_append, List.length_singleton]
    omega

/-- The set with an id, and whether the id was new. -/
def insert (seen : SeenIds cap) (id : String) : Bool × SeenIds cap :=
  if h : id ∈ seen.order then (false, seen) else (true, seen.push id h)

def fromIds (ids : List String) : SeenIds cap :=
  ids.foldl (fun seen id => (seen.insert id).2) empty

/-- Ids in insertion order. -/
def tail (seen : SeenIds cap) : List String := seen.order

end SeenIds

/-! ## Lanes -/

/-- The end of a lane's run. -/
structure LaneTerminal where
  status : RunStatus
  runId : String
  failureMessageRef : Option BlobRef
  /-- Why the controller ended the wait itself, when no end can come from a dead session. -/
  deadSession : Option String
  deriving DecidableEq

/-- The model's decision for a lane's run. -/
structure LaneResolution where
  outcome : BotEventOutcome
  summary : Option String
  deriving DecidableEq

/-- One delivery lane: the delivery, the session it runs on, and what the run reported so far. -/
structure ActiveLane where
  delivery : BotDelivery
  sessionId : String
  runId : Option String := none
  terminal : Option LaneTerminal := none
  resolution : Option LaneResolution := none
  startedAtMs : Int
  parked : Bool := false
  deriving DecidableEq

/-- The lanes, each under the id of its session. -/
structure LaneMap where
  lanes : OrdMap String ActiveLane
  keyed : ∀ key lane, lanes.get? key = some lane → lane.sessionId = key

namespace LaneMap

/-- No lane. -/
def empty : LaneMap := ⟨∅, fun _ _ h => nomatch h⟩

def get? (m : LaneMap) (key : String) : Option ActiveLane := m.lanes.get? key

def contains (m : LaneMap) (key : String) : Bool := m.lanes.contains key

def values (m : LaneMap) : List ActiveLane := m.lanes.values

/-- A lane is put in place of the one on its session. -/
def insert (m : LaneMap) (lane : ActiveLane) : LaneMap where
  lanes := m.lanes.insert lane.sessionId lane
  keyed key other h := by
    rw [OrdMap.get?_insert] at h
    split_ifs at h with hkey
    · exact Option.some.inj h ▸ hkey
    · exact m.keyed key other h

def erase (m : LaneMap) (key : String) : LaneMap where
  lanes := m.lanes.erase key
  keyed k lane h := by
    rw [OrdMap.get?_erase] at h
    split_ifs at h
    exact m.keyed k lane h

/-- Every lane changes what it reports. -/
def mapValues (m : LaneMap) (f : ActiveLane → ActiveLane)
    (hf : ∀ lane, (f lane).sessionId = lane.sessionId := by intro; rfl) : LaneMap where
  lanes := m.lanes.mapValues fun _ lane => f lane
  keyed key lane h := by
    rw [OrdMap.get?_mapValues, Option.map_eq_some_iff] at h
    obtain ⟨old, hold, rfl⟩ := h
    exact (hf old).trans (m.keyed key old hold)

/-- The lane on one session changes what it reports. -/
def modify (m : LaneMap) (key : String) (f : ActiveLane → ActiveLane)
    (hf : ∀ lane, (f lane).sessionId = lane.sessionId := by intro; rfl) : LaneMap where
  lanes := m.lanes.modify key f
  keyed k lane h := by
    rw [OrdMap.get?_modify] at h
    split_ifs at h with hkey
    · obtain ⟨old, hold, rfl⟩ := Option.map_eq_some_iff.mp h
      exact (hf old).trans (m.keyed k old hold)
    · exact m.keyed k lane h

def ofList (lanes : List ActiveLane) : LaneMap := lanes.foldl insert empty

end LaneMap

/-- A lane parked on its run, as one controller execution hands it to the next. -/
structure WaitingLane where
  delivery : BotDelivery
  sessionId : String
  runId : String
  startedAtMs : Int

/-- A pushed invocation waiting for its lane. -/
structure PendingInvocation where
  invocation : WorkflowToolInvocation
  holderWorkflowId : String

/-- The outcome that a finished lane records. -/
structure DeliveryOutcome where
  outcome : BotEventOutcome
  summary : Option String := none
  runId : Option String := none

/-! ## Emissions -/

inductive EmissionProducer where
  | session (universeId sessionId : String) (logSeq : Nat)
  | workflow (universeId workflowId : String)

inductive EmissionBody where
  | runTerminal (token : String) (runId : RunId) (status : RunStatus)
      (failureMessageRef : Option BlobRef)
  | sourceResolution (promiseId : PromiseId) (resolution : PromiseResolution)
  | toolInvocation (invocation : WorkflowToolInvocation) (holderWorkflowId : String)
  | invocationCancellation (invocationId : WorkflowToolInvocationId) (completionKey : String)
      (promiseId : PromiseId)

structure EmissionEnvelope where
  emissionId : String
  producer : EmissionProducer
  body : EmissionBody

/-- What an emission means to a controller. -/
inductive EmissionDisposition where
  | foreign (message : String)
  | invocation (sessionId : String) (invocation : WorkflowToolInvocation)
      (holderWorkflowId : String)
  | terminal (sessionId runId token : String) (status : RunStatus)
      (failureMessageRef : Option BlobRef)
  | ignore
  deriving DecidableEq

/-! ## The controller's configuration and carry -/

structure BotControllerConfig where
  universeId : String
  botId : BotId
  displayName : Option String := none
  profileId : String
  brief : Option String := none
  runsPerDay : Option Nat := none
  routedSessionCloseAfterMs : Option Nat := none
  selfConfig : Bool := false
  emit : Bool := false
  enabled : Bool := false
  closed : Bool := false
  deriving DecidableEq

inductive BotSetupStatus where
  | initializing
  | degraded
  | ready

/-- Everything that a controller execution hands its successor. -/
structure BotControllerCarry where
  waitingLanes : List WaitingLane := []
  configDirty : Bool := false
  pendingDeliveries : List BotDelivery := []
  buffers : OrdMap String CoalesceBuffer := ∅
  recentDeliveries : List BotRecentDelivery := []
  seenEventIds : List String := []
  seenEmissionIds : List String := []
  handledInvocationIds : List String := []
  sessionCursors : OrdMap String Nat := ∅
  appliedProfileId : Option String := none
  appliedProfileRevision : Option Nat := none
  sessionReady : Bool := false
  eventsProcessed : Nat := 0
  duplicateEvents : Nat := 0
  duplicateEmissions : Nat := 0
  runDay : Option Int := none
  runsToday : Nat := 0
  descendantsToday : Nat := 0
  budgetRoots : OrdMap String Unit := ∅
  extraSessions : List ControlledSession := []
  sessionGenerations : OrdMap String Nat := ∅
  rotationRequests : OrdMap String Unit := ∅
  mainGeneration : Nat := 0
  toolsRevision : Option Nat := none
  reconcileAttempts : Nat := 0
  reconcileRotated : Bool := false

/-- The start argument of the controller. -/
structure BotControllerArgs where
  config : BotControllerConfig
  carry : Option BotControllerCarry := none

end Lightspeed.Bots
