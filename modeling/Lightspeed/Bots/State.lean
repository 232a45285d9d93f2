import Mathlib.Algebra.Group.Int.Defs
import Lightspeed.Bots.Emissions

/-!
# The controller's state

Every decision of a bot's controller that needs no I/O: event acceptance and dedupe, coalescing
buffers, the daily budget, dispatch selection, the outcome ladder, and the carry that crosses
continue-as-new. What drives activities and lanes around this is in `Lightspeed.Bots.Lanes` and
`Lightspeed.Bots.Controller`.
-/

namespace Lightspeed.Bots

open Lib Harness

/-! ## Constants and time -/

def msPerDay : Int := 24 * 60 * 60 * 1000
def rotationRetryDelayMs : Int := 5000
def botBusyRetryDelayMs : Int := 5000
def botStartMaxAttempts : Nat := 10
def botStartRetryMaxDelayMs : Int := 5 * 60 * 1000
def botReconcileRetryMaxDelayMs : Int := 15 * 60 * 1000
def botDeadSessionSweepIntervalMs : Int := 15 * 60 * 1000
def botDescendantRefreshIntervalMs : Int := 60 * 1000
def botContinueAsNewAfterEvents : Nat := 100
def botExtraSessionCap : Nat := 200
def botRecentDeliveryCap : Nat := 50
def botSeenIdCap : Nat := 2000
def botToolsRevision : Nat := 12
def eventIdMaxLen : Nat := 200
def sessionIdMaxLen : Nat := 300
def labelMaxLen : Nat := 200
def coalesceKeyMaxLen : Nat := 400

/-- The UTC day of an instant. -/
def utcDay (nowMs : Int) : Int := nowMs.fdiv msPerDay

/-- Until the next UTC midnight, at least a second. -/
def msUntilNextUtcDay (nowMs : Int) : Int := max ((utcDay nowMs + 1) * msPerDay - nowMs) 1000

/-- Doubling backoff for a number of failures. -/
def backoffMs (attempts : Nat) (cap : Int) : Int :=
  min (botBusyRetryDelayMs * 2 ^ min (attempts - 1) 20) cap

/-! ## The state -/

structure ControllerState where
  config : BotControllerConfig
  mainGeneration : Nat
  toolsRevision : Option Nat
  pendingDeliveries : List BotDelivery
  buffers : OrdMap String CoalesceBuffer
  recentDeliveries : List BotRecentDelivery
  seenEventIds : SeenIds botSeenIdCap
  seenEmissionIds : SeenIds botSeenIdCap
  handledInvocationIds : SeenIds botSeenIdCap
  emissionInbox : List EmissionEnvelope
  pendingInvocations : List PendingInvocation
  extraSessions : List ControlledSession
  sessionCursors : OrdMap String Nat
  sessionGenerations : OrdMap String Nat
  rotationRequests : OrdMap String Unit
  activeBySession : LaneMap
  sidecarBySession : OrdMap String Unit
  appliedProfileId : Option String
  appliedProfileRevision : Option Nat
  sessionReady : Bool
  eventsProcessed : Nat
  duplicateEvents : Nat
  duplicateEmissions : Nat
  runDay : Int
  runsToday : Nat
  descendantsToday : Nat
  budgetRoots : OrdMap String Unit
  descendantsRefreshedAtMs : Int
  descendantsRefreshedProcessed : Option Nat
  laneTick : Nat
  eventTick : Nat
  rotationRetryAtMs : Option Int
  deadSessionSweepAtMs : Option Int
  reconcileRetryAtMs : Option Int
  reconcileAttempts : Nat
  reconcileRotated : Bool
  setupStatus : BotSetupStatus
  configDirty : Bool
  renameDirty : Bool
  closing : Bool
  closedDone : Bool
  lastError : Option String
  clockMs : Int

namespace ControllerState

/-- The lane that an execution inherits. -/
def inheritedLane (lane : WaitingLane) : ActiveLane :=
  { delivery := lane.delivery, sessionId := lane.sessionId, runId := some lane.runId
    startedAtMs := lane.startedAtMs, parked := true }

/-- The state that an execution starts from. -/
def new (args : BotControllerArgs) (nowMs : Int) : ControllerState :=
  let carry := args.carry.getD {}
  let mainSessionId := botMainSessionId args.config.botId (max carry.mainGeneration 1)
  let mainRunCarried := carry.waitingLanes.any fun lane => lane.sessionId == mainSessionId
  { config := args.config
    mainGeneration := max carry.mainGeneration 1
    toolsRevision := carry.toolsRevision
    pendingDeliveries := carry.pendingDeliveries
    buffers := carry.buffers
    recentDeliveries := carry.recentDeliveries
    seenEventIds :=
      if carry.seenEventIds.isEmpty then
        SeenIds.fromIds (carry.pendingDeliveries.flatMap BotDelivery.eventIds)
      else SeenIds.fromIds carry.seenEventIds
    seenEmissionIds := SeenIds.fromIds carry.seenEmissionIds
    handledInvocationIds := SeenIds.fromIds carry.handledInvocationIds
    emissionInbox := []
    pendingInvocations := []
    extraSessions := carry.extraSessions
    sessionCursors := carry.sessionCursors
    sessionGenerations := carry.sessionGenerations
    rotationRequests := carry.rotationRequests
    activeBySession := .ofList (carry.waitingLanes.map inheritedLane)
    sidecarBySession := ∅
    appliedProfileId := carry.appliedProfileId
    appliedProfileRevision := carry.appliedProfileRevision
    sessionReady := carry.sessionReady
    eventsProcessed := carry.eventsProcessed
    duplicateEvents := carry.duplicateEvents
    duplicateEmissions := carry.duplicateEmissions
    runDay := carry.runDay.getD (utcDay nowMs)
    runsToday := carry.runsToday
    descendantsToday := carry.descendantsToday
    budgetRoots := carry.budgetRoots
    descendantsRefreshedAtMs := 0
    descendantsRefreshedProcessed := none
    laneTick := 0
    eventTick := 0
    rotationRetryAtMs := none
    deadSessionSweepAtMs :=
      if carry.waitingLanes.isEmpty then none else some (nowMs + botDeadSessionSweepIntervalMs)
    reconcileRetryAtMs := none
    reconcileAttempts := carry.reconcileAttempts
    reconcileRotated := carry.reconcileRotated
    setupStatus := if carry.sessionReady then .ready else .initializing
    configDirty := carry.configDirty || !mainRunCarried
    renameDirty := false
    closing := false
    closedDone := false
    lastError := none
    clockMs := nowMs }

/-- The lanes that this execution inherited, or would hand on: those with a run. -/
def waitingLanes (s : ControllerState) : List WaitingLane :=
  s.activeBySession.values.filterMap fun lane => lane.runId.map fun runId =>
    { delivery := lane.delivery, sessionId := lane.sessionId, runId
      startedAtMs := lane.startedAtMs }

/-- Everything that a successor execution needs. -/
def carry (s : ControllerState) : BotControllerCarry :=
  { waitingLanes := s.waitingLanes
    configDirty := s.configDirty
    pendingDeliveries := s.pendingDeliveries
    buffers := s.buffers
    recentDeliveries := s.recentDeliveries
    seenEventIds := s.seenEventIds.tail
    seenEmissionIds := s.seenEmissionIds.tail
    handledInvocationIds := s.handledInvocationIds.tail
    sessionCursors := s.sessionCursors
    appliedProfileId := s.appliedProfileId
    appliedProfileRevision := s.appliedProfileRevision
    sessionReady := s.sessionReady
    eventsProcessed := 0
    duplicateEvents := s.duplicateEvents
    duplicateEmissions := s.duplicateEmissions
    runDay := some s.runDay
    runsToday := s.runsToday
    descendantsToday := s.descendantsToday
    budgetRoots := s.budgetRoots
    extraSessions := s.extraSessions
    sessionGenerations := s.sessionGenerations
    rotationRequests := s.rotationRequests
    mainGeneration := s.mainGeneration
    toolsRevision := s.toolsRevision
    reconcileAttempts := s.reconcileAttempts
    reconcileRotated := s.reconcileRotated }

/-! ## Identity -/

def mainSessionId (s : ControllerState) : String :=
  botMainSessionId s.config.botId s.mainGeneration

/-- Session display names carry the label, never the id. -/
def botLabel (s : ControllerState) : String :=
  "bot " ++ s.config.displayName.getD s.config.botId.value

def routedLabel (s : ControllerState) (label : String) : String := s.botLabel ++ " · " ++ label

/-- The generation that a routed base has reached. -/
def routedGeneration (s : ControllerState) (base : String) : Nat :=
  (s.sessionGenerations.get? base).getD 1

/-- The current session id of a routed base. -/
def resolveRoutedSessionId (s : ControllerState) (base : String) : String :=
  routedSessionGenerationId base (s.routedGeneration base)

def bumpRoutedGeneration (s : ControllerState) (base : String) : ControllerState :=
  { s with sessionGenerations := s.sessionGenerations.insert base (s.routedGeneration base + 1) }

/-- The session id that a delivery goes to now. -/
def targetOf (s : ControllerState) (delivery : BotDelivery) : String :=
  match delivery.session with
  | none => s.mainSessionId
  | some session => s.resolveRoutedSessionId session.sessionId

def closeRequested (s : ControllerState) : Bool := s.config.closed

def recordError (s : ControllerState) (message : String) : ControllerState :=
  { s with lastError := some message }

/-- A lane changed shared state. -/
def tickLane (s : ControllerState) : ControllerState := { s with laneTick := s.laneTick + 1 }

/-! ## Coalescing -/

section

variable (sha256Hex : String → String)

/-- A buffer's events leave it as one delivery. -/
def flushBuffer (s : ControllerState) (key : String) : ControllerState :=
  match s.buffers.get? key with
  | none => s
  | some buffer =>
    let s := { s with buffers := s.buffers.erase key }
    if buffer.events.isEmpty then s
    else { s with pendingDeliveries := s.pendingDeliveries ++ [buffer.intoDelivery sha256Hex] }

def flushRipeBuffers (s : ControllerState) (nowMs : Int) : ControllerState :=
  let ripe := (s.buffers.filter fun _ buffer => buffer.isRipe nowMs).keys
  ripe.foldl (fun s key => s.flushBuffer sha256Hex key) s

end

def nextBufferDeadline (s : ControllerState) : Option Int :=
  (s.buffers.values.map CoalesceBuffer.flushAtMs).min?

/-! ## Signals -/

/-- The minimal check of an event signal. -/
def validateEvent (event : BotEvent) : Except String Unit :=
  if event.id.isEmpty || event.id.utf8ByteSize > eventIdMaxLen then
    .error "invalid bot event id"
  else if event.documentRef.isEmpty then .error "invalid bot event document ref"
  else if event.session.any fun session =>
      session.sessionId.isEmpty || session.sessionId.utf8ByteSize > sessionIdMaxLen then
    .error "invalid bot event session id"
  else if event.session.any fun session =>
      session.label.isEmpty || session.label.utf8ByteSize > labelMaxLen then
    .error "invalid bot event session label"
  else if event.coalesce.any fun coalesce =>
      coalesce.key.isEmpty || coalesce.key.utf8ByteSize > coalesceKeyMaxLen then
    .error "invalid coalesce key"
  else if event.coalesce.any fun coalesce => coalesce.maxCount == 0 then
    .error "invalid coalesce maxCount"
  else if event.coalesce.any fun coalesce => coalesce.maxWaitMs < coalesce.debounceMs then
    .error "coalesce maxWaitMs must cover debounceMs"
  else .ok ()

/-- The buffer that an event joins, with the event in it. -/
def bufferWith (s : ControllerState) (params : BotCoalesceParams) (event : BotEvent)
    (nowMs : Int) : CoalesceBuffer :=
  let buffer := (s.buffers.get? params.key).getD
    { params, session := event.session, whenBusy := event.whenBusy.getD .queue, events := []
      firstAtMs := nowMs, lastAtMs := nowMs }
  { buffer with events := buffer.events ++ [event], lastAtMs := nowMs, params }

/-- The event of a signal that is new: it becomes a delivery, or joins the buffer of its key. -/
def queueEvent (sha256Hex : String → String) (s : ControllerState) (event : BotEvent) (nowMs : Int) :
    ControllerState :=
  match event.coalesce with
  | none => { s with pendingDeliveries := s.pendingDeliveries ++ [.single event] }
  | some params =>
    let buffer := s.bufferWith params event nowMs
    let s := { s with buffers := s.buffers.insert params.key buffer }
    if params.maxCount ≤ buffer.events.length then s.flushBuffer sha256Hex params.key else s

/-- The `bot_event` signal: validate, dedupe, then queue. -/
def acceptEvent (sha256Hex : String → String) (s : ControllerState) (event : BotEvent) (nowMs : Int) :
    Except String ControllerState :=
  match validateEvent event with
  | .error message => .error message
  | .ok () =>
    let s := { s with eventTick := s.eventTick + 1 }
    let (new, seen) := s.seenEventIds.insert event.id
    if !new then .ok { s with duplicateEvents := s.duplicateEvents + 1 }
    else .ok ({ s with seenEventIds := seen }.queueEvent sha256Hex event nowMs)

def resetReconcileRetries (s : ControllerState) : ControllerState :=
  { s with reconcileRetryAtMs := none, reconcileAttempts := 0, reconcileRotated := false }

/-- The `bot_config` signal: the identity is fixed at start, and anything else reconciles the main
session. -/
def acceptConfig (s : ControllerState) (next : BotControllerConfig) :
    Except String ControllerState :=
  if next.universeId != s.config.universeId || next.botId != s.config.botId then
    .error ("bot identity cannot change: got " ++ next.universeId ++ "/" ++ next.botId.value ++
      ", controller is " ++ s.config.universeId ++ "/" ++ s.config.botId.value)
  else
    let renameDirty := s.renameDirty || next.displayName != s.config.displayName
    .ok ({ s with renameDirty, config := next, configDirty := true }.resetReconcileRetries)

def requestRotation (s : ControllerState) (sessionId : String) : ControllerState :=
  if sessionId.isEmpty then s
  else { s with
    rotationRequests := s.rotationRequests.insert sessionId ()
    rotationRetryAtMs := none }.tickLane

def queueEmission (s : ControllerState) (envelope : EmissionEnvelope) : ControllerState :=
  { s with emissionInbox := s.emissionInbox ++ [envelope] }

/-! ## Sessions -/

def isSessionBusy (s : ControllerState) (sessionId : String) : Bool :=
  s.activeBySession.contains sessionId || s.sidecarBySession.contains sessionId

def mainSessionFree (s : ControllerState) : Bool := !s.isSessionBusy s.mainSessionId

def extraSession (s : ControllerState) (sessionId : String) : Option ControlledSession :=
  s.extraSessions.find? fun session => session.sessionId == sessionId

/-- The first session with an id, changed. -/
def modifyFirst (sessionId : String) (f : ControlledSession → ControlledSession) :
    List ControlledSession → List ControlledSession
  | [] => []
  | session :: rest =>
    if session.sessionId == sessionId then f session :: rest
    else session :: modifyFirst sessionId f rest

def modifyExtraSession (s : ControllerState) (sessionId : String)
    (f : ControlledSession → ControlledSession) : ControllerState :=
  { s with extraSessions := modifyFirst sessionId f s.extraSessions }

/-- Record a routed event against a known session; `none` when it is not known. -/
def observeRoutedSession (s : ControllerState) (sessionId : String) (routed : RoutedSession)
    (observedAtMs : Int) : Option ControllerState :=
  if (s.extraSession sessionId).isNone then none
  else some (s.modifyExtraSession sessionId fun known =>
    { known with
      closePolicy :=
        if routed.closePolicy != .inherit then routed.closePolicy else known.closePolicy
      sessionKey := if routed.sessionKey.isSome then routed.sessionKey else known.sessionKey
      lastActiveAtMs := some observedAtMs })

/-- The idle-close duration of a routed session: the trigger's, else the bot's. -/
def sessionCloseAfterMs (s : ControllerState) (session : ControlledSession) : Option Nat :=
  match session.closePolicy with
  | .inherit => s.config.routedSessionCloseAfterMs.filter (0 < ·)
  | .never => none
  | .after ms => if 0 < ms then some ms else none

def sessionExpiryMs (s : ControllerState) (session : ControlledSession) : Option Int :=
  (s.sessionCloseAfterMs session).map fun closeAfterMs =>
    session.lastActiveAtMs.getD 0 + closeAfterMs

/-- The routed sessions that are not busy. -/
def freeSessions (s : ControllerState) : List ControlledSession :=
  s.extraSessions.filter fun session => !s.isSessionBusy session.sessionId

def nextIdleCloseDeadline (s : ControllerState) : Option Int :=
  (s.freeSessions.filterMap s.sessionExpiryMs).min?

/-- Routed sessions idle past their close window. -/
def expiredSessions (s : ControllerState) (nowMs : Int) : List String :=
  (s.freeSessions.filter fun session => (s.sessionExpiryMs session).any (· ≤ nowMs)).map
    (·.sessionId)

def touchSession (s : ControllerState) (sessionId : String) (nowMs : Int) : ControllerState :=
  s.modifyExtraSession sessionId fun session => { session with lastActiveAtMs := some nowMs }

def untrackSession (s : ControllerState) (sessionId : String) : ControllerState :=
  { s with extraSessions := s.extraSessions.filter fun session => session.sessionId != sessionId }

/-- Forget a closed routed session and advance its base's generation. A per-event base keeps no
entry. -/
def forgetRoutedSession (s : ControllerState) (sessionId : String) : ControllerState :=
  let s := s.untrackSession sessionId
  let s := { s with sessionCursors := s.sessionCursors.erase sessionId }
  let base := routedSessionBase sessionId
  if botSessionKind base = .perEvent then
    { s with sessionGenerations := s.sessionGenerations.erase base }
  else s.bumpRoutedGeneration base

/-- Rotate the main session to its next generation. -/
def rotateMainSession (s : ControllerState) (resetReady : Bool) : ControllerState :=
  let s := { s with
    mainGeneration := s.mainGeneration + 1
    appliedProfileId := none
    appliedProfileRevision := none }
  if resetReady then
    { s with
      toolsRevision := none, sessionReady := false, configDirty := true
      setupStatus := .initializing }.resetReconcileRetries
  else s

/-- Advance past a dead session, whose log stays readable under its old id. -/
def rollSessionForward (s : ControllerState) (sessionId : String) : ControllerState :=
  let s := { s with
    budgetRoots := s.budgetRoots.insert sessionId ()
    sessionCursors := s.sessionCursors.erase sessionId }
  let s := s.recordError
    ("session " ++ sessionId ++ " stopped working, so its conversation moved to a new session")
  if sessionId = s.mainSessionId then s.rotateMainSession true
  else (s.untrackSession sessionId).bumpRoutedGeneration (routedSessionBase sessionId)

/-- The first session with the least activity stamp. -/
def idlest : List ControlledSession → Option ControlledSession
  | [] => none
  | session :: rest =>
    match idlest rest with
    | none => some session
    | some other =>
      if session.lastActiveAtMs.getD 0 ≤ other.lastActiveAtMs.getD 0 then some session
      else some other

/-- The idlest routed session that is not busy. -/
def idlestFreeSession (s : ControllerState) (excluding : String) : Option String :=
  (idlest (s.freeSessions.filter fun session => session.sessionId != excluding)).map (·.sessionId)

/-- Rotate for a reconcile that the session refused, once for each failure streak; `none` when that is
spent. -/
def rotateMainForReconcile (s : ControllerState) : Option ControllerState :=
  if s.reconcileRotated then none
  else some ({ s with reconcileRotated := true }.rotateMainSession false)

/-- Whether the loop should try the main session now. -/
def reconcileDue (s : ControllerState) (nowMs : Int) : Bool :=
  s.configDirty && s.mainSessionFree && s.reconcileRetryAtMs.all (· ≤ nowMs)

def markSessionReady (s : ControllerState) (profileRevision : Nat) : ControllerState :=
  { s with
    sessionReady := true
    appliedProfileId := some s.config.profileId
    appliedProfileRevision := some profileRevision
    toolsRevision := some botToolsRevision
    configDirty := false
    lastError := none
    setupStatus := .ready }.resetReconcileRetries

/-- The main session stays dirty, so it is tried again after a backoff. -/
def markSessionDegraded (s : ControllerState) (message : String) (nowMs : Int) : ControllerState :=
  { s with
    lastError := some message
    setupStatus := .degraded
    configDirty := true
    sessionReady := false
    reconcileAttempts := s.reconcileAttempts + 1
    reconcileRetryAtMs :=
      some (nowMs + backoffMs (s.reconcileAttempts + 1) botReconcileRetryMaxDelayMs) }

/-- The profile revision that the main session runs, when its profile is still the configured one. -/
def appliedRevisionForEnsure (s : ControllerState) : Option Nat :=
  if s.appliedProfileId = some s.config.profileId then s.appliedProfileRevision else none

def setCursor (s : ControllerState) (sessionId : String) (seq : Nat) : ControllerState :=
  { s with sessionCursors := s.sessionCursors.insert sessionId seq }

/-! ## Budget -/

def rollBudgetDay (s : ControllerState) (nowMs : Int) : ControllerState :=
  if utcDay nowMs ≠ s.runDay then
    { s with
      runDay := utcDay nowMs, runsToday := 0, descendantsToday := 0, budgetRoots := ∅
      descendantsRefreshedAtMs := 0, descendantsRefreshedProcessed := none }
  else s

/-- Whether a lane is about to start a run that counts against the budget. -/
def pendingStart (lane : ActiveLane) : Bool :=
  lane.runId.isNone && lane.delivery.whenBusy != .append

/-- Runs started today, sub-agent sessions delegated today, and lanes about to start a run. -/
def reservedRuns (s : ControllerState) : Nat :=
  s.runsToday + s.descendantsToday + s.activeBySession.values.countP pendingStart

/-- Whether the day's budget is spent; a stale day is never exhausted. -/
def budgetExhaustedView (s : ControllerState) (nowMs : Int) : Bool :=
  match s.config.runsPerDay with
  | none => false
  | some runsPerDay => utcDay nowMs == s.runDay && decide (runsPerDay ≤ s.reservedRuns)

def descendantsRefreshDue (s : ControllerState) (nowMs : Int) : Bool :=
  if s.config.runsPerDay.isNone then false
  else if s.descendantsRefreshedProcessed ≠ some s.eventsProcessed then true
  else !s.activeBySession.lanes.entries.isEmpty &&
    decide (botDescendantRefreshIntervalMs ≤ nowMs - s.descendantsRefreshedAtMs)

/-- The main session and every routed session count as roots of today's delegation trees. -/
def addBudgetRoots (s : ControllerState) : ControllerState :=
  { s with
    budgetRoots := (s.mainSessionId :: s.extraSessions.map (·.sessionId)).foldl
      (fun roots id => roots.insert id ()) s.budgetRoots }

/-! ## Dispatch -/

/-- A rotating target waits for its successor, and the main session waits until it is ready and in
line with the configuration. -/
def targetHeld (s : ControllerState) (target : String) : Bool :=
  s.rotationRequests.contains target ||
    ((!s.sessionReady || s.configDirty) && target == s.mainSessionId)

/-- Whether one of the deliveries could be handed to a session now; `waiting` is the targets of the
waiting ones before it. -/
def dispatchableFrom (s : ControllerState) (nowMs : Int) : List String → List BotDelivery → Bool
  | _, [] => false
  | waiting, delivery :: rest =>
    let target := s.targetOf delivery
    if delivery.waiting nowMs then s.dispatchableFrom nowMs (target :: waiting) rest
    else if waiting.contains target || s.targetHeld target then
      s.dispatchableFrom nowMs waiting rest
    else
      (match s.activeBySession.get? target with
        | none => true
        | some active =>
          active.runId.isSome && delivery.whenBusy != .queue &&
            !s.sidecarBySession.contains target) ||
        s.dispatchableFrom nowMs waiting rest

/-- Whether the loop has a delivery that it could hand to a session now. -/
def dispatchable (s : ControllerState) (nowMs : Int) : Bool :=
  if !s.config.enabled || s.closeRequested || s.pendingDeliveries.isEmpty ||
      s.budgetExhaustedView nowMs then false
  else s.dispatchableFrom nowMs [] s.pendingDeliveries

/-- What dispatch decided for one pending delivery. -/
inductive DispatchAction where
  | lane (delivery : BotDelivery) (target : String)
  | sidecar (delivery : BotDelivery) (target : String)

/-- The delivery takes its free target's lane. -/
def takeLane (s : ControllerState) (delivery : BotDelivery) (target : String) (nowMs : Int) :
    ControllerState :=
  { s with
    activeBySession :=
      s.activeBySession.insert { delivery, sessionId := target, startedAtMs := nowMs } }

def takeSidecar (s : ControllerState) (target : String) : ControllerState :=
  { s with sidecarBySession := s.sidecarBySession.insert target () }

/-- Walks the queue, with the deliveries before the current one that stay in it. -/
def dispatchFrom (nowMs : Int) :
    List BotDelivery → List BotDelivery → List String → ControllerState →
      ControllerState × List DispatchAction
  | kept, [], _, s => ({ s with pendingDeliveries := kept }, [])
  | kept, delivery :: rest, waiting, s =>
    let s := s.rollBudgetDay nowMs
    if s.budgetExhaustedView nowMs then
      ({ s with pendingDeliveries := kept ++ delivery :: rest }, [])
    else
      let target := s.targetOf delivery
      if delivery.waiting nowMs then
        dispatchFrom nowMs (kept ++ [delivery]) rest (target :: waiting) s
      else if waiting.contains target || s.targetHeld target then
        dispatchFrom nowMs (kept ++ [delivery]) rest waiting s
      else
        match s.activeBySession.get? target with
        | some occupied =>
          if occupied.runId.isSome && delivery.whenBusy != .queue &&
              !s.sidecarBySession.contains target then
            let (s, actions) := dispatchFrom nowMs kept rest waiting (s.takeSidecar target)
            (s, .sidecar delivery target :: actions)
          else dispatchFrom nowMs (kept ++ [delivery]) rest waiting s
        | none =>
          let (s, actions) := dispatchFrom nowMs kept rest waiting (s.takeLane delivery target nowMs)
          (s, .lane delivery target :: actions)

/-- Hand every runnable pending delivery to a lane or a sidecar, first in, first out. -/
def dispatch (s : ControllerState) (nowMs : Int) : ControllerState × List DispatchAction :=
  dispatchFrom nowMs [] s.pendingDeliveries [] s

/-! ## Lanes -/

/-- Put a delivery back at the front of the queue. -/
def requeueFront (s : ControllerState) (delivery : BotDelivery) (notBeforeMs : Int) :
    ControllerState :=
  { s with
    pendingDeliveries :=
      { delivery with notBeforeMs := some notBeforeMs } :: s.pendingDeliveries }

def removeLane (s : ControllerState) (target : String) : ControllerState :=
  { s with activeBySession := s.activeBySession.erase target }

/-- Free a delivery's lane and put the delivery back. -/
def requeueLane (s : ControllerState) (target : String) (delivery : BotDelivery)
    (notBeforeMs : Int) : ControllerState :=
  ((s.removeLane target).requeueFront delivery notBeforeMs).tickLane

/-- Queue the next attempt of a delivery whose run start failed; `none` once its attempts are
spent. -/
def retryDelivery (s : ControllerState) (target : String) (delivery : BotDelivery) (nowMs : Int) :
    Option ControllerState :=
  let attempts := delivery.attempts + 1
  if botStartMaxAttempts ≤ attempts then none
  else some (s.requeueLane target { delivery with attempts }
    (nowMs + backoffMs attempts botStartRetryMaxDelayMs))

/-- Send a delivery that found its session dead to the session's successor. -/
def requeueRolledForward (s : ControllerState) (target : String) (delivery : BotDelivery)
    (nowMs : Int) : ControllerState :=
  s.requeueLane target { delivery with rolledForward := true, attempts := 0 } nowMs

/-- Move a lane to the session id that its routed target rotated to during ensure. -/
def rekeyLane (s : ControllerState) (source target : String) : ControllerState :=
  match s.activeBySession.get? source with
  | none => s
  | some lane =>
    { s with
      activeBySession :=
        (s.activeBySession.erase source).insert { lane with sessionId := target } }

def modifyLane (s : ControllerState) (sessionId : String) (f : ActiveLane → ActiveLane)
    (hf : ∀ lane, (f lane).sessionId = lane.sessionId := by intro; rfl) : ControllerState :=
  { s with activeBySession := s.activeBySession.modify sessionId f hf }

def markLaneStarted (s : ControllerState) (sessionId runId : String) (nowMs : Int) :
    ControllerState :=
  let s := s.modifyLane sessionId fun lane => { lane with runId := some runId }
  let s := { s with
    deadSessionSweepAtMs :=
      some (s.deadSessionSweepAtMs.getD (nowMs + botDeadSessionSweepIntervalMs)) }
  let s := s.rollBudgetDay nowMs
  { s with runsToday := s.runsToday + 1 }.tickLane

section

variable (sha256Hex : String → String)

/-- Whether a lane on the session waits for the run that the token names. -/
def laneAwaitsTerminalFrom (s : ControllerState) (sessionId token : String) : Bool :=
  (s.activeBySession.get? sessionId).any fun lane =>
    deliveryTerminalToken sha256Hex lane.delivery.id == token

/-- Hand every lane whose delivery carries the token the end of its run. -/
def attachTerminal (s : ControllerState) (token : String) (terminal : LaneTerminal) :
    ControllerState :=
  let carries : ActiveLane → Bool := fun lane =>
    deliveryTerminalToken sha256Hex lane.delivery.id == token
  let s' := { s with
    activeBySession := s.activeBySession.mapValues
      (fun lane => if carries lane then { lane with terminal := some terminal } else lane)
      fun lane => by split <;> rfl }
  if s.activeBySession.values.any carries then s'.tickLane else s'

end

/-- The lane does nothing more until its run ends. -/
def parkLane (s : ControllerState) (sessionId : String) : ControllerState :=
  s.modifyLane sessionId fun lane => { lane with parked := true }

/-- The sessions of the lanes that wait on a started run. -/
def lanesAwaitingTerminal (s : ControllerState) : List String :=
  (s.activeBySession.lanes.filter fun _ lane => lane.runId.isSome && lane.terminal.isNone).keys

/-- The sessions to check now, when a sweep is due. -/
def takeDeadSessionSweep (s : ControllerState) (nowMs : Int) : ControllerState × List String :=
  if s.deadSessionSweepAtMs.all (nowMs < ·) then (s, [])
  else
    let sessions := s.lanesAwaitingTerminal
    ({ s with
      deadSessionSweepAtMs :=
        if sessions.isEmpty then none else some (nowMs + botDeadSessionSweepIntervalMs) }, sessions)

/-- End the wait of a lane whose session is dead; `none` when it is not waiting. -/
def failLaneOnDeadSession (s : ControllerState) (sessionId message : String) :
    Option ControllerState :=
  match s.activeBySession.get? sessionId with
  | some { runId := some runId, terminal := none, .. } =>
    some (s.modifyLane sessionId fun lane =>
      { lane with
        terminal := some
          { status := .failed, runId, failureMessageRef := none
            deadSession := some message } }).tickLane
  | _ => none

def setLaneResolution (s : ControllerState) (sessionId : String) (resolution : LaneResolution) :
    ControllerState :=
  s.modifyLane sessionId fun lane => { lane with resolution := some resolution }

def laneHasTerminal (s : ControllerState) (sessionId : String) : Bool :=
  (s.activeBySession.get? sessionId).any fun lane => lane.terminal.isSome

/-! ## Finishing deliveries -/

def rememberDelivery (s : ControllerState) (recent : BotRecentDelivery) : ControllerState :=
  let recents := s.recentDeliveries ++ [recent]
  { s with
    recentDeliveries := recents.drop (recents.length - botRecentDeliveryCap)
    eventsProcessed := s.eventsProcessed + 1 }

def releaseLane (s : ControllerState) (sessionId : String) (nowMs : Int) : ControllerState :=
  let s := s.removeLane sessionId
  let s :=
    if s.lanesAwaitingTerminal.isEmpty then { s with deadSessionSweepAtMs := none } else s
  (s.touchSession sessionId nowMs).tickLane

def releaseSidecar (s : ControllerState) (sessionId : String) (nowMs : Int) : ControllerState :=
  let s := { s with sidecarBySession := s.sidecarBySession.erase sessionId }
  (s.touchSession sessionId nowMs).tickLane

/-! ## Emissions -/

/-- Dedupe by emission id, then classify; `none` is a duplicate. -/
def classify (s : ControllerState) (envelope : EmissionEnvelope) :
    ControllerState × Option EmissionDisposition :=
  let (new, seen) := s.seenEmissionIds.insert envelope.emissionId
  if !new then ({ s with duplicateEmissions := s.duplicateEmissions + 1 }, none)
  else
    let s := { s with seenEmissionIds := seen }
    match classifyEmission s.config s.mainSessionId envelope with
    | .invocation sessionId invocation holderWorkflowId =>
      let (new, handled) := s.handledInvocationIds.insert invocation.invocationId
      if !new then (s, some .ignore)
      else
        ({ s with handledInvocationIds := handled },
          some (.invocation sessionId invocation holderWorkflowId))
    | other => (s, some other)

/-! ## Loop control -/

/-- Whether a parked loop should wake, given the ticks that it observed when it parked. -/
def wakeReady (s : ControllerState) (laneTick eventTick : Nat) : Bool :=
  s.closeRequested || !s.emissionInbox.isEmpty || !s.pendingInvocations.isEmpty ||
    s.reconcileDue s.clockMs || s.laneTick != laneTick || s.eventTick != eventTick ||
    s.dispatchable s.clockMs

/-- The earliest time-driven reason to wake. -/
def wakeDeadline (s : ControllerState) (nowMs : Int) : Option Int :=
  [s.nextBufferDeadline, s.nextIdleCloseDeadline, s.rotationRetryAtMs, s.deadSessionSweepAtMs,
    s.reconcileRetryAtMs.filter fun _ => s.configDirty && s.mainSessionFree,
    ((s.pendingDeliveries.filterMap (·.notBeforeMs)).filter (nowMs < ·)).min?,
    if !s.pendingDeliveries.isEmpty && s.config.runsPerDay.isSome && s.budgetExhaustedView nowMs
      then some (nowMs + msUntilNextUtcDay nowMs) else none,
    if s.config.runsPerDay.isSome && !s.activeBySession.lanes.entries.isEmpty
      then some (s.descendantsRefreshedAtMs + botDescendantRefreshIntervalMs) else none
  ].reduceOption.min?

/-- Whether the controller is quiet enough to continue as new. -/
def canContinueAsNew (s : ControllerState) (suggested : Bool) (lanesPolled : Nat) : Bool :=
  s.emissionInbox.isEmpty && s.pendingInvocations.isEmpty &&
    (s.activeBySession.values.all fun lane => lane.parked && lane.terminal.isNone) &&
    s.sidecarBySession.entries.isEmpty && lanesPolled == s.activeBySession.lanes.entries.length &&
    !s.closeRequested && (botContinueAsNewAfterEvents ≤ s.eventsProcessed || suggested)

/-! ## Teardown -/

/-- Every event not yet delivered: pending, buffered, and active. -/
def teardownEventIds (s : ControllerState) : List String :=
  (s.pendingDeliveries.flatMap BotDelivery.eventIds ++
    s.buffers.values.flatMap (fun buffer => buffer.events.map (·.id)) ++
    s.activeBySession.values.flatMap fun lane => lane.delivery.eventIds).eraseDups

/-- Every session that this controller knows: main generations and routed sessions. -/
def teardownSessions (s : ControllerState) : List String :=
  ((List.range s.mainGeneration).map (fun n => botMainSessionId s.config.botId (n + 1)) ++
    s.extraSessions.map (·.sessionId)).eraseDups

end ControllerState

end Lightspeed.Bots
