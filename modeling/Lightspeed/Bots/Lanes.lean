import Lightspeed.Bots.State

/-!
# Lanes

The detached tasks that run beside the controller's loop: one delivery on one session, a steer or
append sidecar beside a running lane, the settling of a finished delivery, and the answer to a pushed
invocation. A task is the locals that it holds and the point where it waits. It is resumed with the
answer to what it waits for, and runs without interruption until it waits again; between two such
points the loop and the other tasks may run.
-/

namespace Lightspeed.Bots

open Lib Harness

/-! ## What the controller asks, and the answers -/

inductive BotSessionStatus where
  | idle
  | busy (runId : Option String)
  | failed
  | closed
  | missing
  deriving DecidableEq

/-- Nothing will serve a run on the session or end the one it holds. -/
def BotSessionStatus.isDead : BotSessionStatus → Bool
  | .failed | .closed | .missing => true
  | .idle | .busy _ => false

/-- A missing session has no row left to close. -/
def needsCloseToRollForward (status : BotSessionStatus) : Bool := status != .missing

def deadSessionMessage (sessionId : String) : BotSessionStatus → String
  | .failed => "session " ++ sessionId ++ " has failed: its workflow is no longer running"
  | .closed => "session " ++ sessionId ++ " is closed"
  | .missing => "session " ++ sessionId ++ " is missing"
  | .idle | .busy _ => "session " ++ sessionId ++ " is unavailable"

/-- Create or reconcile one of the bot's sessions. -/
structure BotEnsureSessionRequest where
  universeId : String
  botId : BotId
  sessionId : String
  sessionKey : Option String
  sessionLabel : Option String
  displayName : Option String
  profileId : String
  brief : Option String
  selfConfig : Bool
  emit : Bool
  appliedProfileRevision : Option Nat
  toolsRef : Option String
  deriving DecidableEq

def ensureRequest (s : ControllerState) (sessionId displayName : String)
    (appliedProfileRevision : Option Nat) (toolsRef : Option String)
    (routedSession : Option RoutedSession) : BotEnsureSessionRequest :=
  { universeId := s.config.universeId
    botId := s.config.botId
    sessionId
    sessionKey := routedSession.bind (·.sessionKey)
    sessionLabel := routedSession.map (·.label)
    displayName := some displayName
    profileId := s.config.profileId
    brief := s.config.brief
    selfConfig := s.config.selfConfig
    emit := s.config.emit
    appliedProfileRevision
    toolsRef }

/-- An accepted tool invocation, as a session's log has it. -/
structure BotToolInvocationRef where
  workflowToolId : String
  runId : String
  argumentsRef : String

/-- What a wait ends with: the result of the activity that was asked, its failure, or for a wait on
the state that it is over. -/
inductive Answer where
  | woken
  | done
  | failed (message : String)
  | ensured (profileRevision : Nat) (carriedToolIds : List String)
  | declarationMismatch (message : String)
  | profileUnapplicable (message : String)
  | sessionDead (message : String)
  | status (status : BotSessionStatus)
  | closed (closed : Bool)
  | steered (runId : String)
  | notRunning
  | started (runId : String) (finished : Option RunStatus)
  | retry (message : String)
  | refused (message : String)
  | invocations (nextSeq : Nat) (invocations : List BotToolInvocationRef)
  | arguments (parsed : Except String LaneResolution)
  | deadSessions (dead : List (String × BotSessionStatus))
  | counted (count : Nat)
  | executed (refError : Option String)

/-- What happened, in order. The controller does not read it. -/
inductive Obs where
  | configured (config : BotControllerConfig)
  | accepted (event : BotEvent)
  | queued (delivery : BotDelivery)
  | begun (delivery : BotDelivery) (sessionId runId : String) (atMs : Int)
  | remembered (delivery : BotDelivery)
  | rekeyed (source target : String) (displaced : Option ActiveLane)
  | ready (request : BotEnsureSessionRequest) (profileRevision : Nat)
  | archived (eventIds : List String)
  deriving DecidableEq

/-! ## The tasks -/

/-- What reading a run's resolve calls waits for: the calls, or the arguments of one. -/
inductive ReconcilePc where
  | reading
  | parsing (invocations : List BotToolInvocationRef) (invocation : BotToolInvocationRef)
      (rest : List BotToolInvocationRef)

/-- What follows the publication of the directory. -/
inductive AfterPublish where
  | append
  | steer
  | start

/-- Where a delivery lane waits. -/
inductive LanePc where
  | start
  | ensuring (session : RoutedSession) (attempt : Nat) (request : BotEnsureSessionRequest)
  | evicting (keep victim : String)
  | rollingForward (message : String)
  | publishing (next : AfterPublish)
  | appending
  | readingAppendStatus (message : String)
  | readingStatus
  | steering
  | starting
  | receipting (runId : String) (finished : Option RunStatus)
  | reconciling (runId : String) (status : RunStatus) (pc : ReconcilePc)
  | resuming (runId : String)
  | waiting (runId : String)
  | readingUsage (outcome : DeliveryOutcome)

/-- Where a sidecar waits. -/
inductive SidecarPc where
  | start
  | appending
  | readingStatus
  | steering

/-- Where the settling of a finished delivery waits. -/
inductive SettlePc where
  | outcomes
  | botReceipts
  | deliveryReceipts

/-- Where the answer to a pushed invocation waits. -/
inductive InvocationPc where
  | start
  | executing
  | signalling

inductive Task where
  | lane (delivery : BotDelivery) (target : String) (pc : LanePc)
  | sidecar (delivery : BotDelivery) (target : String) (pc : SidecarPc)
  | settling (delivery : BotDelivery) (sessionId : String) (outcome : DeliveryOutcome) (pc : SettlePc)
  | invocation (pending : PendingInvocation) (pc : InvocationPc)

/-- A task's stretch between two waits: the state that it leaves, what happened, and the task where it
waits again, if it does. -/
structure Turn where
  state : ControllerState
  log : List Obs := []
  task : Option Task := none

/-! ## Reading a run's resolve calls -/

/-- The resolve calls of one run, in log order. -/
def resolveInvocationsForRun (invocations : List BotToolInvocationRef) (runId : String) :
    List BotToolInvocationRef :=
  invocations.filter fun invocation =>
    invocation.runId == runId && invocation.workflowToolId == botEventResolveToolId

/-- Whether a run answered through a tool that its session was created with. -/
def usedCarriedTool (invocations : List BotToolInvocationRef) (runId : String)
    (carriedToolIds : List String) : Bool :=
  !carriedToolIds.isEmpty && invocations.any fun invocation =>
    invocation.runId == runId && carriedToolIds.contains invocation.workflowToolId

/-- A run that used a carried tool without resolving counts as handled. -/
def reconcileUnresolved (runId target : String) (invocations : List BotToolInvocationRef)
    (s : ControllerState) : ControllerState :=
  if (s.activeBySession.get? target).any fun lane => lane.resolution.isNone then
    let carried := ((s.extraSession target).map (·.carriedToolIds)).getD []
    if usedCarriedTool invocations runId carried then
      s.setLaneResolution target { outcome := .handled, summary := none }
    else s
  else s

/-- The next resolve call's arguments are read, or the run is read through. -/
def reconcileNext (runId target : String) (invocations : List BotToolInvocationRef)
    (s : ControllerState) : List BotToolInvocationRef → ControllerState × Option ReconcilePc
  | [] => (reconcileUnresolved runId target invocations s, none)
  | invocation :: rest => (s, some (.parsing invocations invocation rest))

/-- Folds a run's resolve calls into the lane on its session. The reading is over when there is no
next wait. -/
def reconcileRun (runId target : String) (pc : ReconcilePc) (answer : Answer)
    (s : ControllerState) : Option (ControllerState × Option ReconcilePc) :=
  match pc, answer with
  | .reading, .invocations nextSeq invocations =>
    some (reconcileNext runId target invocations (s.setCursor target nextSeq)
      (resolveInvocationsForRun invocations runId))
  | .reading, .failed message =>
    some (s.recordError ("read tool invocations of " ++ target ++ ": " ++ message), none)
  | .parsing invocations _ rest, .arguments (.ok resolution) =>
    some (reconcileNext runId target invocations (s.setLaneResolution target resolution) rest)
  | .parsing invocations _ rest, .arguments (.error message) =>
    some (reconcileNext runId target invocations
      (s.recordError ("bot_event_resolve arguments invalid: " ++ message)) rest)
  | .parsing invocations invocation rest, .failed message =>
    some (reconcileNext runId target invocations
      (s.recordError
        ("read bot_event_resolve arguments " ++ invocation.argumentsRef ++ ": " ++ message)) rest)
  | _, _ => none

/-! ## The end of a delivery -/

def runStatusLabel : RunStatus → String
  | .running => "active"
  | .parked => "parked"
  | .cancelling => "cancelling"
  | .completed => "completed"
  | .failed => "failed"
  | .cancelled => "cancelled"

/-- The outcome ladder of a lane that started a run. -/
def deliveryOutcome (terminal : LaneTerminal) (resolution : Option LaneResolution)
    (startedRunId : String) : DeliveryOutcome :=
  if terminal.status ≠ .completed then
    { outcome := .runFailed
      summary := some (terminal.deadSession.getD ("run ended " ++ runStatusLabel terminal.status))
      runId := some startedRunId }
  else
    match resolution with
    | some resolution =>
      { outcome := resolution.outcome, summary := resolution.summary, runId := some startedRunId }
    | none => { outcome := .unresolved, runId := some startedRunId }

def recentSnapshot (delivery : BotDelivery) (sessionId : String) (outcome : DeliveryOutcome)
    (finishedAtMs : Int) : BotRecentDelivery :=
  { deliveryId := delivery.id, seqs := delivery.seqs, sessionId, runId := outcome.runId
    outcome := outcome.outcome, summary := outcome.summary, finishedAtMs }

/-- Remember the delivery, free the lane, then settle. -/
def finishDelivery (nowMs : Int) (sessionId : String) (delivery : BotDelivery)
    (outcome : DeliveryOutcome) (s : ControllerState) : Turn :=
  { state :=
      (s.rememberDelivery (recentSnapshot delivery sessionId outcome nowMs)).releaseLane sessionId
        nowMs
    log := [.remembered delivery]
    task := some (.settling delivery sessionId outcome .outcomes) }

def failDelivery (nowMs : Int) (target : String) (delivery : BotDelivery) (message : String)
    (s : ControllerState) : Turn :=
  finishDelivery nowMs target delivery { outcome := .runFailed, summary := some message }
    (s.recordError message)

/-- After one of the best-effort calls of settling, whatever its result. -/
def settleTick (answer : Answer) (s : ControllerState) : Option ControllerState :=
  match answer with
  | .done => some s.tickLane
  | .failed message => some (s.recordError message).tickLane
  | _ => none

/-- The `finished` receipts, when a source asked for them. -/
def settleDeliveryReceipts (delivery : BotDelivery) (sessionId : String)
    (outcome : DeliveryOutcome) (s : ControllerState) : Turn :=
  if delivery.notifyEventIds.isEmpty then { state := s }
  else { state := s, task := some (.settling delivery sessionId outcome .deliveryReceipts) }

/-- The outcome on every event row, the reply receipts, and the delivery receipts. -/
def settleDelivery (delivery : BotDelivery) (sessionId : String) (outcome : DeliveryOutcome)
    (pc : SettlePc) (answer : Answer) (s : ControllerState) : Option Turn :=
  (settleTick answer s).map fun s =>
    match pc with
    | .outcomes =>
      if delivery.replyEventIds.isEmpty then settleDeliveryReceipts delivery sessionId outcome s
      else { state := s, task := some (.settling delivery sessionId outcome .botReceipts) }
    | .botReceipts => settleDeliveryReceipts delivery sessionId outcome s
    | .deliveryReceipts => { state := s }

/-! ## The delivery lane -/

/-- The lane moves to another session id. -/
def rekeyObs (source target : String) (s : ControllerState) : Obs :=
  .rekeyed source target
    (if s.activeBySession.contains source then (s.activeBySession.erase source).get? target
      else none)

/-- The lane goes on to a later wait. -/
def laneAt (delivery : BotDelivery) (target : String) (pc : LanePc) (s : ControllerState) : Turn :=
  { state := s, task := some (.lane delivery target pc) }

/-- An attempt on the successor of a dead session, which is closed and left behind. -/
def rollForwardAndRequeue (nowMs : Int) (delivery : BotDelivery) (target : String)
    (s : ControllerState) : Turn :=
  { state := (s.rollSessionForward target).requeueRolledForward target delivery nowMs }

/-- The session is dead and no run started on it; a delivery that already moved once ends. -/
def retryOnSuccessor (nowMs : Int) (delivery : BotDelivery) (target : String)
    (status : BotSessionStatus) (message : String) (s : ControllerState) : Turn :=
  if delivery.rolledForward then failDelivery nowMs target delivery message s
  else if needsCloseToRollForward status then laneAt delivery target (.rollingForward message) s
  else rollForwardAndRequeue nowMs delivery target s

/-- The session is running other work: the delivery waits in the queue. -/
def lookAgainLater (nowMs : Int) (delivery : BotDelivery) (target : String) (s : ControllerState) :
    Turn :=
  { state := s.requeueLane target delivery (nowMs + botBusyRetryDelayMs) }

def afterPublish : AfterPublish → LanePc
  | .append => .appending
  | .steer => .steering
  | .start => .starting

/-- An emitting bot reads the directory before it decides. -/
def publishDirectory (delivery : BotDelivery) (target : String) (next : AfterPublish)
    (s : ControllerState) : Turn :=
  laneAt delivery target (if s.config.emit then .publishing next else afterPublish next) s

/-- The lane's session is there. -/
def deliver (delivery : BotDelivery) (target : String) (s : ControllerState) : Turn :=
  if delivery.whenBusy = .append then publishDirectory delivery target .append s
  else laneAt delivery target .readingStatus s

/-- The routed session is there, under the id that was ensured. -/
def routedSessionReady (delivery : BotDelivery) (target ensured : String) (s : ControllerState) :
    Turn :=
  if ensured ≠ target then
    let turn := deliver delivery ensured (s.rekeyLane target ensured)
    { turn with log := rekeyObs target ensured s :: turn.log }
  else deliver delivery target s

/-- A session that is known is ready at once; any other is asked for. -/
def ensureRoutedSession (nowMs : Int) (delivery : BotDelivery) (target : String)
    (session : RoutedSession) (attempt : Nat) (sessionId : String) (s : ControllerState) : Turn :=
  match s.observeRoutedSession sessionId session nowMs with
  | some s => routedSessionReady delivery target sessionId s
  | none =>
    laneAt delivery target
      (.ensuring session attempt
        (ensureRequest s sessionId (s.routedLabel session.label) none
          (delivery.events.head?.bind (·.toolsRef)) (some session))) s

/-- The idlest free session is closed while too many are tracked. -/
def enforceExtraSessionCap (delivery : BotDelivery) (target keep : String) (s : ControllerState) :
    Turn :=
  if botExtraSessionCap < s.extraSessions.length then
    match s.idlestFreeSession keep with
    | none => routedSessionReady delivery target keep s
    | some victim => laneAt delivery target (.evicting keep victim) s
  else routedSessionReady delivery target keep s

/-- The routed session could not be created; the reason is the last error. -/
def routedSessionFailed (nowMs : Int) (delivery : BotDelivery) (target : String)
    (s : ControllerState) : Turn :=
  finishDelivery nowMs target delivery
    { outcome := .runFailed
      summary := some
        ("failed to create session " ++ target ++ ": " ++ s.lastError.getD "unknown") } s

/-- A mismatch rotates the key to its next generation and retries once. -/
def routedSessionMismatch (nowMs : Int) (delivery : BotDelivery) (target : String)
    (session : RoutedSession) (attempt : Nat) (sessionId message : String) (s : ControllerState) :
    Turn :=
  if attempt = 0 then
    let base := routedSessionBase sessionId
    let s := s.bumpRoutedGeneration base
    ensureRoutedSession nowMs delivery target session 1 (s.resolveRoutedSessionId base) s
  else routedSessionFailed nowMs delivery target (s.recordError message)

/-- The answer to the request for a routed session. -/
def resumeEnsuring (nowMs : Int) (delivery : BotDelivery) (target : String)
    (session : RoutedSession) (attempt : Nat) (request : BotEnsureSessionRequest) (answer : Answer)
    (s : ControllerState) : Option Turn :=
  match answer with
  | .ensured _ carriedToolIds =>
    some (enforceExtraSessionCap delivery target request.sessionId
      { s with
        extraSessions := s.extraSessions ++
          [{ sessionId := request.sessionId
             label := session.label
             sessionKey := session.sessionKey
             kind := botSessionKind request.sessionId
             lastActiveAtMs := some nowMs
             closePolicy := session.closePolicy
             carriedToolIds }] })
  | .declarationMismatch message | .profileUnapplicable message =>
    some (routedSessionMismatch nowMs delivery target session attempt request.sessionId message s)
  | .sessionDead message =>
    let turn := retryOnSuccessor nowMs delivery request.sessionId .failed message
      (s.rekeyLane target request.sessionId)
    some { turn with log := rekeyObs target request.sessionId s :: turn.log }
  | .failed message => some (routedSessionFailed nowMs delivery target (s.recordError message))
  | _ => none

/-- The result of a close; a failure is recorded. -/
def closeSession (sessionId : String) (answer : Answer) (s : ControllerState) :
    Option (ControllerState × Bool) :=
  match answer with
  | .closed closed => some (s, closed)
  | .failed message => some (s.recordError ("close " ++ sessionId ++ ": " ++ message), false)
  | _ => none

def resumeEvicting (delivery : BotDelivery) (target keep victim : String) (answer : Answer)
    (s : ControllerState) : Option Turn :=
  (closeSession victim answer s).map fun (s, closed) =>
    if closed then enforceExtraSessionCap delivery target keep (s.forgetRoutedSession victim)
    else routedSessionReady delivery target keep s

def resumeRollingForward (nowMs : Int) (delivery : BotDelivery) (target message : String)
    (answer : Answer) (s : ControllerState) : Option Turn :=
  (closeSession target answer s).map fun (s, closed) =>
    if closed then rollForwardAndRequeue nowMs delivery target s
    else failDelivery nowMs target delivery message s

/-- The directory is published, or it is stale. -/
def resumePublishing (delivery : BotDelivery) (target : String) (next : AfterPublish)
    (answer : Answer) (s : ControllerState) : Option Turn :=
  match answer with
  | .done => some (laneAt delivery target (afterPublish next) s)
  | .failed message => some (laneAt delivery target (afterPublish next) (s.recordError message))
  | _ => none

def resumeAppending (nowMs : Int) (delivery : BotDelivery) (target : String) (answer : Answer)
    (s : ControllerState) : Option Turn :=
  match answer with
  | .done => some (finishDelivery nowMs target delivery { outcome := .appended } s)
  | .failed message => some (laneAt delivery target (.readingAppendStatus message) s)
  | _ => none

def resumeAppendStatus (nowMs : Int) (delivery : BotDelivery) (target message : String)
    (answer : Answer) (s : ControllerState) : Option Turn :=
  match answer with
  | .status status =>
    if status.isDead then some (retryOnSuccessor nowMs delivery target status message s)
    else some (failDelivery nowMs target delivery message s)
  | .failed _ => some (failDelivery nowMs target delivery message s)
  | _ => none

/-- A busy session takes the events as steering, or the delivery looks again later. -/
def resumeStatus (nowMs : Int) (delivery : BotDelivery) (target : String) (answer : Answer)
    (s : ControllerState) : Option Turn :=
  match answer with
  | .status .idle => some (publishDirectory delivery target .start s)
  | .status (.busy _) =>
    if delivery.whenBusy ≠ .steer then some (lookAgainLater nowMs delivery target s)
    else some (publishDirectory delivery target .steer s)
  | .status dead =>
    some (retryOnSuccessor nowMs delivery target dead (deadSessionMessage target dead) s)
  | .failed message => some (failDelivery nowMs target delivery message s)
  | _ => none

def resumeSteering (nowMs : Int) (delivery : BotDelivery) (target : String) (answer : Answer)
    (s : ControllerState) : Option Turn :=
  match answer with
  | .steered runId =>
    some (finishDelivery nowMs target delivery { outcome := .steered, runId := some runId } s)
  | .notRunning => some (lookAgainLater nowMs delivery target s)
  | .failed message => some (failDelivery nowMs target delivery message s)
  | _ => none

/-- The lane waits for the end of its run. -/
def waitForRunEnd (delivery : BotDelivery) (target runId : String) (s : ControllerState) : Turn :=
  laneAt delivery target (.waiting runId) (s.parkLane target)

/-- The run is started and the receipts are sent; a run that is already over is read at once. -/
def afterStart (delivery : BotDelivery) (target runId : String) (finished : Option RunStatus)
    (s : ControllerState) : Turn :=
  match finished with
  | none => waitForRunEnd delivery target runId s
  | some status => laneAt delivery target (.reconciling runId status .reading) s

/-- A start that may still succeed goes back to the queue while attempts are left. -/
def retryStart (nowMs : Int) (delivery : BotDelivery) (target message : String)
    (s : ControllerState) : Turn :=
  match s.retryDelivery target delivery nowMs with
  | none => failDelivery nowMs target delivery message s
  | some s => { state := s.recordError message }

def resumeStarting (nowMs : Int) (delivery : BotDelivery) (target : String) (answer : Answer)
    (s : ControllerState) : Option Turn :=
  match answer with
  | .started runId finished =>
    let s := s.markLaneStarted target runId nowMs
    let turn :=
      if delivery.notifyEventIds.isEmpty then afterStart delivery target runId finished s
      else laneAt delivery target (.receipting runId finished) s
    some { turn with log := [.begun delivery target runId nowMs] }
  | .refused message => some (failDelivery nowMs target delivery message s)
  | .sessionDead message => some (retryOnSuccessor nowMs delivery target .failed message s)
  | .retry message | .failed message => some (retryStart nowMs delivery target message s)
  | _ => none

section

variable (sha256Hex : String → String)

/-- Reads a run that was over before its lane waited, then hands the lane its end. -/
def resumeReconciling (delivery : BotDelivery) (target runId : String) (status : RunStatus)
    (pc : ReconcilePc) (answer : Answer) (s : ControllerState) : Option Turn :=
  (reconcileRun runId target pc answer s).map fun
    | (s, some pc) => laneAt delivery target (.reconciling runId status pc) s
    | (s, none) =>
      waitForRunEnd delivery target runId
        (s.attachTerminal sha256Hex (deliveryTerminalToken sha256Hex delivery.id)
          { status, runId, failureMessageRef := none, deadSession := none })

/-- The run is over: its usage is read unless it failed. -/
def resumeWaiting (nowMs : Int) (delivery : BotDelivery) (target runId : String)
    (s : ControllerState) : Turn :=
  match s.activeBySession.get? target with
  | some { terminal := some terminal, resolution, .. } =>
    let outcome := deliveryOutcome terminal resolution runId
    if outcome.runId.isSome && outcome.outcome != .runFailed then
      laneAt delivery target (.readingUsage outcome) s
    else finishDelivery nowMs target delivery outcome s
  | _ => failDelivery nowMs target delivery ("the lane on session " ++ target ++ " lost its run's end") s

/-- The first stretch of a lane. -/
def startLane (nowMs : Int) (delivery : BotDelivery) (target : String) (s : ControllerState) :
    Turn :=
  if delivery.events.isEmpty then { state := (s.removeLane target).tickLane }
  else
    match delivery.session with
    | none => deliver delivery target s
    | some session => ensureRoutedSession nowMs delivery target session 0 target s

/-- A delivery lane is resumed. -/
def resumeLane (nowMs : Int) (delivery : BotDelivery) (target : String) (pc : LanePc)
    (answer : Answer) (s : ControllerState) : Option Turn :=
  match pc with
  | .start => if answer matches .woken then some (startLane nowMs delivery target s) else none
  | .ensuring session attempt request =>
    resumeEnsuring nowMs delivery target session attempt request answer s
  | .evicting keep victim => resumeEvicting delivery target keep victim answer s
  | .rollingForward message => resumeRollingForward nowMs delivery target message answer s
  | .publishing next => resumePublishing delivery target next answer s
  | .appending => resumeAppending nowMs delivery target answer s
  | .readingAppendStatus message => resumeAppendStatus nowMs delivery target message answer s
  | .readingStatus => resumeStatus nowMs delivery target answer s
  | .steering => resumeSteering nowMs delivery target answer s
  | .starting => resumeStarting nowMs delivery target answer s
  | .receipting runId finished => (settleTick answer s).map (afterStart delivery target runId finished)
  | .reconciling runId status pc =>
    resumeReconciling sha256Hex delivery target runId status pc answer s
  | .resuming runId =>
    if answer matches .woken then some (waitForRunEnd delivery target runId s) else none
  | .waiting runId =>
    if answer matches .woken && s.laneHasTerminal target then
      some (resumeWaiting nowMs delivery target runId s)
    else none
  | .readingUsage outcome =>
    match answer with
    | .done | .failed _ => some (finishDelivery nowMs target delivery outcome s)
    | _ => none

end

/-! ## The sidecar -/

/-- The sidecar is settled, and releases its session. -/
def settleSidecar (nowMs : Int) (delivery : BotDelivery) (target : String)
    (outcome : DeliveryOutcome) (s : ControllerState) : Turn :=
  { state :=
      (s.rememberDelivery (recentSnapshot delivery target outcome nowMs)).releaseSidecar target nowMs
    log := [.remembered delivery]
    task := some (.settling delivery target outcome .outcomes) }

def failSidecar (nowMs : Int) (delivery : BotDelivery) (target message : String)
    (s : ControllerState) : Turn :=
  settleSidecar nowMs delivery target { outcome := .runFailed, summary := some message }
    (s.recordError message)

/-- The run finished under the sidecar: the delivery goes back to the front of the queue. -/
def requeueSidecar (nowMs : Int) (delivery : BotDelivery) (target : String) (s : ControllerState) :
    Turn :=
  { state := (s.requeueFront delivery (nowMs + botBusyRetryDelayMs)).releaseSidecar target nowMs }

def sidecarAt (delivery : BotDelivery) (target : String) (pc : SidecarPc) (s : ControllerState) :
    Turn :=
  { state := s, task := some (.sidecar delivery target pc) }

/-- A sidecar is resumed. It never starts a run. -/
def resumeSidecar (nowMs : Int) (delivery : BotDelivery) (target : String) (pc : SidecarPc)
    (answer : Answer) (s : ControllerState) : Option Turn :=
  match pc, answer with
  | .start, .woken =>
    if delivery.events.isEmpty then some { state := s.releaseSidecar target nowMs }
    else if delivery.whenBusy = .append then some (sidecarAt delivery target .appending s)
    else some (sidecarAt delivery target .readingStatus s)
  | .appending, .done => some (settleSidecar nowMs delivery target { outcome := .appended } s)
  | .readingStatus, .status (.busy _) => some (sidecarAt delivery target .steering s)
  | .readingStatus, .status .idle | .readingStatus, .status .closed =>
    some (requeueSidecar nowMs delivery target s)
  | .readingStatus, .status dead =>
    some (failSidecar nowMs delivery target (deadSessionMessage target dead) s)
  | .steering, .steered runId =>
    some (settleSidecar nowMs delivery target { outcome := .steered, runId := some runId } s)
  | .steering, .notRunning => some (requeueSidecar nowMs delivery target s)
  | .appending, .failed message | .readingStatus, .failed message | .steering, .failed message =>
    some (failSidecar nowMs delivery target message s)
  | _, _ => none

/-! ## Pushed tools -/

def replyCompletionKey : String := "reply"

/-- The answer to a pushed invocation is resumed. -/
def resumeInvocation (pending : PendingInvocation) (pc : InvocationPc) (answer : Answer)
    (s : ControllerState) : Option Turn :=
  match pc, answer with
  | .start, .woken =>
    match pending.invocation.completionPromises.bind (·.get? replyCompletionKey) with
    | none =>
      some { state := s.recordError ("pushed invocation " ++ pending.invocation.invocationId ++
        " of " ++ pending.invocation.workflowToolId ++ " carries no reply promise") }
    | some _ => some { state := s, task := some (.invocation pending .executing) }
  | .executing, .executed none =>
    some { state := s, task := some (.invocation pending .signalling) }
  | .executing, .executed (some error) =>
    some
      { state := s.recordError ("tool result ref: " ++ error)
        task := some (.invocation pending .signalling) }
  | .executing, .failed message =>
    some { state := s.recordError message, task := some (.invocation pending .signalling) }
  | .signalling, .done => some { state := s.tickLane }
  | .signalling, .failed message =>
    some { state := (s.recordError ("resolve pushed invocation at " ++ pending.holderWorkflowId ++
      ": " ++ message)).tickLane }
  | _, _ => none

/-- A task is resumed with an answer. -/
def Task.resume (sha256Hex : String → String) (nowMs : Int) (task : Task) (answer : Answer)
    (s : ControllerState) : Option Turn :=
  match task with
  | .lane delivery target pc => resumeLane sha256Hex nowMs delivery target pc answer s
  | .sidecar delivery target pc => resumeSidecar nowMs delivery target pc answer s
  | .settling delivery sessionId outcome pc => settleDelivery delivery sessionId outcome pc answer s
  | .invocation pending pc => resumeInvocation pending pc answer s

end Lightspeed.Bots
