import Lightspeed.Lib.Machine
import Lightspeed.Bots.Lanes

/-!
# The controller

The loop of a bot's controller, and the system that it makes with its tasks, its signals and the
clock. The loop runs one pass for each wake, stage after stage; where a stage waits for an activity,
signals arrive, time passes and tasks run until the answer comes. A loop that is inside a pass and
does not wait lets nothing else happen.
-/

namespace Lightspeed.Bots

open Lib Harness

/-- What the loop does next, without waiting. -/
inductive Stage where
  | check
  | emissions
  | invocations
  | sweep
  | rollDead (dead : List (String × BotSessionStatus))
  | rotate
  | rotateEach (nowMs : Int) (targets : List String) (retry : Bool)
  | flush
  | idle
  | closeIdle (nowMs : Int) (sessions : List String)
  | descendants
  | rename
  | renameEach (targets : List (String × String))
  | reconcile
  | ensureMain (attempt : Nat)
  | dispatch
  | renew
  | park
  | teardown
  | clear
  | closeEach (sessions : List String)
  deriving DecidableEq

/-- What the loop waits for. -/
inductive Wait where
  | begin
  | readingRun (sessionId runId token : String) (status : RunStatus)
      (failureMessageRef : Option BlobRef) (pc : ReconcilePc)
  | readingDead
  | rollingDead (sessionId : String) (dead : List (String × BotSessionStatus))
  | rotating (nowMs : Int) (target : String) (isMain : Bool) (targets : List String) (retry : Bool)
  | closingIdle (nowMs : Int) (sessionId : String) (sessions : List String)
  | counting
  | renaming (targets : List (String × String))
  | readingMain (main : String)
  | rollingMain (main : String) (status : BotSessionStatus)
  | ensuringMain (attempt : Nat) (request : BotEnsureSessionRequest)
  | rollingEnsure (main message : String)
  | archiving
  | closingEach (sessionId : String) (sessions : List String)
  | recordingClosed
  | parked (laneTick eventTick : Nat) (deadline : Option Int)

inductive LoopPc where
  | running (stage : Stage)
  | waiting (wait : Wait)
  | completed

/-- A controller: its state, where its loop is, its tasks in the order in which they are polled, the
workflow's clock, and what happened so far. -/
structure System where
  state : ControllerState
  loop : LoopPc
  tasks : List Task
  nowMs : Int
  log : List Obs

namespace System

/-- The loop goes on with a stage. -/
def goto (s : System) (stage : Stage) (state : ControllerState) : System :=
  { s with state, loop := .running stage }

/-- The loop waits. -/
def await (s : System) (wait : Wait) (state : ControllerState) : System :=
  { s with state, loop := .waiting wait }

def withLog (s : System) (log : List Obs) : System := { s with log := s.log ++ log }

/-- The deliveries that joined the end of the queue. -/
def queuedSince (before after : ControllerState) : List Obs :=
  (after.pendingDeliveries.drop before.pendingDeliveries.length).map .queued

section

variable (sha256Hex : String → String)

/-! ## Emissions -/

/-- One emission of the inbox. -/
def processEmission (s : System) (state : ControllerState) (envelope : EmissionEnvelope) : System :=
  match state.classify envelope with
  | (state, none) => s.goto .emissions state
  | (state, some (.foreign message)) => s.goto .emissions (state.recordError message)
  | (state, some (.invocation _ invocation holderWorkflowId)) =>
    s.goto .emissions
      { state with
        pendingInvocations := state.pendingInvocations ++ [{ invocation, holderWorkflowId }] }
  | (state, some (.terminal sessionId runId token status failureMessageRef)) =>
    if state.laneAwaitsTerminalFrom sha256Hex sessionId token then
      s.await (.readingRun sessionId runId token status failureMessageRef .reading) state
    else s.goto .emissions state
  | (state, some .ignore) => s.goto .emissions state

/-- Drain the emission inbox. -/
def processEmissions (s : System) : System :=
  match s.state.emissionInbox with
  | [] => s.goto .invocations s.state
  | envelope :: rest =>
    s.processEmission sha256Hex { s.state with emissionInbox := rest } envelope

def spawnInvocationLanes (s : System) : System :=
  { s with
    tasks := s.tasks ++ s.state.pendingInvocations.map fun pending => Task.invocation pending .start
  }.goto .sweep { s.state with pendingInvocations := [] }

/-! ## Sessions -/

/-- Check the sessions of the lanes that wait on a run, when that is due. -/
def sweepDeadSessions (s : System) : System :=
  let (state, sessionIds) := s.state.takeDeadSessionSweep s.nowMs
  if sessionIds.isEmpty then s.goto .rotate state else s.await .readingDead state

/-- A dead session ends its lane's wait, and is left behind. -/
def rollDead (s : System) : List (String × BotSessionStatus) → System
  | [] => s.goto .rotate s.state
  | (sessionId, status) :: rest =>
    let message := deadSessionMessage sessionId status ++
      "; the run reported no end and may have partly happened"
    match s.state.failLaneOnDeadSession sessionId message with
    | none => s.goto (.rollDead rest) s.state
    | some state =>
      if needsCloseToRollForward status then s.await (.rollingDead sessionId rest) state
      else s.goto (.rollDead rest) (state.rollSessionForward sessionId)

/-- Close the sessions that an operator selected, when their retry is due. -/
def rotateRequestedSessions (s : System) : System :=
  if s.state.rotationRequests.entries.isEmpty then
    s.goto .flush { s.state with rotationRetryAtMs := none }
  else if s.state.rotationRetryAtMs.any (s.nowMs < ·) then s.goto .flush s.state
  else s.goto (.rotateEach s.nowMs s.state.rotationRequests.keys false) s.state

def rotateEach (s : System) (nowMs : Int) (retry : Bool) : List String → System
  | [] =>
    s.goto .flush
      { s.state with
        rotationRetryAtMs := if retry then some (nowMs + rotationRetryDelayMs) else none }
  | target :: rest =>
    let isMain := target == s.state.mainSessionId
    if !isMain && (s.state.extraSession target).isNone then
      s.goto (.rotateEach nowMs rest retry)
        { s.state with rotationRequests := s.state.rotationRequests.erase target }
    else if s.state.isSessionBusy target then s.goto (.rotateEach nowMs rest true) s.state
    else s.await (.rotating nowMs target isMain rest retry) s.state

/-- A session that an operator selected is closed: its generation advances. -/
def rotateClosed (state : ControllerState) (target : String) (isMain : Bool) : ControllerState :=
  let state := { state with
    budgetRoots := state.budgetRoots.insert target ()
    rotationRequests := state.rotationRequests.erase target
    lastError := none }
  if isMain then state.rotateMainSession true else state.forgetRoutedSession target

def flushRipe (s : System) : System :=
  let state := s.state.flushRipeBuffers sha256Hex s.nowMs
  (s.withLog (queuedSince s.state state)).goto .idle state

/-- Close routed sessions idle past their close window, one after the other. -/
def closeIdle (s : System) (nowMs : Int) : List String → System
  | [] => s.goto .descendants s.state
  | sessionId :: rest => s.await (.closingIdle nowMs sessionId rest) s.state

/-- Re-count today's sub-agent descendants, when that is due. -/
def refreshDescendantsToday (s : System) : System :=
  let state := s.state.rollBudgetDay s.nowMs
  if !state.descendantsRefreshDue s.nowMs then s.goto .rename state
  else
    let state := state.addBudgetRoots
    s.await .counting
      { state with
        descendantsRefreshedAtMs := s.nowMs
        descendantsRefreshedProcessed := some state.eventsProcessed }

/-- Apply a display-name change to every controlled session. -/
def applyDisplayName (s : System) : System :=
  if s.state.renameDirty then
    let state := { s.state with renameDirty := false }
    s.goto (.renameEach ((state.mainSessionId, state.botLabel) ::
      state.extraSessions.map fun session => (session.sessionId, state.routedLabel session.label)))
      state
  else s.goto .reconcile s.state

def renameEach (s : System) : List (String × String) → System
  | [] => s.goto .reconcile s.state
  | _ :: rest => s.await (.renaming rest) s.state

/-! ## The main session -/

/-- One attempt at a dirty main session, which is read first when it is ready. -/
def reconcileUnlessBusy (s : System) : System :=
  if s.state.reconcileDue s.nowMs then
    if s.state.sessionReady then s.await (.readingMain s.state.mainSessionId) s.state
    else s.goto (.ensureMain 0) s.state
  else s.goto .dispatch s.state

/-- Ask for the main session as the configuration has it. -/
def ensureMain (s : System) (attempt : Nat) : System :=
  s.await
    (.ensuringMain attempt
      (ensureRequest s.state s.state.mainSessionId s.state.botLabel
        s.state.appliedRevisionForEnsure none none)) s.state

/-- The main session could not be brought in line. -/
def degraded (s : System) (message : String) (state : ControllerState) : System :=
  s.goto .dispatch (state.markSessionDegraded message s.nowMs)

/-- The status of a main session that was ready. -/
def resumeReadingMain (s : System) (main : String) (answer : Answer) : Option System :=
  match answer with
  | .status (.busy _) =>
    some (s.goto .dispatch
      { s.state with reconcileRetryAtMs := some (s.nowMs + botBusyRetryDelayMs) })
  | .status .idle | .failed _ => some (s.goto (.ensureMain 0) s.state)
  | .status dead =>
    if needsCloseToRollForward dead then some (s.await (.rollingMain main dead) s.state)
    else some (s.goto (.ensureMain 0) (s.state.rollSessionForward main))
  | _ => none

def resumeRollingMain (s : System) (main : String) (status : BotSessionStatus) (answer : Answer) :
    Option System :=
  (closeSession main answer s.state).map fun (state, closed) =>
    if closed then s.goto (.ensureMain 0) (state.rollSessionForward main)
    else s.degraded (deadSessionMessage main status) state

/-- The answer to the request for the main session. A mismatch rotates it once for each failure
streak, and so does a session that turns out dead; any other failure degrades the controller. -/
def resumeEnsuringMain (s : System) (attempt : Nat) (request : BotEnsureSessionRequest)
    (answer : Answer) : Option System :=
  match answer with
  | .ensured profileRevision _ =>
    some ((s.withLog [.ready request profileRevision]).goto .dispatch
      (s.state.markSessionReady profileRevision))
  | .declarationMismatch message | .profileUnapplicable message =>
    match if attempt = 0 then s.state.rotateMainForReconcile else none with
    | some state => some (s.goto (.ensureMain 1) state)
    | none => some (s.degraded message s.state)
  | .sessionDead message =>
    if attempt = 0 && !s.state.reconcileRotated then
      some (s.await (.rollingEnsure s.state.mainSessionId message) s.state)
    else some (s.degraded message s.state)
  | .failed message => some (s.degraded message s.state)
  | _ => none

def resumeRollingEnsure (s : System) (main message : String) (answer : Answer) : Option System :=
  (closeSession main answer s.state).map fun (state, closed) =>
    if closed then
      s.goto (.ensureMain 1) { state.rollSessionForward main with reconcileRotated := true }
    else s.degraded message state

/-! ## Dispatch and the end of a pass -/

/-- The task of a delivery that dispatch took. -/
def taskOf : ControllerState.DispatchAction → Task
  | .lane delivery target => .lane delivery target .start
  | .sidecar delivery target => .sidecar delivery target .start

def runDispatch (s : System) : System :=
  if s.state.config.enabled then
    let (state, actions) := s.state.dispatch s.nowMs
    { s with tasks := s.tasks ++ actions.map taskOf }.goto .renew state
  else s.goto .renew s.state

/-- The tasks of the lanes that an execution inherits. -/
def resumedTask (lane : WaitingLane) : Task :=
  .lane lane.delivery lane.sessionId (.resuming lane.runId)

/-- What an execution starts as. -/
def start (args : BotControllerArgs) (nowMs : Int) (log : List Obs) : System :=
  let state := ControllerState.new args nowMs
  { state, loop := .waiting .begin, tasks := state.waitingLanes.map resumedTask, nowMs, log }

/-- A quiet controller hands what it owes to the next execution. -/
def continueAsNew (s : System) (suggested : Bool) : System :=
  if s.state.canContinueAsNew suggested s.tasks.length then
    start { config := s.state.config, carry := some s.state.carry } s.nowMs s.log
  else s.goto .park s.state

/-- Wait for what the loop must act on, or for the earliest deadline. -/
def park (s : System) : System :=
  s.await (.parked s.state.laneTick s.state.eventTick
    ((s.state.wakeDeadline s.nowMs).map fun deadline => max deadline (s.nowMs + 1))) s.state

/-! ## Teardown -/

/-- Archive everything not yet delivered. -/
def teardown (s : System) : System :=
  let state := { s.state with closing := true }
  if state.teardownEventIds.isEmpty then s.goto .clear state
  else (s.withLog [.archived state.teardownEventIds]).await .archiving state

/-- What is archived leaves the controller; then every session is closed. -/
def clear (s : System) : System :=
  let state := { s.state with pendingDeliveries := [], buffers := ∅ }
  s.goto (.closeEach state.teardownSessions) state

def closeEach (s : System) : List String → System
  | [] => s.await .recordingClosed s.state
  | sessionId :: rest => s.await (.closingEach sessionId rest) s.state

/-! ## The loop -/

/-- A pass starts: the clock is read, and a closed bot is torn down. -/
def check (s : System) : System :=
  let state := { s.state with clockMs := max s.state.clockMs s.nowMs }
  if state.closeRequested then s.goto .teardown state else s.goto .emissions state

/-- The loop runs one stage. -/
def runStage (s : System) (suggested : Bool) : Stage → System
  | .check => s.check
  | .emissions => s.processEmissions sha256Hex
  | .invocations => s.spawnInvocationLanes
  | .sweep => s.sweepDeadSessions
  | .rollDead dead => s.rollDead dead
  | .rotate => s.rotateRequestedSessions
  | .rotateEach nowMs targets retry => s.rotateEach nowMs retry targets
  | .flush => s.flushRipe sha256Hex
  | .idle => s.goto (.closeIdle s.nowMs (s.state.expiredSessions s.nowMs)) s.state
  | .closeIdle nowMs sessions => s.closeIdle nowMs sessions
  | .descendants => s.refreshDescendantsToday
  | .rename => s.applyDisplayName
  | .renameEach targets => s.renameEach targets
  | .reconcile => s.reconcileUnlessBusy
  | .ensureMain attempt => s.ensureMain attempt
  | .dispatch => s.runDispatch
  | .renew => s.continueAsNew suggested
  | .park => s.park
  | .teardown => s.teardown
  | .clear => s.clear
  | .closeEach sessions => s.closeEach sessions

/-- The result of a call that only leaves an error behind. -/
def bestEffort (answer : Answer) (state : ControllerState) : Option ControllerState :=
  match answer with
  | .done => some state
  | .failed message => some (state.recordError message)
  | _ => none

/-- The loop's wait ends with an answer. -/
def resumeLoop (s : System) (answer : Answer) : Wait → Option System
  | .begin => if answer matches .woken then some (s.goto .check s.state) else none
  | .readingRun sessionId runId token status failureMessageRef pc =>
    (reconcileRun runId sessionId pc answer s.state).map fun
      | (state, some pc) =>
        s.await (.readingRun sessionId runId token status failureMessageRef pc) state
      | (state, none) =>
        s.goto .emissions
          (state.attachTerminal sha256Hex token
            { status, runId, failureMessageRef, deadSession := none })
  | .readingDead =>
    match answer with
    | .deadSessions dead => some (s.goto (.rollDead dead) s.state)
    | .failed message => some (s.goto .rotate (s.state.recordError ("read dead sessions: " ++ message)))
    | _ => none
  | .rollingDead sessionId rest =>
    (closeSession sessionId answer s.state).map fun (state, closed) =>
      s.goto (.rollDead rest) (if closed then state.rollSessionForward sessionId else state)
  | .rotating nowMs target isMain rest retry =>
    (closeSession target answer s.state).map fun (state, closed) =>
      if closed then s.goto (.rotateEach nowMs rest retry) (rotateClosed state target isMain)
      else s.goto (.rotateEach nowMs rest true) state
  | .closingIdle nowMs sessionId rest =>
    (closeSession sessionId answer s.state).map fun (state, closed) =>
      s.goto (.closeIdle nowMs rest)
        (if closed then state.forgetRoutedSession sessionId
          else state.touchSession sessionId nowMs)
  | .counting =>
    match answer with
    | .counted count => some (s.goto .rename { s.state with descendantsToday := count })
    | .failed message => some (s.goto .rename (s.state.recordError message))
    | _ => none
  | .renaming rest => (bestEffort answer s.state).map (s.goto (.renameEach rest))
  | .readingMain main => s.resumeReadingMain main answer
  | .rollingMain main status => s.resumeRollingMain main status answer
  | .ensuringMain attempt request => s.resumeEnsuringMain attempt request answer
  | .rollingEnsure main message => s.resumeRollingEnsure main message answer
  | .archiving => (bestEffort answer s.state).map (s.goto .clear)
  | .closingEach sessionId rest =>
    (closeSession sessionId answer s.state).map fun (state, _) => s.goto (.closeEach rest) state
  | .recordingClosed =>
    (bestEffort answer s.state).map fun state =>
      { s with state := { state with closedDone := true }, loop := .completed }
  | .parked laneTick eventTick deadline =>
    if answer matches .woken &&
        (s.state.wakeReady laneTick eventTick || deadline.any (· ≤ s.nowMs)) then
      some (s.goto .check s.state)
    else none

/-! ## Signals -/

/-- A signal handler reads the clock. -/
def tickClock (s : System) : ControllerState :=
  { s.state with clockMs := max s.state.clockMs s.nowMs }

/-- The `bot_event` signal. -/
def botEvent (s : System) (event : BotEvent) : System :=
  let state := s.tickClock
  match state.acceptEvent sha256Hex event s.nowMs with
  | .error message => { s with state := state.recordError ("bot_event rejected: " ++ message) }
  | .ok next =>
    { s.withLog ((if state.seenEventIds.contains event.id then [] else [.accepted event]) ++
        queuedSince state next) with state := next }

/-- The `bot_config` signal. -/
def botConfig (s : System) (next : BotControllerConfig) : System :=
  let state := s.tickClock
  match state.acceptConfig next with
  | .error message => { s with state := state.recordError ("bot_config rejected: " ++ message) }
  | .ok state => { s.withLog [.configured next] with state }

/-- The `bot_session_rotate` signal. -/
def botSessionRotate (s : System) (sessionId : String) : System :=
  { s with state := s.tickClock.requestRotation sessionId }

/-- The `deliver_emission` signal. -/
def deliverEmission (s : System) (envelope : EmissionEnvelope) : System :=
  { s with state := s.tickClock.queueEmission envelope }

/-! ## The system -/

/-- What may happen next. -/
inductive Input where
  | tick (nowMs : Int)
  | botEvent (event : BotEvent)
  | botConfig (next : BotControllerConfig)
  | botSessionRotate (sessionId : String)
  | deliverEmission (envelope : EmissionEnvelope)
  | loop (answer : Answer)
  | run (suggested : Bool)
  | task (index : Nat) (answer : Answer)

/-- The task at an index is resumed, and leaves the list when it is over. -/
def resumeTask (s : System) (index : Nat) (answer : Answer) : Option System :=
  match s.tasks[index]? with
  | none => none
  | some task =>
    (task.resume sha256Hex s.nowMs answer s.state).map fun turn =>
      { s.withLog turn.log with
        state := turn.state
        tasks :=
          match turn.task with
          | some task => s.tasks.set index task
          | none => s.tasks.eraseIdx index }

/-- One step of the system. Only the loop runs while it is inside a pass, and nothing does once it is
over. An event arrives routed as its admission routes it. -/
def step (s : System) (input : Input) : Option System :=
  match s.loop, input with
  | .running stage, .run suggested => some (s.runStage sha256Hex suggested stage)
  | .waiting wait, .loop answer => s.resumeLoop sha256Hex answer wait
  | .waiting _, .tick nowMs => if s.nowMs ≤ nowMs then some { s with nowMs } else none
  | .waiting _, .botEvent event =>
    if event.RoutedFor s.state.config.botId then some (s.botEvent sha256Hex event) else none
  | .waiting _, .botConfig next => some (s.botConfig next)
  | .waiting _, .botSessionRotate sessionId => some (s.botSessionRotate sessionId)
  | .waiting _, .deliverEmission envelope => some (s.deliverEmission envelope)
  | .waiting _, .task index answer => s.resumeTask sha256Hex index answer
  | _, _ => none

/-- A controller starts past the generations of the sessions that its bot retains. -/
structure Initial (s : System) : Prop where
  eq_start : ∃ config mainGeneration sessionGenerations nowMs,
    s = start { config, carry := some { mainGeneration, sessionGenerations } } nowMs
      [.configured config]

/-- The controller of a bot, as a machine. -/
def controller : Machine System Input where
  init := Initial
  step := step sha256Hex

end

end System

end Lightspeed.Bots
