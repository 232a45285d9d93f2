import Mathlib.Algebra.Order.Group.Multiset
import Lightspeed.Bots.Controller

/-!
# The delivery board

What a bot's controller is for, without its sessions, its retries and its waits: events come in and
are queued, a queued delivery is taken by a lane or by a sidecar, and whoever holds it gives it back
or settles it. The board keeps the controller's own table of lanes apart from what the lanes' tasks
hold; that the two agree is a result, not a definition. A `Move` is one thing that may happen to a
board, and every step of the controller is a chain of moves.
-/

namespace Lightspeed.Bots

open Lib Harness

/-- A delivery with the session that its lane is on, whether a run of it started there, and whether
the lane does nothing but wait for that run's end. -/
structure Hold where
  delivery : BotDelivery
  target : String
  started : Bool
  parked : Bool

/-- What decides how the main session stands to the configuration. -/
structure MainView where
  config : BotControllerConfig
  mainGeneration : Nat
  sessionReady : Bool
  configDirty : Bool
  appliedProfileId : Option String
  appliedProfileRevision : Option Nat

/-- What the board shows of a controller's state. -/
structure View where
  main : MainView
  pending : List BotDelivery
  buffers : Multiset CoalesceBuffer
  lanes : Multiset Hold
  seen : Bool
  runDay : Int
  runsToday : Nat

/-- A view of the state, what the tasks hold, whether the loop is bringing the main session in line or
is tearing the bot down, the clock, and what happened so far. -/
structure Board where
  view : View
  reconciling : Bool
  tearingDown : Bool
  holds : Multiset Hold
  asides : Multiset BotDelivery
  nowMs : Int
  log : List Obs

/-! ## What a state shows -/

def laneHold (entry : String × ActiveLane) : Hold :=
  { delivery := entry.2.delivery, target := entry.1, started := entry.2.runId.isSome
    parked := entry.2.parked }

def LaneMap.holds (m : LaneMap) : Multiset Hold := (m.lanes.entries.map laneHold : List Hold)

def ControllerState.mainView (s : ControllerState) : MainView :=
  { config := s.config
    mainGeneration := s.mainGeneration
    sessionReady := s.sessionReady
    configDirty := s.configDirty
    appliedProfileId := s.appliedProfileId
    appliedProfileRevision := s.appliedProfileRevision }

def ControllerState.view (s : ControllerState) : View :=
  { main := s.mainView
    pending := s.pendingDeliveries
    buffers := (s.buffers.values : List CoalesceBuffer)
    lanes := s.activeBySession.holds
    seen := !s.seenEventIds.order.isEmpty
    runDay := s.runDay
    runsToday := s.runsToday }

/-- Whether a lane's run has started. -/
def LanePc.started : LanePc → Bool
  | .receipting .. | .reconciling .. | .resuming _ | .waiting _ | .readingUsage _ => true
  | _ => false

/-- Whether a lane waits, or waited, for nothing but its run's end. -/
def LanePc.parked : LanePc → Bool
  | .resuming _ | .waiting _ | .readingUsage _ => true
  | _ => false

/-- What a lane's task holds. -/
def Task.holds : Task → Multiset Hold
  | .lane delivery target pc => {⟨delivery, target, pc.started, pc.parked⟩}
  | _ => 0

/-- What a sidecar's task holds. -/
def Task.asides : Task → Multiset BotDelivery
  | .sidecar delivery _ _ => {delivery}
  | _ => 0

def holdsOf (tasks : List Task) : Multiset Hold := (tasks.map Task.holds).sum

def asidesOf (tasks : List Task) : Multiset BotDelivery := (tasks.map Task.asides).sum

/-- Whether the loop is bringing the main session in line. -/
def LoopPc.reconciling : LoopPc → Bool
  | .running (.ensureMain _) => true
  | .waiting (.readingMain _) | .waiting (.rollingMain ..) | .waiting (.ensuringMain ..)
  | .waiting (.rollingEnsure ..) => true
  | _ => false

/-- Whether the bot's teardown has begun. -/
def LoopPc.tearingDown : LoopPc → Bool
  | .running .clear | .running (.closeEach _) => true
  | .waiting .archiving | .waiting (.closingEach ..) | .waiting .recordingClosed => true
  | .completed => true
  | _ => false

/-- The board of a controller. -/
def System.board (s : System) : Board :=
  { view := s.state.view, reconciling := s.loop.reconciling, tearingDown := s.loop.tearingDown
    holds := holdsOf s.tasks, asides := asidesOf s.tasks, nowMs := s.nowMs, log := s.log }

/-! ## Changes of a view -/

namespace MainView

def mainSessionId (m : MainView) : String := botMainSessionId m.config.botId m.mainGeneration

/-- The main session moves to its next generation, which nothing has made ready. -/
def rolled (m : MainView) : MainView :=
  { m with
    mainGeneration := m.mainGeneration + 1, appliedProfileId := none
    appliedProfileRevision := none, sessionReady := false, configDirty := true }

/-- The main session moves to its next generation while it is brought in line. -/
def rotated (m : MainView) : MainView :=
  { m with
    mainGeneration := m.mainGeneration + 1, appliedProfileId := none
    appliedProfileRevision := none }

def ready (m : MainView) (profileRevision : Nat) : MainView :=
  { m with
    sessionReady := true, configDirty := false, appliedProfileId := some m.config.profileId
    appliedProfileRevision := some profileRevision }

def degraded (m : MainView) : MainView := { m with configDirty := true, sessionReady := false }

def configured (m : MainView) (next : BotControllerConfig) : MainView :=
  { m with config := next, configDirty := true }

/-- A request asks for the main session as the configuration has it. -/
def Agrees (m : MainView) (request : BotEnsureSessionRequest) : Prop :=
  request.sessionId = m.mainSessionId ∧ request.profileId = m.config.profileId ∧
    request.brief = m.config.brief ∧ request.selfConfig = m.config.selfConfig ∧
    request.emit = m.config.emit ∧
    request.displayName = some ("bot " ++ m.config.displayName.getD m.config.botId.value)

end MainView

namespace View

def queue (v : View) (delivery : BotDelivery) : View := { v with pending := v.pending ++ [delivery] }

def requeue (v : View) (delivery : BotDelivery) : View := { v with pending := delivery :: v.pending }

/-- The lane on a session is gone. -/
def free (v : View) (target : String) : View :=
  { v with lanes := v.lanes.filter fun l => l.target ≠ target }

/-- The lane on a session reports something. -/
def mark (v : View) (target : String) (f : Hold → Hold) : View :=
  { v with lanes := v.lanes.map fun l => if l.target = target then f l else l }

/-- The lane on a session moves to another, in place of any lane there. -/
def rekey (v : View) (source target : String) : View :=
  { v with
    lanes :=
      if source ∈ v.lanes.map Hold.target then
        (v.lanes.filter fun l => l.target = source).map (fun l => { l with target }) +
          v.lanes.filter fun l => l.target ≠ source ∧ l.target ≠ target
      else v.lanes }

/-- The budget's day is the one of the instant. -/
def roll (v : View) (nowMs : Int) : View :=
  if utcDay nowMs ≠ v.runDay then { v with runDay := utcDay nowMs, runsToday := 0 } else v

/-- The lanes that are about to start a run that counts. -/
def pendingStarts (v : View) : Nat :=
  v.lanes.countP fun l => l.started = false ∧ l.delivery.whenBusy ≠ .append

end View

/-! ## Moves -/

/-- What a delivery is, whatever happened to it: its attempts, its pause and its one move forward
aside. -/
def BotDelivery.core (delivery : BotDelivery) : BotDelivery :=
  { delivery with attempts := 0, notBeforeMs := none, rolledForward := false }

/-- The session ids that a logical target goes through: the main session's generations, or those of a
routed base. -/
def IdOf (botId : BotId) (session : Option RoutedSession) (sessionId : String) : Prop :=
  ∃ generation,
    match session with
    | none => sessionId = botMainSessionId botId generation
    | some session => sessionId = routedSessionGenerationId session.sessionId generation

/-- What a delivery goes to, whatever its generation: the main session, or a routed base. -/
def BotDelivery.logical (delivery : BotDelivery) : Option String :=
  delivery.session.map (·.sessionId)

/-- What may be asked of moves, beyond what every controller's steps meet. -/
structure Rules where
  /-- A lane is taken only when the other lanes of its logical target stand under the same id. -/
  aligned : Prop
  /-- The main session is marked ready only for what the configuration still says. -/
  current : Prop

/-- One thing that may happen to a board. -/
inductive Move (rules : Rules) : Board → Board → Prop
  /-- Time passes. -/
  | tick (b : Board) (nowMs : Int) (h : b.nowMs ≤ nowMs) : Move rules b { b with nowMs }
  | configure (b : Board) (next : BotControllerConfig) (h : next.botId = b.view.main.config.botId) :
    Move rules b
      { b with
        view := { b.view with main := b.view.main.configured next }
        log := b.log ++ [.configured next] }
  /-- The main session is left behind. -/
  | rollMain (b : Board) : Move rules b { b with view := { b.view with main := b.view.main.rolled } }
  | rotateMain (b : Board) (h : b.reconciling = true) :
    Move rules b { b with view := { b.view with main := b.view.main.rotated } }
  | reconcile (b : Board) (h : b.view.main.configDirty = true) :
    Move rules b { b with reconciling := true }
  | degrade (b : Board) :
    Move rules b { b with view := { b.view with main := b.view.main.degraded }, reconciling := false }
  | leave (b : Board) : Move rules b { b with reconciling := false }
  | ready (b : Board) (request : BotEnsureSessionRequest) (profileRevision : Nat)
      (h : b.reconciling = true) (current : rules.current → b.view.main.Agrees request) :
    Move rules b
      { b with
        view := { b.view with main := b.view.main.ready profileRevision }
        reconciling := false
        log := b.log ++ [.ready request profileRevision] }
  /-- An event is accepted as a delivery. -/
  | accept (b : Board) (event : BotEvent) (hroute : event.RoutedFor b.view.main.config.botId) :
    Move rules b
      { b with
        view := { b.view.queue (.single event) with seen := true }
        log := b.log ++ [.accepted event, .queued (.single event)] }
  /-- An event is accepted into a new buffer. -/
  | openBuffer (b : Board) (event : BotEvent) (buffer : CoalesceBuffer)
      (hroute : event.RoutedFor b.view.main.config.botId) (hevents : buffer.events = [event])
      (hsession : buffer.session = event.session) :
    Move rules b
      { b with
        view := { b.view with buffers := buffer ::ₘ b.view.buffers, seen := true }
        log := b.log ++ [.accepted event] }
  /-- An event joins a buffer. -/
  | joinBuffer (b : Board) (event : BotEvent) (buffer joined : CoalesceBuffer)
      (rest : Multiset CoalesceBuffer) (hbuffers : b.view.buffers = buffer ::ₘ rest)
      (hevents : joined.events = buffer.events ++ [event]) (hsession : joined.session = buffer.session) :
    Move rules b
      { b with
        view := { b.view with buffers := joined ::ₘ rest, seen := true }
        log := b.log ++ [.accepted event] }
  /-- A buffer is queued as one delivery. -/
  | flush (b : Board) (buffer : CoalesceBuffer) (rest : Multiset CoalesceBuffer)
      (delivery : BotDelivery) (hbuffers : b.view.buffers = buffer ::ₘ rest)
      (hevents : delivery.events = buffer.events) (hsession : delivery.session = buffer.session)
      (hcore : delivery.core = delivery) :
    Move rules b
      { b with
        view := { b.view with buffers := rest }.queue delivery
        log := b.log ++ [.queued delivery] }
  | dropBuffer (b : Board) (buffer : CoalesceBuffer) (rest : Multiset CoalesceBuffer)
      (hbuffers : b.view.buffers = buffer ::ₘ rest) (hevents : buffer.events = []) :
    Move rules b { b with view := { b.view with buffers := rest } }
  /-- The budget's day is rolled. -/
  | rollDay (b : Board) : Move rules b { b with view := b.view.roll b.nowMs }
  /-- A lane takes a delivery. -/
  | take (b : Board) (before after : List BotDelivery) (delivery : BotDelivery) (target : String)
      (hpending : b.view.pending = before ++ delivery :: after)
      (hfree : ∀ l ∈ b.view.lanes, l.target ≠ target)
      (hfirst : ∀ other ∈ before, other.logical ≠ delivery.logical)
      (hid : IdOf b.view.main.config.botId delivery.session target)
      (hday : b.view.runDay = utcDay b.nowMs)
      (hbudget : ∀ limit ∈ b.view.main.config.runsPerDay,
        b.view.runsToday + b.view.pendingStarts < limit)
      (aligned : rules.aligned →
        ∀ h ∈ b.holds, h.delivery.logical = delivery.logical → h.target = target) :
    Move rules b
      { b with
        view := { b.view with
          pending := before ++ after
          lanes := ⟨delivery, target, false, false⟩ ::ₘ b.view.lanes }
        holds := ⟨delivery, target, false, false⟩ ::ₘ b.holds }
  /-- A sidecar takes a delivery. -/
  | aside (b : Board) (before after : List BotDelivery) (delivery : BotDelivery)
      (hpending : b.view.pending = before ++ delivery :: after)
      (hbusy : delivery.whenBusy ≠ .queue) :
    Move rules b
      { b with
        view := { b.view with pending := before ++ after }, asides := delivery ::ₘ b.asides }
  /-- A lane moves to the session id that its target rotated to. -/
  | rekey (b : Board) (h : Hold) (rest : Multiset Hold) (target : String)
      (displaced : Option ActiveLane) (hholds : b.holds = h ::ₘ rest)
      (hdisplaced : displaced = none → h.target ∈ b.view.lanes.map Hold.target →
        ∀ l ∈ b.view.lanes, l.target ≠ h.target → l.target ≠ target)
      (hid : rules.aligned → IdOf b.view.main.config.botId h.delivery.session target) :
    Move rules b
      { b with
        view := b.view.rekey h.target target
        holds := { h with target } ::ₘ rest
        log := b.log ++ [.rekeyed h.target target displaced] }
  /-- A lane gives its delivery back. -/
  | requeue (b : Board) (h : Hold) (rest : Multiset Hold) (delivery : BotDelivery)
      (hholds : b.holds = h ::ₘ rest) (hstarted : h.started = false)
      (hcore : delivery.core = h.delivery.core) :
    Move rules b
      { b with view := (b.view.free h.target).requeue delivery, holds := rest }
  /-- A lane's run starts. -/
  | begin (b : Board) (h : Hold) (rest : Multiset Hold) (runId : String)
      (hholds : b.holds = h ::ₘ rest) (hstarted : h.started = false)
      (hparked : h.parked = false) (hbusy : h.delivery.whenBusy ≠ .append) :
    Move rules b
      { b with
        view :=
          let v := (b.view.mark h.target fun l => { l with started := true }).roll b.nowMs
          { v with runsToday := v.runsToday + 1 }
        holds := { h with started := true } ::ₘ rest
        log := b.log ++ [.begun h.delivery h.target runId b.nowMs] }
  /-- A lane does nothing more until its run ends. -/
  | park (b : Board) (h : Hold) (rest : Multiset Hold) (hholds : b.holds = h ::ₘ rest)
      (hstarted : h.started = true) :
    Move rules b
      { b with
        view := b.view.mark h.target fun l => { l with parked := true }
        holds := { h with parked := true } ::ₘ rest }
  /-- A lane's delivery is settled. -/
  | finish (b : Board) (h : Hold) (rest : Multiset Hold) (hholds : b.holds = h ::ₘ rest) :
    Move rules b
      { b with
        view := b.view.free h.target, holds := rest
        log := b.log ++ [.remembered h.delivery] }
  /-- A lane's delivery has no event. -/
  | drop (b : Board) (h : Hold) (rest : Multiset Hold) (hholds : b.holds = h ::ₘ rest)
      (hevents : h.delivery.events = []) :
    Move rules b { b with view := b.view.free h.target, holds := rest }
  /-- A sidecar gives its delivery back. -/
  | asideBack (b : Board) (held : BotDelivery) (rest : Multiset BotDelivery)
      (delivery : BotDelivery) (hasides : b.asides = held ::ₘ rest)
      (hcore : delivery.core = held.core) :
    Move rules b { b with view := b.view.requeue delivery, asides := rest }
  | asideDone (b : Board) (held : BotDelivery) (rest : Multiset BotDelivery)
      (hasides : b.asides = held ::ₘ rest) :
    Move rules b { b with asides := rest, log := b.log ++ [.remembered held] }
  | asideDrop (b : Board) (held : BotDelivery) (rest : Multiset BotDelivery)
      (hasides : b.asides = held ::ₘ rest) (hevents : held.events = []) :
    Move rules b { b with asides := rest }
  /-- The teardown begins: what is not yet taken is archived. -/
  | archive (b : Board) (log : List Obs) (hlog : ∀ obs ∈ log, ∃ eventIds, obs = .archived eventIds) :
    Move rules b { b with tearingDown := true, log := b.log ++ log }
  /-- What is archived leaves the board. -/
  | clear (b : Board) (h : b.tearingDown = true) :
    Move rules b { b with view := { b.view with pending := [], buffers := 0 } }
  /-- The controller continues as new, with the lanes that have a run. -/
  | renew (b : Board) (dirty seen : Bool) (hdirty : b.view.main.configDirty = true → dirty = true)
      (hseen : b.view.seen = true → seen = true) (hparked : ∀ l ∈ b.view.lanes, l.parked = true)
      (hcount : b.holds.card + b.asides.card ≤ b.view.lanes.card) :
    Move rules b
      { b with
        view := { b.view with
          main := { b.view.main with
            configDirty := dirty, mainGeneration := max b.view.main.mainGeneration 1 }
          seen
          lanes := b.view.lanes.filter fun l => l.started = true }
        reconciling := false
        holds := b.view.lanes.filter fun l => l.started = true
        asides := 0 }

end Lightspeed.Bots
