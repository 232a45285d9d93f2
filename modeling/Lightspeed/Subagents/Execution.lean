import Lightspeed.Lib.Program
import Lightspeed.Subagents.Data

/-!
# The execution of a delegation

`SubagentExecutionWorkflow::run` as a program: it prepares the child, waits for the end of its run, has
the end resolved, tells the holder and closes the child. When its history grows long it rolls over: the
next run goes on with the same wait in a fresh state, and what is signalled before it sets its identity is
held. A journal says what the execution was told and what it asked for, over all of its runs.
-/

namespace Lightspeed.Subagents

open Lib
open Lightspeed.Bots (digestPrefix)
open Lightspeed.Harness (PromiseId PromiseResolution)

/-! ## The state and the outside -/

inductive WaitOutcome where
  | terminal (terminal : SubagentTerminal)
  | holderCancelled
  | cancelled
  deriving DecidableEq

inductive JournalEntry where
  /-- An emission set the pending terminal. -/
  | accepted (terminal : SubagentTerminal)
  | prepared (nowMs : Nat) (result : Except String SubagentPrepareActivityResult)
  /-- A run begins to wait. -/
  | waits (child : SubagentChildRef) (deadlineAtMs : Option Nat)
  | rolledOver
  /-- The wait is over. -/
  | waited (outcome : WaitOutcome)
  | resolve (child : SubagentChildRef) (terminal : SubagentTerminal)
  | emitted (holderWorkflowId : String) (promiseId : PromiseId) (resolution : PromiseResolution)
  | close (sessionId : String)
  deriving DecidableEq

/-- What a run shares with its signals, and what the outside has changed. -/
structure Execution where
  workflow : SubagentExecutionWorkflow := {}
  nowMs : Nat := 0
  /-- The cancellation of this run was requested. -/
  cancelled : Bool := false
  historyLength : Nat := 0
  continueAsNewSuggested : Bool := false
  journal : List JournalEntry := []

inductive SubagentFailure where
  | application (message : String)
  | cancelled
  | continueAsNew (resume : SubagentExecutionResume)

/-- What a run awaits. -/
inductive SubagentRequest where
  /-- Its first activation, which the signals that came before it open. -/
  | activation
  | prepare (start : WorkflowToolStartArgs)
  /-- The race of the wait; the timer of the deadline fires at an instant. -/
  | select (deadlineTimer : Option Nat) (sessionId : String)
  | resolve (child : SubagentChildRef) (terminal : SubagentTerminal)
  | close (sessionId : String)
  | signal (holderWorkflowId : String) (promiseId : PromiseId) (resolution : PromiseResolution)

/-- The branch of the race that is taken. -/
inductive SelectBranch where
  | nudged
  | cancelled
  | deadline
  | liveness (checked : Except String SubagentLivenessActivityResult)

/-- What the outside replies. An activity that fails says so; how a close and a signal went is not
looked at. -/
@[reducible] def SubagentReply : SubagentRequest → Type
  | .activation | .close _ | .signal _ _ _ => Unit
  | .prepare _ => Except String SubagentPrepareActivityResult
  | .select _ _ => SelectBranch
  | .resolve _ _ => Except String PromiseResolution

abbrev SubagentProgram (α : Type) : Type 1 :=
  Program Execution SubagentRequest SubagentReply SubagentFailure α

/-- `ctx.state`. -/
def readState {α : Type} (f : Execution → α) : SubagentProgram α := .act fun s => (f s, s)

/-- `ctx.state_mut`. -/
def changeState (f : Execution → Execution) : SubagentProgram Unit := .act fun s => ((), f s)

def ask (request : SubagentRequest) : SubagentProgram (SubagentReply request) := .wait request

def raise {α : Type} (failure : SubagentFailure) : SubagentProgram α := .fail failure

def Execution.note (entry : JournalEntry) (s : Execution) : Execution :=
  { s with journal := s.journal ++ [entry] }

def note (entry : JournalEntry) : SubagentProgram Unit := changeState (.note entry)

/-! ## Signals -/

/-- What of a change of the pending terminal goes to the journal. -/
def acceptedBetween (before after : SubagentExecutionWorkflow) : List JournalEntry :=
  match before.pendingTerminal, after.pendingTerminal with
  | none, some terminal => [.accepted terminal]
  | _, _ => []

def Execution.applyEmission (s : Execution) (envelope : EmissionEnvelope) : Execution :=
  { s with
    workflow := s.workflow.applyEmission envelope
    journal := s.journal ++ acceptedBetween s.workflow (s.workflow.applyEmission envelope) }

/-- `deliver_emission`: what cannot be decoded is dropped, and what comes before the identity is set is
held. -/
def Execution.deliverEmission (s : Execution) (emission : Option EmissionEnvelope) : Execution :=
  match emission with
  | none => s
  | some envelope =>
    if s.workflow.replyPromiseId.isNone then
      { s with workflow.earlyEmissions := s.workflow.earlyEmissions ++ [envelope] }
    else s.applyEmission envelope

/-- What reaches an execution while it waits. -/
inductive SubagentSignal where
  | deliverEmission (emission : Option EmissionEnvelope)
  | cancel
  | clock (elapsedMs : Nat)
  | history (length : Nat) (suggested : Bool)

def Execution.receive (s : Execution) : SubagentSignal → Option Execution
  | .deliverEmission emission => some (s.deliverEmission emission)
  | .cancel => some { s with cancelled := true }
  | .clock elapsedMs => some { s with nowMs := s.nowMs + elapsedMs }
  | .history length suggested =>
    some { s with historyLength := length, continueAsNewSuggested := suggested }

/-- The replies that the outside gives. The branches of the race are tried in order: a nudge before the
cancellation, that before the deadline, and the check of the child's session last. -/
def subagentAllows : (request : SubagentRequest) → Execution → SubagentReply request → Bool
  | .select deadlineTimer _, s, branch =>
    match branch with
    | .nudged => s.workflow.nudged
    | .cancelled => !s.workflow.nudged && s.cancelled
    | .deadline => !s.workflow.nudged && !s.cancelled && deadlineTimer.any fun due => due ≤ s.nowMs
    | .liveness _ => !s.workflow.nudged && !s.cancelled
  | _, _, _ => true

def subagentOutside : Program.Outside Execution SubagentRequest SubagentReply SubagentSignal where
  allows := subagentAllows
  receive := Execution.receive

/-! ## The run -/

/-- The child session of one execution. -/
def subagentChildSessionId (sha256Hex : String → String) (executionId : String) : String :=
  "agent_" ++ digestPrefix sha256Hex executionId 32

def executionFailure (step message : String) : SubagentFailure :=
  .application ("sub-agent " ++ step ++ " failed: " ++ message)

def emitResolution (replyPromiseId : PromiseId) (resolution : PromiseResolution) :
    SubagentProgram Unit := do
  match ← readState fun s => s.workflow.holderWorkflowId with
  | none => pure ()
  | some holder => do
    note (.emitted holder replyPromiseId resolution)
    ask (.signal holder replyPromiseId resolution)

def closeChild (sessionId : String) : SubagentProgram Unit := do
  note (.close sessionId)
  ask (.close sessionId)

/-- `pending_terminal.take()`. -/
def takeTerminal : SubagentProgram (Option SubagentTerminal) :=
  .act fun s => (s.workflow.pendingTerminal, { s with workflow.pendingTerminal := none })

/-- One pass of the wait's loop. -/
def waitPass (resume : SubagentExecutionResume) (deadlineTimer : Option Nat) :
    SubagentProgram (Unit ⊕ WaitOutcome) := do
  match ← takeTerminal with
  | some terminal => pure (.inr (.terminal terminal))
  | none => do
    let holderCancelled ← readState fun s => s.workflow.holderCancelled
    let historyLong ← readState fun s => s.continueAsNewSuggested ||
      decide (resume.wait.continueAsNewHistoryThreshold ≤ s.historyLength)
    if holderCancelled then pure (.inr .holderCancelled)
    else if historyLong then raise (.continueAsNew resume)
    else do
      changeState fun s => { s with workflow.nudged := false }
      match ← ask (.select deadlineTimer resume.child.sessionId) with
      | .nudged => pure (.inl ())
      | .cancelled => pure (.inr .cancelled)
      | .deadline => pure (.inr (.terminal .deadline))
      | .liveness (.ok (.stopped reason)) => do
        -- A terminal that beat the check is the better answer.
        let terminal ← takeTerminal
        pure (.inr (.terminal (terminal.getD (.sessionStopped reason))))
      | .liveness (.ok .running) | .liveness (.error _) => pure (.inl ())

/-- The wait. The deadline's one timer outlives every pass through the loop. -/
def waitForChild (resume : SubagentExecutionResume) : SubagentProgram WaitOutcome := do
  note (.waits resume.child resume.deadlineAtMs)
  let nowMs ← readState (·.nowMs)
  let deadlineTimer := resume.deadlineAtMs.map fun atMs => nowMs + deadlineRemaining atMs nowMs
  .loop (fun _ => waitPass resume deadlineTimer) ()

def SubagentExecutionWorkflow.resolve (resolution : PromiseResolution)
    (w : SubagentExecutionWorkflow) : SubagentExecutionWorkflow :=
  { w with snapshot.phase := .resolved, snapshot.resolution := some resolution }

/-- What follows the wait. -/
def finish (child : SubagentChildRef) (replyPromiseId : PromiseId) (outcome : WaitOutcome) :
    SubagentProgram Unit := do
  match outcome with
  | .terminal terminal => do
    note (.resolve child terminal)
    match ← ask (.resolve child terminal) with
    | .error error => do
      closeChild child.sessionId
      raise (executionFailure "resolve" error)
    | .ok resolution => do
      changeState fun s => { s with workflow := s.workflow.resolve resolution }
      emitResolution replyPromiseId resolution
      closeChild child.sessionId
  | .holderCancelled => do
    closeChild child.sessionId
    changeState fun s => { s with workflow.snapshot.phase := .cancelled }
  | .cancelled => do
    closeChild child.sessionId
    changeState fun s => { s with workflow.snapshot.phase := .cancelled }
    raise .cancelled

/-- The wait and what follows it. -/
def supervise (resume : SubagentExecutionResume) (replyPromiseId : PromiseId) :
    SubagentProgram Unit := do
  let outcome ← waitForChild resume
  note (.waited outcome)
  finish resume.child replyPromiseId outcome

/-- The preparation of a child, and its supervision. -/
def prepareChild (sha256Hex : String → String) (start : WorkflowToolStartArgs)
    (replyPromiseId : PromiseId) : SubagentProgram Unit := do
  let result ← ask (.prepare start)
  let nowMs ← readState (·.nowMs)
  note (.prepared nowMs result)
  match result with
  | .error error => do
    closeChild (subagentChildSessionId sha256Hex start.executionId)
    raise (executionFailure "prepare" error)
  | .ok (.prepared child runTimeoutMs wait) => do
    changeState fun s =>
      { s with workflow.snapshot := { s.workflow.snapshot with child := some child, phase := .running } }
    supervise ⟨start, child, deadlineAtMs nowMs runTimeoutMs, wait⟩ replyPromiseId
  | .ok (.rejected errorRef) => do
    changeState fun s => { s with workflow := s.workflow.resolve (.failed (some errorRef)) }
    emitResolution replyPromiseId (.failed (some errorRef))

/-- The identity that emissions are matched against. -/
def SubagentExecutionWorkflow.identify (start : WorkflowToolStartArgs) (replyPromiseId : PromiseId)
    (child : Option SubagentChildRef) (w : SubagentExecutionWorkflow) : SubagentExecutionWorkflow :=
  { w with
    replyPromiseId := some replyPromiseId
    holderWorkflowId := some start.holderWorkflowId
    invocationId := some start.invocation.invocationId
    universeId := some start.universeId
    snapshot := { w.snapshot with
      phase := if child.isSome then .running else .preparing
      child := child.or w.snapshot.child }
    earlyEmissions := [] }

/-- The identity of a run, and what was held until it was set. -/
def Execution.setIdentity (start : WorkflowToolStartArgs) (replyPromiseId : PromiseId)
    (child : Option SubagentChildRef) (s : Execution) : Execution :=
  s.workflow.earlyEmissions.foldl .applyEmission
    { s with workflow := s.workflow.identify start replyPromiseId child }

def SubagentExecutionInput.args : SubagentExecutionInput → WorkflowToolStartArgs
  | .start args => args
  | .resume carried => carried.start

def SubagentExecutionInput.child : SubagentExecutionInput → Option SubagentChildRef
  | .start _ => none
  | .resume carried => some carried.child

/-- Whether the start is one of this execution. -/
def WorkflowToolStartArgs.identifies (workflowId : String) (start : WorkflowToolStartArgs) : Bool :=
  workflowId == start.executionId && start.universeId.text == start.invocation.sessionUniverseId

/-- One run of an execution. -/
def run (sha256Hex : String → String) (workflowId : String) (input : SubagentExecutionInput) :
    SubagentProgram Unit := do
  ask .activation
  if ¬ input.args.identifies workflowId then
    raise (.application
      "subagent execution identity is invalid: workflow id or universe mismatch")
  else
    match input.args.replyPromiseId with
    | none => raise (.application
        "subagent execution invocation is missing its reply completion promise")
    | some replyPromiseId => do
      changeState (.setIdentity input.args replyPromiseId input.child)
      match input with
      | .start start => prepareChild sha256Hex start replyPromiseId
      | .resume resume => supervise resume replyPromiseId

/-- A rollover: the next run has a fresh state. -/
def Execution.rollOver (s : Execution) : Execution :=
  { nowMs := s.nowMs, journal := s.journal ++ [.rolledOver] }

/-- A run and the rollover that may follow it. -/
def oneRun (sha256Hex : String → String) (workflowId : String) (input : SubagentExecutionInput) :
    SubagentProgram (SubagentExecutionInput ⊕ Unit) := do
  match ← .attempt (run sha256Hex workflowId input) with
  | .ok () => pure (.inr ())
  | .error (.continueAsNew resume) => do
    changeState .rollOver
    pure (.inl (.resume resume))
  | .error failure => raise failure

/-- All the runs of an execution. -/
def runs (sha256Hex : String → String) (workflowId : String) (start : WorkflowToolStartArgs) :
    SubagentProgram Unit :=
  .loop (oneRun sha256Hex workflowId) (.start start)

/-- An execution, as a machine. -/
def execution (sha256Hex : String → String) (workflowId : String) (start : WorkflowToolStartArgs) :
    Machine (Program.Config Execution SubagentRequest SubagentReply SubagentFailure Unit)
      (Program.Input SubagentRequest SubagentReply SubagentSignal) :=
  Program.machine subagentOutside (runs sha256Hex workflowId start) fun s => ∃ nowMs, s = { nowMs }

end Lightspeed.Subagents
