import Lightspeed.Bots.WorkflowIds
import Lightspeed.Harness.State

/-!
# One delegation to a sub-agent

The data of `subagent_execution.rs`: what the execution of a delegation starts from and carries over a
rollover, the state that its signals and its run share, which emissions are addressed to it, and the
instant of its deadline.
-/

namespace Lightspeed.Subagents

open Lightspeed.Bots (Uuid composeWorkflowId)
open Lightspeed.Harness (BlobRef ContentRef PromiseId PromiseResolution RunId RunStatus SessionId
  WorkflowToolInvocation WorkflowToolInvocationId saturatingAdd64)

/-! ## Emissions -/

inductive EmissionProducer where
  | session (universeId : Uuid) (sessionId : SessionId) (logSeq : Nat)
  | workflow (universeId : Uuid) (workflowId : String)

inductive EmissionBody where
  | runTerminal (token : String) (runId : RunId) (status : RunStatus) (output : Option ContentRef)
      (failureMessageRef : Option BlobRef)
  | sourceResolution (promiseId : PromiseId) (resolution : PromiseResolution)
  | toolInvocation (invocation : WorkflowToolInvocation) (holderWorkflowId : String)
  | invocationCancellation (invocationId : WorkflowToolInvocationId) (completionKey : String)
      (promiseId : PromiseId)

structure EmissionEnvelope where
  emissionId : String
  producer : EmissionProducer
  body : EmissionBody

def replyCompletionKey : String := "reply"

/-! ## What an execution runs from -/

/-- Start arguments every start-on-call plugin workflow receives. -/
structure WorkflowToolStartArgs where
  universeId : Uuid
  holderWorkflowId : String
  executionId : String
  invocation : WorkflowToolInvocation

/-- The promise that the execution resolves. -/
def WorkflowToolStartArgs.replyPromiseId (start : WorkflowToolStartArgs) : Option PromiseId :=
  start.invocation.completionPromises.bind fun promises => promises.get? replyCompletionKey

structure SubagentChildRef where
  sessionId : String
  runId : Nat
  agentProfileId : String
  deriving DecidableEq

/-- How an execution supervises its wait on the child. -/
structure SubagentWaitPolicy where
  livenessCheckIntervalMs : Nat
  continueAsNewHistoryThreshold : Nat
  deriving DecidableEq

/-- The wait of an execution, carried across a rollover. -/
structure SubagentExecutionResume where
  start : WorkflowToolStartArgs
  child : SubagentChildRef
  /-- The instant the grant deadline falls on, fixed when the wait began. -/
  deadlineAtMs : Option Nat
  wait : SubagentWaitPolicy

inductive SubagentExecutionInput where
  | start (start : WorkflowToolStartArgs)
  | resume (resume : SubagentExecutionResume)

inductive SubagentPrepareActivityResult where
  | prepared (child : SubagentChildRef) (runTimeoutMs : Option Nat) (wait : SubagentWaitPolicy)
  | rejected (errorRef : BlobRef)
  deriving DecidableEq

/-- How the child's run ended, as observed by the execution. -/
inductive SubagentTerminal where
  | run (status : RunStatus) (output : Option ContentRef) (failureMessageRef : Option BlobRef)
  | deadline
  | sessionStopped (reason : String)
  deriving DecidableEq

inductive SubagentLivenessActivityResult where
  | running
  | stopped (reason : String)

/-! ## The state of a run -/

inductive SubagentExecutionPhase where
  | starting
  | preparing
  | running
  | resolved
  | cancelled

structure SubagentExecutionSnapshot where
  phase : SubagentExecutionPhase := .starting
  child : Option SubagentChildRef := none
  resolution : Option PromiseResolution := none

structure SubagentExecutionWorkflow where
  snapshot : SubagentExecutionSnapshot := {}
  replyPromiseId : Option PromiseId := none
  holderWorkflowId : Option String := none
  invocationId : Option WorkflowToolInvocationId := none
  universeId : Option Uuid := none
  pendingTerminal : Option SubagentTerminal := none
  holderCancelled : Bool := false
  nudged : Bool := false
  /-- What arrived before the run set the identity it is matched against. -/
  earlyEmissions : List EmissionEnvelope := []

/-! ## Which emissions are addressed to an execution -/

/-- What the signal handler matches incoming emissions against. -/
structure SignalIdentity where
  replyPromiseId : Option PromiseId
  holderWorkflowId : Option String
  invocationId : Option WorkflowToolInvocationId
  child : Option SubagentChildRef

inductive SignalEffect where
  | terminal (terminal : SubagentTerminal)
  | holderCancelled

/-- Whether a terminal of a run comes from the child. The child may finish before its preparation is
recorded, so a terminal of any session does while the child is not known. -/
def fromChild (producer : EmissionProducer) (runId : RunId) (child : Option SubagentChildRef) : Bool :=
  match producer, child with
  | .session _ sessionId _, some child => sessionId == child.sessionId && runId == child.runId
  | .session _ _ _, none => true
  | .workflow _ _, _ => false

/-- Whether a cancellation comes from the holder. -/
def fromHolder (producer : EmissionProducer) (holderWorkflowId : Option String) : Bool :=
  match producer with
  | .session universeId sessionId _ =>
    holderWorkflowId == some (composeWorkflowId universeId sessionId)
  | .workflow _ _ => false

/-- What an emission does to an execution; nothing when it is not addressed to it. -/
def classifyEmission (identity : SignalIdentity) (envelope : EmissionEnvelope) :
    Option SignalEffect :=
  match envelope.body with
  | .runTerminal token runId status output failureMessageRef =>
    if identity.replyPromiseId.map (·.text) = some token ∧
        fromChild envelope.producer runId identity.child = true then
      some (.terminal (.run status output failureMessageRef))
    else none
  | .invocationCancellation invocationId completionKey _ =>
    if fromHolder envelope.producer identity.holderWorkflowId = true ∧
        identity.invocationId = some invocationId ∧ completionKey = replyCompletionKey then
      some .holderCancelled
    else none
  | .sourceResolution _ _ | .toolInvocation _ _ => none

namespace SubagentExecutionWorkflow

variable (w : SubagentExecutionWorkflow)

def identity : SignalIdentity where
  replyPromiseId := w.replyPromiseId
  holderWorkflowId := w.holderWorkflowId
  invocationId := w.invocationId
  child := w.snapshot.child

def applyEmission (envelope : EmissionEnvelope) : SubagentExecutionWorkflow :=
  match classifyEmission w.identity envelope with
  | some (.terminal terminal) =>
    if w.pendingTerminal.isNone then { w with pendingTerminal := some terminal, nudged := true } else w
  | some .holderCancelled => { w with holderCancelled := true, nudged := true }
  | none => w

end SubagentExecutionWorkflow

/-! ## The deadline -/

/-- The instant a set grant deadline falls on. -/
def deadlineAtMs (nowMs : Nat) (runTimeoutMs : Option Nat) : Option Nat :=
  runTimeoutMs.map fun timeoutMs => saturatingAdd64 nowMs (max timeoutMs 1)

/-- What is left of a deadline; one already past fires at once. -/
def deadlineRemaining (deadlineAtMs nowMs : Nat) : Nat := max (deadlineAtMs - nowMs) 1

/-! ## What classifying an emission says -/

variable {identity : SignalIdentity} {envelope : EmissionEnvelope} {w : SubagentExecutionWorkflow}

theorem fromChild_none {producer : EmissionProducer} {runId : RunId} {child : Option SubagentChildRef}
    (h : fromChild producer runId child = true) : fromChild producer runId none = true := by
  cases producer with
  | session universeId sessionId logSeq => rfl
  | workflow universeId workflowId => cases child <;> exact h

/-- What is addressed to an execution that knows its child is addressed to it before that too. -/
theorem classifyEmission_of_child {effect : SignalEffect}
    (h : classifyEmission identity envelope = some effect) :
    classifyEmission { identity with child := none } envelope = some effect := by
  unfold classifyEmission at h ⊢
  split at h
  · split_ifs at h with hterms
    rw [← h]
    exact if_pos ⟨hterms.1, fromChild_none hterms.2⟩
  · exact h
  all_goals cases h

/-- A run terminal of another session or of another run is not addressed to an execution that knows
its child. -/
theorem classifyEmission_of_stranger {child : SubagentChildRef} (hchild : identity.child = some child)
    {universeId : Uuid} {sessionId : SessionId} {logSeq : Nat} {token : String} {runId : RunId}
    {status : RunStatus} {output : Option ContentRef} {failureMessageRef : Option BlobRef}
    (hproducer : envelope.producer = .session universeId sessionId logSeq)
    (hbody : envelope.body = .runTerminal token runId status output failureMessageRef)
    (hother : sessionId ≠ child.sessionId ∨ runId ≠ child.runId) :
    classifyEmission identity envelope = none := by
  unfold classifyEmission
  rw [hbody, hproducer, hchild]
  refine if_neg fun ⟨_, hsame⟩ => ?_
  unfold fromChild at hsame
  rw [Bool.and_eq_true, beq_iff_eq, beq_iff_eq] at hsame
  exact hother.elim (· hsame.1) (· hsame.2)

namespace SubagentExecutionWorkflow

theorem applyEmission_of_none (h : classifyEmission w.identity envelope = none) :
    w.applyEmission envelope = w := by
  unfold applyEmission
  rw [h]

/-- What an emission can do to the state: nothing, set the first terminal, or note that the holder has
cancelled. -/
theorem applyEmission_cases (w : SubagentExecutionWorkflow) (envelope : EmissionEnvelope) :
    w.applyEmission envelope = w ∨
      (∃ status output failureMessageRef, w.pendingTerminal = none ∧ w.applyEmission envelope =
        { w with
          pendingTerminal := some (.run status output failureMessageRef)
          nudged := true }) ∨
      w.applyEmission envelope = { w with holderCancelled := true, nudged := true } := by
  unfold applyEmission classifyEmission
  split
  next terminal heffect =>
    split at heffect
    · split_ifs at heffect
      cases heffect
      by_cases hpending : w.pendingTerminal.isNone = true
      · rw [if_pos hpending]
        exact .inr (.inl ⟨_, _, _, Option.isNone_iff_eq_none.mp hpending, rfl⟩)
      · rw [if_neg hpending]
        exact .inl rfl
    · split_ifs at heffect
      cases heffect
    all_goals cases heffect
  · exact .inr (.inr rfl)
  · exact .inl rfl

end SubagentExecutionWorkflow

end Lightspeed.Subagents
