import Lightspeed.Lib.Alike
import Lightspeed.Subagents.Waits

/-!
# Emissions of strangers

An emission that is not addressed to an execution changes nothing but what is held: the execution treats
states that differ in such held emissions alike, so that a run comes to the same without them. With what
its journal keeps this says how a delegation ends: once, with the terminal that was accepted first, and
with the child closed.
-/

namespace Lightspeed.Subagents

open Lib Program
open Lightspeed.Harness (ContentRef BlobRef PromiseId PromiseResolution RunId RunStatus SessionId)

variable {sha256Hex : String → String} {workflowId : String} {start : WorkflowToolStartArgs}
  {envelope : EmissionEnvelope} {s t : Execution}

/-! ## Emissions that are addressed to an execution -/

/-- What an execution is matched by as long as it does not know its child. -/
def WorkflowToolStartArgs.identity (start : WorkflowToolStartArgs) : SignalIdentity where
  replyPromiseId := start.replyPromiseId
  holderWorkflowId := some start.holderWorkflowId
  invocationId := some start.invocation.invocationId
  child := none

/-- A session's run terminal with the token of the execution, or the holder's cancellation of its
invocation. -/
def addressed (start : WorkflowToolStartArgs) (envelope : EmissionEnvelope) : Bool :=
  (classifyEmission start.identity envelope).isSome

/-- A signal that brings an emission that is not addressed to the execution, or none at all. -/
def isForeign (start : WorkflowToolStartArgs) : SubagentSignal → Bool
  | .deliverEmission (some envelope) => !addressed start envelope
  | .deliverEmission none => true
  | .cancel | .clock _ | .history _ _ => false

/-- The identity of a run is that of its start. -/
structure Identified (start : WorkflowToolStartArgs) (w : SubagentExecutionWorkflow) : Prop where
  replyPromiseId : w.replyPromiseId = start.replyPromiseId
  holderWorkflowId : w.holderWorkflowId = some start.holderWorkflowId
  invocationId : w.invocationId = some start.invocation.invocationId

/-- An emission leaves alone what is held and what it is matched against. -/
theorem SubagentExecutionWorkflow.applyEmission_same (w : SubagentExecutionWorkflow)
    (envelope : EmissionEnvelope) :
    (w.applyEmission envelope).earlyEmissions = w.earlyEmissions ∧
      (w.applyEmission envelope).replyPromiseId = w.replyPromiseId ∧
      (w.applyEmission envelope).holderWorkflowId = w.holderWorkflowId ∧
      (w.applyEmission envelope).invocationId = w.invocationId ∧
      (w.applyEmission envelope).snapshot = w.snapshot := by
  rcases w.applyEmission_cases envelope with
    hsame | ⟨status, output, failureMessageRef, -, hset⟩ | hcancelled
  · rw [hsame]
    exact ⟨rfl, rfl, rfl, rfl, rfl⟩
  · rw [hset]
    exact ⟨rfl, rfl, rfl, rfl, rfl⟩
  · rw [hcancelled]
    exact ⟨rfl, rfl, rfl, rfl, rfl⟩

theorem Identified.applyEmission {w : SubagentExecutionWorkflow} (h : Identified start w)
    (envelope : EmissionEnvelope) : Identified start (w.applyEmission envelope) := by
  obtain ⟨-, hreply, hholder, hinvocation, -⟩ := w.applyEmission_same envelope
  exact ⟨hreply.trans h.replyPromiseId, hholder.trans h.holderWorkflowId,
    hinvocation.trans h.invocationId⟩

/-- What is not addressed to an execution changes nothing once the identity is set. -/
theorem Identified.applyEmission_of_not_addressed {w : SubagentExecutionWorkflow}
    (h : Identified start w) (hnot : addressed start envelope = false) :
    w.applyEmission envelope = w := by
  refine SubagentExecutionWorkflow.applyEmission_of_none ?_
  by_contra hsome
  obtain ⟨effect, heffect⟩ := Option.ne_none_iff_exists'.mp hsome
  have hidentity : { w.identity with child := none } = start.identity := by
    unfold SubagentExecutionWorkflow.identity WorkflowToolStartArgs.identity
    rw [h.replyPromiseId, h.holderWorkflowId, h.invocationId]
  have haddressed := classifyEmission_of_child heffect
  rw [hidentity] at haddressed
  unfold addressed at hnot
  rw [haddressed] at hnot
  cases hnot

/-- What is held does not matter to an emission. -/
theorem Execution.applyEmission_held (s : Execution) (held : List EmissionEnvelope) :
    ({ s with workflow.earlyEmissions := held } : Execution).applyEmission envelope =
      { s.applyEmission envelope with workflow.earlyEmissions := held } := by
  have hworkflow : ({ s.workflow with earlyEmissions := held } : SubagentExecutionWorkflow).applyEmission
      envelope = { s.workflow.applyEmission envelope with earlyEmissions := held } := by
    have hidentity : ({ s.workflow with earlyEmissions := held } : SubagentExecutionWorkflow).identity =
        s.workflow.identity := rfl
    unfold SubagentExecutionWorkflow.applyEmission
    rw [hidentity]
    split
    · split_ifs <;> rfl
    · rfl
    · rfl
  unfold Execution.applyEmission
  dsimp only
  rw [hworkflow]
  rfl

theorem Execution.applyEmission_of_same
    (h : s.workflow.applyEmission envelope = s.workflow) : s.applyEmission envelope = s := by
  unfold Execution.applyEmission
  rw [h, acceptedBetween_of_same rfl, List.append_nil]

/-- Of what was held, what is not addressed to the execution can be left out. -/
theorem foldl_applyEmission_filter (h : Identified start s.workflow)
    (emissions : List EmissionEnvelope) :
    emissions.foldl .applyEmission s = (emissions.filter (addressed start)).foldl .applyEmission s := by
  induction emissions generalizing s with
  | nil => rfl
  | cons envelope rest ih =>
    cases haddressed : addressed start envelope with
    | true =>
      rw [List.filter_cons_of_pos haddressed, List.foldl_cons, List.foldl_cons]
      exact ih (h.applyEmission envelope)
    | false =>
      have hsame : s.applyEmission envelope = s :=
        Execution.applyEmission_of_same (h.applyEmission_of_not_addressed haddressed)
      rw [List.filter_cons_of_neg (by rw [haddressed]; exact Bool.false_ne_true), List.foldl_cons, hsame]
      exact ih h

/-! ## States that differ in what is held -/

/-- Two states that are the same but for held emissions that are not addressed to the execution. -/
structure SameHeld (start : WorkflowToolStartArgs) (s t : Execution) : Prop where
  same : t = { s with workflow.earlyEmissions := t.workflow.earlyEmissions }
  held : s.workflow.earlyEmissions.filter (addressed start) =
    t.workflow.earlyEmissions.filter (addressed start)
  identified : s.workflow.replyPromiseId ≠ none → Identified start s.workflow

theorem SameHeld.refl (h : s.workflow.replyPromiseId ≠ none → Identified start s.workflow) :
    SameHeld start s s := ⟨rfl, rfl, h⟩

/-- A change that looks at no held emission and leaves the identity alone. -/
theorem SameHeld.change {f : Execution → Execution} (h : SameHeld start s t)
    (hheld : ∀ s l, f { s with workflow.earlyEmissions := l } =
      { f s with workflow.earlyEmissions := l })
    (hearly : (f s).workflow.earlyEmissions = s.workflow.earlyEmissions)
    (hidentity : (f s).workflow.replyPromiseId = s.workflow.replyPromiseId ∧
      (f s).workflow.holderWorkflowId = s.workflow.holderWorkflowId ∧
      (f s).workflow.invocationId = s.workflow.invocationId) : SameHeld start (f s) (f t) := by
  have hother : f t = { f s with workflow.earlyEmissions := t.workflow.earlyEmissions } := by
    conv_lhs => rw [h.same]
    exact hheld s _
  refine ⟨?_, ?_, fun hne => ?_⟩
  · rw [hother]
  · rw [hother, hearly]
    exact h.held
  · obtain ⟨hreply, hholder, hinvocation⟩ := h.identified (hidentity.1 ▸ hne)
    exact ⟨hidentity.1.trans hreply, hidentity.2.1.trans hholder, hidentity.2.2.trans hinvocation⟩

theorem subagentOutside_alike : subagentOutside.Alike (SameHeld start) (isForeign start) where
  allows request s t reply h := by
    rw [h.same]
    cases request with
    | select deadlineTimer sessionId => cases reply <;> rfl
    | _ => rfl
  foreign s t signal s' h hforeign hreceive := by
    cases signal with
    | deliverEmission emission =>
      cases hreceive
      cases emission with
      | none => exact h
      | some envelope =>
        have hnot : addressed start envelope = false := (Bool.not_eq_true' _).mp hforeign
        unfold Execution.deliverEmission
        dsimp only
        split_ifs with hnone
        · refine ⟨h.same, ?_, fun hne => absurd (Option.isNone_iff_eq_none.mp hnone) hne⟩
          dsimp only
          rw [List.filter_append, List.filter_cons_of_neg (by rw [hnot]; exact Bool.false_ne_true),
            List.filter_nil, List.append_nil]
          exact h.held
        · have hidentified := h.identified fun heq => hnone (Option.isNone_iff_eq_none.mpr heq)
          rwa [Execution.applyEmission_of_same (hidentified.applyEmission_of_not_addressed hnot)]
    | cancel | clock elapsedMs | history length suggested => cases hforeign
  native s t signal s' h hforeign hreceive := by
    cases signal with
    | deliverEmission emission =>
      cases hreceive
      refine ⟨_, rfl, ?_⟩
      cases emission with
      | none => exact h
      | some envelope =>
        have hreply : t.workflow.replyPromiseId = s.workflow.replyPromiseId := by rw [h.same]
        unfold Execution.deliverEmission
        dsimp only
        rw [hreply]
        split_ifs with hnone
        · refine ⟨?_, ?_, fun hne => absurd (Option.isNone_iff_eq_none.mp hnone) hne⟩
          · conv_lhs => rw [h.same]
          · dsimp only
            rw [List.filter_append, List.filter_append, h.held]
        · refine h.change (f := fun s => s.applyEmission envelope) ?_ ?_ ?_
          · exact fun s held => s.applyEmission_held held
          · exact (s.workflow.applyEmission_same envelope).1
          · obtain ⟨-, hreply, hholder, hinvocation, -⟩ := s.workflow.applyEmission_same envelope
            exact ⟨hreply, hholder, hinvocation⟩
    | cancel =>
      cases hreceive
      exact ⟨_, rfl, h.change (f := fun s => { s with cancelled := true }) (fun _ _ => rfl) rfl
        ⟨rfl, rfl, rfl⟩⟩
    | clock elapsedMs =>
      cases hreceive
      exact ⟨_, rfl, h.change (f := fun s => { s with nowMs := s.nowMs + elapsedMs })
        (fun _ _ => rfl) rfl ⟨rfl, rfl, rfl⟩⟩
    | history length suggested =>
      cases hreceive
      exact ⟨_, rfl, h.change
        (f := fun s => { s with historyLength := length, continueAsNewSuggested := suggested })
        (fun _ _ => rfl) rfl ⟨rfl, rfl, rfl⟩⟩

/-! ## The program treats them alike -/

/-- A failure that rolls over carries the start of the execution. -/
def CarriesStart (start : WorkflowToolStartArgs) (failure : SubagentFailure) : Prop :=
  ∀ resume, failure = .continueAsNew resume → resume.start = start

/-- What a program does of states that differ in what is held. -/
abbrev AlikeHeld (start : WorkflowToolStartArgs) {α : Type} (Q : α → Prop) (p : SubagentProgram α) :
    Prop :=
  Alike (SameHeld start) Q (CarriesStart start) p

/-- A read that looks at no held emission. -/
theorem alike_readState {α : Type} {f : Execution → α}
    (hheld : ∀ s held, f { s with workflow.earlyEmissions := held } = f s) :
    AlikeHeld start (fun _ => True) (readState f) := by
  refine .act fun s t h => ⟨?_, h, trivial⟩
  dsimp only
  rw [h.same]
  exact (hheld s _).symm

theorem alike_changeState {f : Execution → Execution}
    (hheld : ∀ s held, f { s with workflow.earlyEmissions := held } =
      { f s with workflow.earlyEmissions := held })
    (hearly : ∀ s, (f s).workflow.earlyEmissions = s.workflow.earlyEmissions)
    (hidentity : ∀ s, (f s).workflow.replyPromiseId = s.workflow.replyPromiseId ∧
      (f s).workflow.holderWorkflowId = s.workflow.holderWorkflowId ∧
      (f s).workflow.invocationId = s.workflow.invocationId) :
    AlikeHeld start (fun _ => True) (changeState f) :=
  .act fun s _ h => ⟨rfl, h.change hheld (hearly s) (hidentity s), trivial⟩

theorem alike_note (entry : JournalEntry) : AlikeHeld start (fun _ => True) (note entry) :=
  alike_changeState (fun _ _ => rfl) (fun _ => rfl) fun _ => ⟨rfl, rfl, rfl⟩

theorem alike_ask (request : SubagentRequest) : AlikeHeld start (fun _ => True) (ask request) :=
  .wait fun _ => trivial

theorem alike_closeChild (sessionId : String) :
    AlikeHeld start (fun _ => True) (closeChild sessionId) :=
  .seq (alike_note _) fun _ => alike_ask (.close sessionId)

theorem alike_emitResolution (replyPromiseId : PromiseId) (resolution : PromiseResolution) :
    AlikeHeld start (fun _ => True) (emitResolution replyPromiseId resolution) := by
  refine .seq (alike_readState fun _ _ => rfl) ?_
  rintro (_ | holder)
  · exact .done trivial
  · exact .seq (alike_note _) fun _ => alike_ask (.signal holder replyPromiseId resolution)

theorem alike_takeTerminal : AlikeHeld start (fun _ => True) takeTerminal := by
  refine .act fun s t h => ⟨?_, ?_, trivial⟩
  · dsimp only
    rw [h.same]
  · exact h.change (f := fun s => { s with workflow.pendingTerminal := none }) (fun _ _ => rfl) rfl
      ⟨rfl, rfl, rfl⟩

theorem alike_waitPass {resume : SubagentExecutionResume} (hstart : resume.start = start)
    (deadlineTimer : Option Nat) :
    AlikeHeld start (Sum.elim (fun _ => True) fun _ => True) (waitPass resume deadlineTimer) := by
  refine .seq alike_takeTerminal ?_
  rintro (_ | terminal)
  · refine .seq (alike_readState fun _ _ => rfl) fun holderCancelled => ?_
    refine .seq (alike_readState fun _ _ => rfl) fun historyLong => ?_
    split_ifs
    · exact .done trivial
    · refine .fail ?_
      rintro carried ⟨⟩
      exact hstart
    · refine .seq (alike_changeState (fun _ _ => rfl) (fun _ => rfl) fun _ => ⟨rfl, rfl, rfl⟩) fun _ => ?_
      refine .seq (alike_ask (.select deadlineTimer resume.child.sessionId)) ?_
      rintro (_ | _ | _ | error | _ | reason)
      · exact .done trivial
      · exact .done trivial
      · exact .done trivial
      · exact .done trivial
      · exact .done trivial
      · exact .seq alike_takeTerminal fun _ => .done trivial
  · exact .done trivial

theorem alike_finish (child : SubagentChildRef) (replyPromiseId : PromiseId) (outcome : WaitOutcome) :
    AlikeHeld start (fun _ => True) (finish child replyPromiseId outcome) := by
  have hphase : AlikeHeld start (fun _ => True)
      (changeState fun s => { s with workflow.snapshot.phase := .cancelled }) :=
    alike_changeState (fun _ _ => rfl) (fun _ => rfl) fun _ => ⟨rfl, rfl, rfl⟩
  cases outcome with
  | terminal terminal =>
    refine .seq (alike_note _) fun _ => .seq (alike_ask (.resolve child terminal)) ?_
    rintro (error | resolution)
    · exact .seq (alike_closeChild _) fun _ => .fail (by rintro _ ⟨⟩)
    · refine .seq (alike_changeState (fun _ _ => rfl) (fun _ => rfl) fun _ => ⟨rfl, rfl, rfl⟩) fun _ => ?_
      exact .seq (alike_emitResolution _ _) fun _ => alike_closeChild _
  | holderCancelled => exact .seq (alike_closeChild _) fun _ => hphase
  | cancelled => exact .seq (alike_closeChild _) fun _ => .seq hphase fun _ => .fail (by rintro _ ⟨⟩)

theorem alike_supervise {resume : SubagentExecutionResume} (hstart : resume.start = start)
    (replyPromiseId : PromiseId) :
    AlikeHeld start (fun _ => True) (supervise resume replyPromiseId) := by
  refine .seq ?_ fun outcome => .seq (alike_note _) fun _ => alike_finish _ _ _
  refine .seq (alike_note _) fun _ => .seq (alike_readState fun _ _ => rfl) fun nowMs => ?_
  exact .loop (fun _ => True) trivial fun _ _ => alike_waitPass hstart _

theorem alike_prepareChild (replyPromiseId : PromiseId) :
    AlikeHeld start (fun _ => True) (prepareChild sha256Hex start replyPromiseId) := by
  refine .seq (alike_ask (.prepare start)) fun result => ?_
  refine .seq (alike_readState fun _ _ => rfl) fun nowMs => .seq (alike_note _) fun _ => ?_
  rcases result with error | ⟨child, runTimeoutMs, wait⟩ | errorRef
  · exact .seq (alike_closeChild _) fun _ => .fail (by rintro _ ⟨⟩)
  · refine .seq (alike_changeState (fun _ _ => rfl) (fun _ => rfl) fun _ => ⟨rfl, rfl, rfl⟩) fun _ => ?_
    exact alike_supervise (by rfl) replyPromiseId
  · refine .seq (alike_changeState (fun _ _ => rfl) (fun _ => rfl) fun _ => ⟨rfl, rfl, rfl⟩) fun _ => ?_
    exact alike_emitResolution _ _

/-- Setting the identity drops what was held of others. -/
theorem alike_setIdentity {replyPromiseId : PromiseId} (child : Option SubagentChildRef)
    (hpromise : start.replyPromiseId = some replyPromiseId) :
    AlikeHeld start (fun _ => True) (changeState (.setIdentity start replyPromiseId child)) := by
  refine .act fun s t h => ⟨rfl, ?_, trivial⟩
  let base : Execution := { s with workflow := s.workflow.identify start replyPromiseId child }
  have hbase : Identified start base.workflow := ⟨hpromise.symm, rfl, rfl⟩
  have hother : t.setIdentity start replyPromiseId child =
      t.workflow.earlyEmissions.foldl .applyEmission base := by
    unfold Execution.setIdentity
    have hsame : ({ t with workflow := t.workflow.identify start replyPromiseId child } : Execution) =
        base := by
      conv_lhs => rw [h.same]
      rfl
    rw [hsame]
  have hequal : t.setIdentity start replyPromiseId child = s.setIdentity start replyPromiseId child := by
    calc t.setIdentity start replyPromiseId child
        = (t.workflow.earlyEmissions.filter (addressed start)).foldl .applyEmission base := by
          rw [hother, foldl_applyEmission_filter hbase]
      _ = (s.workflow.earlyEmissions.filter (addressed start)).foldl .applyEmission base := by
          rw [h.held]
      _ = s.setIdentity start replyPromiseId child := (foldl_applyEmission_filter hbase _).symm
  dsimp only
  rw [hequal]
  refine .refl fun _ => ?_
  have hfold : ∀ (emissions : List EmissionEnvelope) (u : Execution), Identified start u.workflow →
      Identified start (emissions.foldl .applyEmission u).workflow := by
    intro emissions
    induction emissions with
    | nil => exact fun u hu => hu
    | cons envelope rest ih => exact fun u hu => ih _ (hu.applyEmission envelope)
  exact hfold _ base hbase

theorem alike_run {input : SubagentExecutionInput} (hargs : input.args = start) :
    AlikeHeld start (fun _ => True) (run sha256Hex workflowId input) := by
  refine .seq (alike_ask .activation) fun _ => ?_
  rw [hargs]
  split_ifs
  · cases hpromise : start.replyPromiseId with
    | none => exact .fail (by rintro _ ⟨⟩)
    | some replyPromiseId =>
      refine .seq (alike_setIdentity input.child hpromise) fun _ => ?_
      cases input with
      | start args =>
        obtain rfl : args = start := hargs
        exact alike_prepareChild replyPromiseId
      | resume resume => exact alike_supervise hargs replyPromiseId
  · exact .fail (by rintro _ ⟨⟩)

/-- What a run comes to: a failure that rolls over carries the start. -/
def RunYields (start : WorkflowToolStartArgs) : Except SubagentFailure Unit → Prop
  | .ok () => True
  | .error failure => CarriesStart start failure

theorem alike_rollOver : AlikeHeld start (fun _ => True) (changeState .rollOver) := by
  refine .act fun s t h => ⟨rfl, ?_, trivial⟩
  have hequal : t.rollOver = s.rollOver := by
    rw [h.same]
    rfl
  dsimp only
  rw [hequal]
  exact .refl fun hne => absurd rfl hne

theorem alike_runs : AlikeHeld start (fun _ => True) (runs sha256Hex workflowId start) := by
  refine .loop (fun input => input.args = start) rfl fun input hargs => ?_
  refine .bind (RunYields start) (.attempt (alike_run hargs)) ?_
  rintro (failure | _) hresult
  · cases failure with
    | continueAsNew resume => exact .seq alike_rollOver fun _ => .done (hresult resume rfl)
    | application message | cancelled => exact .fail (by rintro _ ⟨⟩)
  · exact .done trivial

/-! ## Delegations -/

/-- A run terminal of a session that is not the child, or of another run of it. -/
inductive OfStranger (child : SubagentChildRef) : EmissionEnvelope → Prop
  | intro {emissionId : String} {universeId : Bots.Uuid} {sessionId : SessionId} {logSeq : Nat}
      {token : String} {runId : RunId} {status : RunStatus} {output : Option ContentRef}
      {failureMessageRef : Option BlobRef}
      (h : sessionId ≠ child.sessionId ∨ runId ≠ child.runId) :
      OfStranger child ⟨emissionId, .session universeId sessionId logSeq,
        .runTerminal token runId status output failureMessageRef⟩

theorem applyEmission_of_stranger {child : SubagentChildRef}
    (hchild : s.workflow.snapshot.child = some child) (h : OfStranger child envelope) :
    s.applyEmission envelope = s := by
  obtain ⟨hother⟩ := h
  refine Execution.applyEmission_of_same (SubagentExecutionWorkflow.applyEmission_of_none ?_)
  exact classifyEmission_of_stranger hchild rfl rfl hother

/-- How a delegation stands after a run of its execution. -/
structure Delegation (sha256Hex : String → String) (workflowId : String) (start : WorkflowToolStartArgs)
    (steps : List (Config Execution SubagentRequest SubagentReply SubagentFailure Unit ×
      Input SubagentRequest SubagentReply SubagentSignal))
    (c : Config Execution SubagentRequest SubagentReply SubagentFailure Unit) : Prop where
  /-- At rest, one resolution at most, the first terminal, and one deadline. -/
  kept : c.1.waiting.isSome ∨ c.1.outcome.isSome → JournalKept start c.2.journal
  /-- At the end, the child is closed unless it was rejected. -/
  closed : c.1.outcome.isSome → start.Fits workflowId → Closed sha256Hex start c.2.journal
  /-- Without the emissions that are not addressed to it the run comes to the same. -/
  foreign : ∃ rest t, (execution sha256Hex workflowId start).Run rest (c.1, t) ∧
    SameHeld start c.2 t ∧
    rest.map Prod.snd = (steps.map Prod.snd).filter fun input => !input.isSignal (isForeign start)
  /-- Once the child is known, a terminal of another session or run changes nothing. -/
  stranger : ∀ child envelope, c.2.workflow.replyPromiseId ≠ none →
    c.2.workflow.snapshot.child = some child → OfStranger child envelope →
    c.2.deliverEmission (some envelope) = c.2
  /-- A run that goes on with a wait drops what it held of such terminals. -/
  held : ∀ child envelope replyPromiseId before after, OfStranger child envelope →
    ({ c.2 with workflow.earlyEmissions := before ++ envelope :: after } : Execution).setIdentity start
        replyPromiseId (some child) =
      ({ c.2 with workflow.earlyEmissions := before ++ after } : Execution).setIdentity start
        replyPromiseId (some child)

/-- A delegation ends once, and cleans up. -/
theorem delegation_ends_once
    {steps : List (Config Execution SubagentRequest SubagentReply SubagentFailure Unit ×
      Input SubagentRequest SubagentReply SubagentSignal)}
    {c : Config Execution SubagentRequest SubagentReply SubagentFailure Unit}
    (h : (execution sha256Hex workflowId start).Run steps c) :
    Delegation sha256Hex workflowId start steps c := by
  have hkeeps : ∀ s : Execution, (∃ nowMs, s = { nowMs }) →
      KeepsJournal start (fun _ t => EndsOver sha256Hex workflowId start t)
        (fun _ t => EndsOver sha256Hex workflowId start t) (runs sha256Hex workflowId start) s := by
    rintro s ⟨nowMs, rfl⟩
    exact keeps_runs rfl
  have hmeets : ∀ step ∈ steps, StepMeets (fun _ _ _ => True) step.1 step.2 := by
    rintro ⟨d, _ | reply | signal⟩ -
    · trivial
    · exact fun _ _ => trivial
    · trivial
  have hstands := Keeps.run hkeeps h hmeets
  have hends : c.1.outcome.isSome → EndsOver sha256Hex workflowId start c.2 := by
    intro hover
    obtain ⟨result | failure, houtcome⟩ := Option.isSome_iff_exists.mp hover
    · exact hstands.fails result houtcome
    · exact hstands.done failure houtcome
  refine ⟨?_, fun hover => (hends hover).2, ?_, ?_, ?_⟩
  · rintro (hwaits | hover)
    · obtain ⟨request, hrequest⟩ := Option.isSome_iff_exists.mp hwaits
      exact hstands.waits request hrequest
    · exact (hends hover).1
  · refine alike_runs.run subagentOutside_alike ?_ h
    rintro s ⟨nowMs, rfl⟩
    exact .refl fun hne => absurd rfl hne
  · intro child envelope hidentity hchild hstranger
    unfold Execution.deliverEmission
    dsimp only
    rw [if_neg fun hnone => hidentity (Option.isNone_iff_eq_none.mp hnone)]
    exact applyEmission_of_stranger hchild hstranger
  · intro child envelope replyPromiseId before after hstranger
    have hchild : ∀ (emissions : List EmissionEnvelope) (u : Execution),
        u.workflow.snapshot.child = some child →
        (emissions.foldl .applyEmission u).workflow.snapshot.child = some child := by
      intro emissions
      induction emissions with
      | nil => exact fun u hu => hu
      | cons first rest ih =>
        intro u hu
        refine ih _ ?_
        rw [← hu]
        exact congrArg SubagentExecutionSnapshot.child (u.workflow.applyEmission_same first).2.2.2.2
    unfold Execution.setIdentity
    dsimp only
    rw [List.foldl_append, List.foldl_append, List.foldl_cons,
      applyEmission_of_stranger (hchild before _ rfl) hstranger]
    rfl

/-! ## Samples -/

def samplePromise : PromiseId := ⟨1, Harness.one_lt_u64Bound⟩

/-- A delegation of the parent's session. -/
def sampleStart : WorkflowToolStartArgs where
  universeId := Bots.sampleUniverse
  holderWorkflowId := "6f3a1a52-58c1-4f0e-9c2d-1a2b3c4d5e6f/parent"
  executionId := "wte:one"
  invocation :=
    { invocationId := "wti:one", workflowToolId := "agent_run", semanticType := "agent_run"
      schemaRevision := 1, bindingFingerprint := "fingerprint"
      sessionUniverseId := "6f3a1a52-58c1-4f0e-9c2d-1a2b3c4d5e6f", sessionId := "parent", runId := 1
      turnId := 1, toolBatchId := 1, toolCallId := "call", argumentsRef := ⟨"task"⟩
      completionPromises := some (OrdMap.ofList [(replyCompletionKey, samplePromise)]) }

def sampleChild : SubagentChildRef where
  sessionId := "agent_child"
  runId := 1
  agentProfileId := "reviewer"

/-- The terminal of a run of a session, with the token of the delegation. -/
def sampleTerminal (sessionId : SessionId) (status : RunStatus) : EmissionEnvelope where
  emissionId := sessionId
  producer := .session Bots.sampleUniverse sessionId 9
  body := .runTerminal samplePromise.text 1 status none none

/-- An outside that prepares the child, and resolves any terminal. -/
def sampleReply (branch : SelectBranch) : (request : SubagentRequest) → SubagentReply request
  | .activation | .close _ | .signal _ _ _ => ()
  | .prepare _ => .ok (.prepared sampleChild (some 5000) ⟨60000, 4000⟩)
  | .select _ _ => branch
  | .resolve _ _ => .ok (.resolved none)

/-- The execution advances so many times, to each request in turn, and is answered. -/
def answered (branch : SelectBranch) (advances : List Nat) :
    List (Input SubagentRequest SubagentReply SubagentSignal) :=
  advances.flatMap fun n => List.replicate n .advance ++ [.answer (sampleReply branch)]

/-- The hash of the execution's id. -/
def sampleSha256Hex (text : String) : String :=
  if text = "wte:one" then "6bc9568e75ed7b237ec66f7a347586f961c3510522d458b6a8070e2e80591d36" else ""

/-- The child's run ends while the execution waits, after a terminal of another session. -/
def untilClosed : List (Input SubagentRequest SubagentReply SubagentSignal) :=
  answered .nudged [1, 3] ++ List.replicate 20 .advance ++
    [.signal (.deliverEmission (some (sampleTerminal "stranger" .failed))),
      .signal (.deliverEmission (some (sampleTerminal "agent_child" .completed)))] ++
    answered .nudged [0, 11, 7, 3] ++ List.replicate 3 .advance

/-- A terminal of another session comes while the child is prepared. -/
def untilDeceived : List (Input SubagentRequest SubagentReply SubagentSignal) :=
  answered .nudged [1] ++ List.replicate 3 .advance ++
    [.signal (.deliverEmission (some (sampleTerminal "stranger" .failed)))] ++
    answered .nudged [0, 20, 7, 3] ++ List.replicate 3 .advance

/-- What an execution that starts now, under an id, comes to: whether it is over, and its journal. -/
def comesTo (workflowId : String)
    (inputs : List (Input SubagentRequest SubagentReply SubagentSignal)) :
    Option (Bool × List JournalEntry) :=
  ((execution sampleSha256Hex workflowId sampleStart).exec
    (runs sampleSha256Hex workflowId sampleStart, { nowMs := 1000 }) inputs).map fun c =>
      (c.1.outcome.isSome, c.2.journal)

/-- The delegation ends with the child's terminal. -/
theorem delegation_ends_once_done :
    ∃ steps c, (execution sampleSha256Hex "wte:one" sampleStart).Run steps c ∧
      c.1.outcome.isSome = true ∧ sampleStart.Fits "wte:one" ∧
      Delegation sampleSha256Hex "wte:one" sampleStart steps c := by
  let m := execution sampleSha256Hex "wte:one" sampleStart
  obtain ⟨⟨steps, c⟩, htrace, hover⟩ :
      ∃ traced ∈ m.trace (runs sampleSha256Hex "wte:one" sampleStart, { nowMs := 1000 }) untilClosed,
        traced.2.1.outcome.isSome = true := by decide +kernel
  have hrun := (Machine.Run.init (m := m) ⟨rfl, 1000, rfl⟩).trace htrace
  rw [List.nil_append] at hrun
  exact ⟨steps, c, hrun, hover, by decide +kernel, delegation_ends_once hrun⟩

/-- While the child is prepared a terminal of any session is taken for its own. An execution that is not
the one of its start ends without closing anything. -/
theorem delegation_deceived :
    comesTo "wte:one" untilDeceived = some (true,
      [.accepted (.run .failed none none),
        .prepared 1000 (.ok (.prepared sampleChild (some 5000) ⟨60000, 4000⟩)),
        .waits sampleChild (some 6000),
        .waited (.terminal (.run .failed none none)),
        .resolve sampleChild (.run .failed none none),
        .emitted sampleStart.holderWorkflowId samplePromise (.resolved none),
        .close sampleChild.sessionId]) ∧
    comesTo "wte:two" (answered .nudged [1] ++ List.replicate 4 .advance) = some (true, []) := by
  decide +kernel

end Lightspeed.Subagents
