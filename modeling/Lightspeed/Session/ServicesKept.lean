import Lightspeed.Session.AdmissionsKept

/-!
# What the services of a pass keep

What a pass does before the drive: the queues that it empties and fills lie beside the appends, and each
append comes from a command.
-/

namespace Lightspeed.Session

open Lib Harness Program

variable {args : AgentSessionArgs}
  {meets : (request : SessionRequest) → AgentSessionWorkflow → SessionReply request → Prop}
  {allowed : DriveInput → Prop} {I J P : AgentSessionWorkflow → Prop} {s t : AgentSessionWorkflow}

/-! ## Code tools -/

theorem Kept.applyCodeToolCommand (h : Kept args meets allowed I) (command : CoreAgentCommand) :
    SessionKeeps meets P I (applyCodeToolCommand args command) := by
  refine .bind (h.admitAndAppendCommand command) fun result => ?_
  cases result with
  | accepted => exact .pure _
  | rejected => exact .pure _

theorem Kept.applyInternal (h : Kept args meets allowed I) (command : CoreAgentCommand) :
    SessionKeeps meets P I (applyInternal args command) := by
  refine .bind (h.applyCodeToolCommand command) fun admitted => ?_
  split
  · exact .pure _
  · exact keeps_raise trivial

theorem Kept.putBoundaryErrorBlob (h : Kept args meets allowed I) :
    SessionKeeps meets P I putBoundaryErrorBlob :=
  .bind (h.ask fun _ => trivial) fun _ => .pure _

theorem Kept.processCompletion (h : Kept args meets allowed I)
    (completion : CodeToolOrigin × CodeToolInvokeActivityResult) :
    SessionKeeps meets P I (processCompletion args completion) := by
  have hsettled : ∀ origin, SessionKeeps meets P I (changeState fun s =>
      { s with codeTools := { s.codeTools with
          inflight := s.codeTools.inflight.filter (· ≠ origin) } }) :=
    fun _ => h.change fun _ => .queues rfl rfl rfl rfl rfl rfl rfl
  refine .bind keeps_read fun s => ?_
  dsimp only
  split
  · refine .bind (h.applyCodeToolCommand _) fun admitted => ?_
    split
    · exact hsettled _
    · refine .bind h.putBoundaryErrorBlob fun errorRef => ?_
      exact .bind (h.applyInternal _) fun _ => hsettled _
  · exact hsettled _

theorem Kept.admitOpen (h : Kept args meets allowed I) (request : OpenCodeToolScopeRequest) :
    SessionKeeps meets P I (admitOpen args request) := by
  refine .bind keeps_read fun s => ?_
  dsimp only
  split
  · exact .pure _
  · split
    · exact .pure _
    · refine .bind (h.awaitActivity _) fun reply => ?_
      split
      · refine .bind keeps_read fun t => ?_
        split
        · exact .pure _
        · exact h.applyCodeToolCommand _
      · exact .pure _

theorem Kept.processCodeToolRequest (h : Kept args meets allowed I)
    (pending : Nat × CodeToolRequest) :
    SessionKeeps meets P I (processCodeToolRequest args pending) := by
  obtain ⟨ticket, request⟩ := pending
  have hreceipt : ∀ admitted, SessionKeeps meets P I (changeState fun s =>
      { s with codeTools := { s.codeTools with
          receipts := s.codeTools.receipts ++ [(ticket, admitted)] } }) :=
    fun _ => h.change fun _ => .queues rfl rfl rfl rfl rfl rfl rfl
  refine .bind keeps_read fun s => ?_
  cases request with
  | «open» request => exact .bind (h.admitOpen request) hreceipt
  | invoke request =>
    dsimp only
    split
    · exact .bind (h.applyCodeToolCommand _) hreceipt
    · exact .bind (.pure _) hreceipt
  | close executionId => exact .bind (h.applyCodeToolCommand _) hreceipt

theorem Kept.resumeWait (h : Kept args meets allowed I) (claimObservedAtMs : Nat)
    (ready : CodeToolOrigin × ToolBatchSuspension × AwaitOutcome) :
    SessionKeeps meets P I (resumeWait args claimObservedAtMs ready) := by
  obtain ⟨origin, suspension, wake⟩ := ready
  cases suspension with
  | awaitTool callId spec =>
    refine .bind (h.ask fun _ => trivial) fun reply => ?_
    cases reply with
    | none => exact keeps_raise trivial
    | some materialized => exact h.applyInternal _
  | joinedWorkflowCalls calls spec =>
    refine .bind (h.ask fun _ => trivial) fun reply => ?_
    cases reply with
    | none => exact keeps_raise trivial
    | some entries =>
      refine .bind keeps_read fun s => ?_
      split
      · exact keeps_raise trivial
      · exact h.applyInternal _

theorem Kept.processPendingCodeTools (h : Kept args meets allowed I) :
    SessionKeeps meets P I (processPendingCodeTools args) := by
  refine .bind (h.take fun _ => .queues rfl rfl rfl rfl rfl rfl rfl) fun completions => ?_
  refine .bind (.forM h.processCompletion) fun _ => ?_
  refine .bind (h.take fun _ => .queues rfl rfl rfl rfl rfl rfl rfl) fun pending => ?_
  refine .bind (.forM h.processCodeToolRequest) fun _ => ?_
  refine .bind keeps_read fun s => ?_
  refine .bind (.forM fun scope => h.applyInternal _) fun _ => ?_
  exact .bind keeps_read fun t => .forM (h.resumeWait t.nowMs)

/-! ## Emissions and resolutions -/

theorem Kept.failHeldInvocation (h : Kept args meets allowed I)
    (held : CoreAgentState → OrdMap WorkflowToolInvocationId WorkflowToolInvocation)
    (failure : WorkflowToolInvocationId → BlobRef → CoreAgentCommand)
    (invocation : WorkflowToolInvocation) :
    SessionKeeps meets P I (failHeldInvocation args held failure invocation) := by
  refine .bind keeps_read fun s => ?_
  split
  · exact .pure _
  · refine .bind (h.ask fun _ => trivial) fun reply => ?_
    cases reply with
    | none => exact keeps_raise trivial
    | some errorRef => exact .bind (h.admitAndAppendCommand _) fun _ => .pure _

theorem Kept.flushEmission (h : Kept args meets allowed I) (nowMs : Nat) (pending : PendingEmission) :
    SessionKeeps meets P I (flushEmission args nowMs pending) := by
  unfold Session.flushEmission
  split
  · exact .pure _
  · refine .bind (h.ask fun _ => trivial) fun delivered => ?_
    split
    · exact .pure _
    · split
      · exact .pure _
      · dsimp only
        split
        · exact .bind (h.failHeldInvocation _ _ _) fun _ => .pure _
        · exact .pure _

theorem Kept.flushEmissions (h : Kept args meets allowed I) (nowMs : Nat)
    (pending : List PendingEmission) : SessionKeeps meets P I (flushEmissions args nowMs pending) := by
  induction pending with
  | nil => exact .pure _
  | cons first rest ih =>
    exact .bind (h.flushEmission nowMs first) fun _ => .bind ih fun _ => .pure _

theorem Kept.flushPendingEmissions (h : Kept args meets allowed I) :
    SessionKeeps meets P I (flushPendingEmissions args) := by
  refine .bind keeps_read fun s => ?_
  refine .bind (h.take fun _ => .queues rfl rfl rfl rfl rfl rfl rfl) fun pending => ?_
  refine .bind (h.flushEmissions s.nowMs pending) fun retained => ?_
  exact h.change fun _ => .queues rfl rfl rfl rfl rfl rfl rfl

theorem Kept.processPendingSourceResolutions (h : Kept args meets allowed I) :
    SessionKeeps meets P I processPendingSourceResolutions := by
  have hingest : ∀ resolution replySchemaRef textReply, SessionKeeps meets P I
      (ingestResolution resolution replySchemaRef textReply) := by
    intro resolution replySchemaRef textReply
    unfold ingestResolution
    split
    · refine .bind (h.ask fun _ => trivial) fun reply => ?_
      cases reply with
      | failed => exact keeps_raise trivial
      | _ => exact .pure _
    · exact .pure _
  refine .bind (h.take fun _ => .queues rfl rfl rfl rfl rfl rfl rfl) fun pending => ?_
  refine .forM fun resolution => .bind keeps_read fun s => ?_
  split
  · exact .pure _
  · exact .bind (hingest _ _ _) fun _ => h.change fun s => queueAdmission_beside s _

/-! ## Starts and cancellations -/

theorem Kept.terminalStartFailure (h : Kept args meets allowed I)
    (invocation : WorkflowToolInvocation) :
    SessionKeeps meets P I (terminalStartFailure args invocation) :=
  .bind (h.failHeldInvocation _ _ _) fun _ =>
    h.change fun _ => .queues rfl rfl rfl rfl rfl rfl rfl

theorem Kept.processStart (h : Kept args meets allowed I) (nowMs : Nat)
    (candidate : WorkflowToolInvocation × String) :
    SessionKeeps meets P I (processStart args nowMs candidate) := by
  obtain ⟨invocation, executionId⟩ := candidate
  refine .bind (h.ask fun _ => trivial) fun reply => ?_
  cases reply with
  | failed => exact keeps_raise trivial
  | started => exact h.change fun _ => .queues rfl rfl rfl rfl rfl rfl rfl
  | failedTerminal => exact h.terminalStartFailure invocation
  | failedRetryable =>
    refine .bind keeps_read fun s => ?_
    dsimp only
    split
    · exact h.terminalStartFailure invocation
    · exact h.change fun _ => .queues rfl rfl rfl rfl rfl rfl rfl

theorem forgetStaleBackoffs_beside (s : AgentSessionWorkflow) : Beside s s.forgetStaleBackoffs :=
  .queues rfl rfl rfl rfl rfl rfl rfl

theorem Kept.processPendingStarts (h : Kept args meets allowed I) :
    SessionKeeps meets P I (processPendingStarts args) := by
  refine .bind (h.change forgetStaleBackoffs_beside) fun _ => ?_
  exact .bind keeps_read fun s => .forM (h.processStart s.nowMs)

theorem Kept.flushPendingPromiseCancellations (h : Kept args meets allowed I) :
    SessionKeeps meets P I flushPendingPromiseCancellations := by
  refine .bind (h.take fun _ => .queues rfl rfl rfl rfl rfl rfl rfl) fun pending => ?_
  refine .forM fun cancellation => ?_
  unfold flushPromiseCancellation
  split
  · exact .pure _
  · exact h.ask fun _ => trivial

theorem Kept.processExecutionCancels (h : Kept args meets allowed I) :
    SessionKeeps meets P I processExecutionCancels := by
  refine .bind (h.take fun _ => .queues rfl rfl rfl rfl rfl rfl rfl) fun due => ?_
  exact .forM fun _ => h.ask fun _ => trivial

/-! ## Polls and deadlines -/

theorem reinstall_beside (s : AgentSessionWorkflow) (poll : PromiseSourcePoll) :
    Beside s (s.reinstall poll) := .queues rfl rfl rfl rfl rfl rfl rfl

theorem pushFound_beside (s : AgentSessionWorkflow) (promiseId : PromiseId)
    (resolution : PromiseResolution) (producer : String) :
    Beside s (s.pushFound promiseId resolution producer) := .queues rfl rfl rfl rfl rfl rfl rfl

theorem Kept.checkExecution (h : Kept args meets allowed I) (poll : PromiseSourcePoll)
    (producerWorkflowId completionKey : String) :
    SessionKeeps meets P I (checkExecution poll producerWorkflowId completionKey) := by
  refine .bind (h.ask fun _ => trivial) fun reply => ?_
  cases reply with
  | pending | activityFailed => exact .bind (h.change fun s => reinstall_beside s poll) fun _ => .pure _
  | resolved payloadRef | failed errorRef =>
    exact .bind (h.change fun s => pushFound_beside s _ _ _) fun _ => .pure _

theorem Kept.processDuePolls (h : Kept args meets allowed I) (nowMs : Nat)
    (pendingExecutions : List String) (due : List PromiseSourcePoll) :
    SessionKeeps meets P I (processDuePolls nowMs pendingExecutions due) := by
  induction due generalizing pendingExecutions with
  | nil => exact .pure _
  | cons poll rest ih =>
    unfold Session.processDuePolls
    split
    · refine .bind (h.change fun s => ?_) fun _ => ih _
      split
      · exact queueAdmission_beside s _
      · exact reinstall_beside s poll
    · split
      · exact .bind (h.change fun s => reinstall_beside s poll) fun _ => ih _
      · exact .bind (h.checkExecution _ _ _) fun _ => ih _

theorem Kept.processDue (h : Kept args meets allowed I) : SessionKeeps meets P I processDue := by
  refine .bind keeps_read fun s => ?_
  refine .bind (h.take fun _ => .queues rfl rfl rfl rfl rfl rfl rfl) fun due => ?_
  refine .bind (h.processDuePolls _ _ _) fun _ => ?_
  split
  · exact .pure _
  · exact h.change fun _ => .queues rfl rfl rfl rfl rfl rfl rfl

theorem Kept.processDuePromiseDeadlines (h : Kept args meets allowed I) :
    SessionKeeps meets P I processDuePromiseDeadlines := by
  refine h.change fun s => ?_
  have hfold : ∀ (promises : List Promise) (t : AgentSessionWorkflow), Beside s t →
      Beside s (promises.foldl (fun s promise => s.queueResolution promise.promiseId
        (.failed (some promiseDeadlineExceededRef))) t) := by
    intro promises
    induction promises with
    | nil => exact fun _ ht => ht
    | cons promise rest ih => exact fun t ht => ih _ (ht.trans (queueAdmission_beside t _))
  exact hfold _ s (.refl s)

end Lightspeed.Session
