import Lightspeed.Harness.CodeScopes
import Lightspeed.Session.LoopKept

/-!
# The duties of a drive at rest

A drive that comes to rest closes a session that is done, and rejects the approvals that nobody can give.
Nothing wakes the loop for these duties: it owes the drive a pass after a yield and a continue-as-new, and
what the drive has left undone is seen by no predicate. An append outside the drive that leaves such a duty
leaves it until something else wakes the drive.
-/

namespace Lightspeed.Session

open Lib Harness Program

variable {args : AgentSessionArgs} {s t : AgentSessionWorkflow}

/-- Whether a session has a duty that no drive is going to see: it comes up at rest, and the state needs
no drive to come to rest. -/
def unseenDuty (args : AgentSessionArgs) (s : AgentSessionWorkflow) : Bool :=
  dutyAtRest args s.coreState && !needsCoreDrive s

/-- The drive is owed a pass, or no duty waits for it unseen. -/
def Discharged (args : AgentSessionArgs) (s : AgentSessionWorkflow) : Prop :=
  s.driveOwed = true ∨ unseenDuty args s = false

/-- Whether an append outside the drive, while the loop owes it no pass, brings up a duty that the drive
does not see. -/
def bringsUpDuty (args : AgentSessionArgs) (entries : List CoreAgentEntry)
    (s : AgentSessionWorkflow) : Bool :=
  !s.driving && !s.driveOwed && !unseenDuty args s &&
    (s.applyAppended entries).any fun applied => unseenDuty args applied.1

/-- Whether what is stored brings up no duty unseen. -/
def keepsDuties (args : AgentSessionArgs) (request : SessionRequest) (s : AgentSessionWorkflow)
    (reply : SessionReply request) : Bool :=
  match request, reply with
  | .appendEvents entries, .stored => !bringsUpDuty args entries s
  | _, _ => true

/-- Outside the drive. -/
structure Outdoors (args : AgentSessionArgs) (s : AgentSessionWorkflow) : Prop where
  driving : s.driving = false
  discharged : Discharged args s

/-- No duty comes up asleep. -/
def DutyFree (args : AgentSessionArgs) (s : AgentSessionWorkflow) : Prop :=
  stateHasImmediateWork s = false → dutyAtRest args s.coreState = false

/-! ## Inside and outside the drive -/

theorem needsCoreDrive_beside (h : Beside s t) (hneeds : needsCoreDrive s = true) :
    needsCoreDrive t = true := by
  unfold needsCoreDrive at hneeds ⊢
  rw [h.core]
  rw [Bool.and_eq_true, Bool.or_eq_true, Bool.and_eq_true] at hneeds ⊢
  obtain ⟨hready, hneeds⟩ := hneeds
  refine ⟨h.ready hready, hneeds.imp_left fun ⟨htoolsets, hfrozen⟩ => ⟨?_, hfrozen⟩⟩
  have hne : s.pendingToolsets ≠ [] := by simpa using htoolsets
  simpa using h.toolsets hne

theorem Discharged.beside (h : Discharged args s) (hbeside : Beside s t) : Discharged args t := by
  rcases h with howed | hseen
  · exact .inl (hbeside.owed.trans howed)
  · refine .inr ?_
    unfold unseenDuty at hseen ⊢
    rw [hbeside.core]
    rw [Bool.and_eq_false_iff, Bool.not_eq_false'] at hseen ⊢
    exact hseen.imp_right (needsCoreDrive_beside hbeside)

theorem discharged_keptBeside : KeptBeside (Discharged args) := fun _ _ hs hbeside => hs.beside hbeside

theorem Discharged.of_dutyAtRest (h : dutyAtRest args s.coreState = false) : Discharged args s := by
  refine .inr ?_
  unfold unseenDuty
  rw [h]
  rfl

theorem outdoors_kept : Kept args (keepsDuties args · · ·) (fun _ => True) (Outdoors args) where
  commands _ := trivial
  beside s t hs hbeside := ⟨hbeside.driving.trans hs.driving, hs.discharged.beside hbeside⟩
  append s entries t followups hs _ _ hmeets happly := by
    obtain ⟨-, happends⟩ := applyAppended_appends happly
    refine ⟨happends.driving.trans hs.driving, ?_⟩
    rcases hs.discharged with howed | hseen
    · exact .inl (happends.owed.trans howed)
    · cases howed : s.driveOwed with
      | true => exact .inl (happends.owed.trans howed)
      | false =>
        have hkeeps : bringsUpDuty args entries s = false := (Bool.not_eq_true' _).mp hmeets
        refine .inr ?_
        simpa [bringsUpDuty, hs.driving, howed, hseen, happly] using hkeeps

theorem driving_kept : DriveKept args (keepsDuties args · · ·) fun s => s.driving = true where
  kept :=
    { commands := fun _ => trivial
      beside := fun _ _ hs hbeside => hbeside.driving.trans hs
      append := fun _ _ _ _ hs _ _ _ happly =>
        (applyAppended_appends happly).2.driving.trans hs }
  toolsets _ hs := hs

/-! ## The steps of a pass -/

/-- What a step of the drive comes to: idle, no duty is left unseen, and a session that rolls over is
ready. -/
def Resting (args : AgentSessionArgs) (outcome : DriveOutcome) (s : AgentSessionWorkflow) : Prop :=
  (outcome = .idle → Discharged args s) ∧ (outcome = .continueAsNew → s.ready = true)

theorem Ended.resting {outcome : DriveOutcome} (h : Ended args outcome s) : Resting args outcome s := by
  cases outcome with
  | idle => exact ⟨fun _ => .of_dutyAtRest h, nofun⟩
  | yieldForWorkflowWork => exact ⟨nofun, nofun⟩
  | continueAsNew => exact ⟨nofun, fun _ => h⟩

/-- How a pass leaves a session: ready when it rolls over, and else outside the drive. -/
def PassLeaves (args : AgentSessionArgs) : PassEnd → AgentSessionWorkflow → Prop
  | .continuedAsNew, s => s.ready = true
  | _, s => Outdoors args s

/-- What a program does of a session without duties asleep, from a state. -/
abbrev KeepsDuties (args : AgentSessionArgs) {α : Type} (Q : α → AgentSessionWorkflow → Prop)
    (p : SessionProgram α) (s : AgentSessionWorkflow) : Prop :=
  Keeps sessionOutside (keepsDuties args · · ·) (asleep (DutyFree args)) Q (fun _ _ => True) p s

/-- A step of the drive, past its refusals, leaves the session outside the drive. -/
theorem driveStep_leaves {step : SessionProgram DriveOutcome}
    {Q : DriveOutcome → AgentSessionWorkflow → Prop}
    (hstep : ∀ t, t.driving = true → (Discharged args s → Discharged args t) →
      Keeps sessionOutside (keepsDuties args · · ·) (asleep (DutyFree args))
        (fun outcome u => u.driving = true ∧ Q outcome u) (fun _ u => u.driving = true) step t)
    (hQ : ∀ outcome t, Ended args outcome t → Q outcome t)
    (hleave : ∀ outcome t, Q outcome t → Q outcome { t with driving := false }) :
    KeepsDuties args (fun outcome t => t.driving = false ∧ Q outcome t) (driveStep args step) s := by
  refine .bind (.act ?_)
  have hstarted := hstep { s with driving := true } rfl fun hs => hs
  refine .bind ((driving_kept.drivePastRefusals hstarted hQ).mono ?_ ?_)
  · rintro outcome t ⟨-, ht⟩
    exact .bind (.act (.done ⟨rfl, hleave outcome t ht⟩))
  · exact fun _ _ _ => trivial

theorem driveUntilIdle_resting (hs : s.driving = true) :
    Keeps sessionOutside (keepsDuties args · · ·) (asleep (DutyFree args))
      (fun outcome t => t.driving = true ∧ Resting args outcome t) (fun _ t => t.driving = true)
      (driveUntilIdle args) s :=
  (driving_kept.driveUntilIdle hs).mono (fun _ _ hu => ⟨hu.1, hu.2.resting⟩) fun _ _ hu => hu

theorem unparks_resting (hs : s.driving = true) (hdischarged : Discharged args s) :
    Keeps sessionOutside (keepsDuties args · · ·) (asleep (DutyFree args))
      (fun outcome t => t.driving = true ∧ Resting args outcome t) (fun _ t => t.driving = true)
      (processPendingToolBatchUnparks args) s := by
  refine .bind (.act ?_)
  dsimp only
  split_ifs
  · exact .done ⟨hs, fun _ => hdischarged, nofun⟩
  · have hunpark : ∀ unpark, SessionKeeps (keepsDuties args · · ·) (DutyFree args) (fun s => s.driving = true)
        (unparkToolBatch args unpark) :=
      fun unpark => .bind (driving_kept.kept.admitAndAppendCommand _) fun _ => .pure _
    have hcleared : ({ s with pendingToolBatchUnparks := [] } : AgentSessionWorkflow).driving = true := hs
    refine .bind ((Preserves.forM hunpark _ hcleared).mono ?_ fun _ _ ht => ht.1)
    exact fun _ t ht => driveUntilIdle_resting ht

/-- A rejected force leaves everything as it was. -/
theorem watchdog_resting (hs : s.driving = true) (hdischarged : Discharged args s) :
    Keeps sessionOutside (keepsDuties args · · ·) (asleep (DutyFree args))
      (fun outcome t => t.driving = true ∧ Resting args outcome t) (fun _ t => t.driving = true)
      (processCancellingWatchdog args) s := by
  refine .bind (.act ?_)
  dsimp only
  split
  · exact .done ⟨hs, fun _ => hdischarged, nofun⟩
  next runId _ =>
    refine .bind ((driving_kept.kept.command discharged_keptBeside (.forceCancelRun runId) hs
      hdischarged).mono ?_ fun _ _ ht => ht)
    rintro result t ⟨ht, hrejected⟩
    cases result with
    | rejected => exact .done ⟨ht, fun _ => hrejected rfl, nofun⟩
    | accepted =>
      have hcleared : ({ t with cancellingWatchdog := none } : AgentSessionWorkflow).driving = true := ht
      exact .bind (.act (driveUntilIdle_resting hcleared))

/-- A step of the drive that yields leaves the drive owed. -/
theorem thenWhenIdle_leaves {step : SessionProgram DriveOutcome} {next : SessionProgram PassEnd}
    (hstep : KeepsDuties args (fun outcome t => t.driving = false ∧ Resting args outcome t) step s)
    (hnext : ∀ t, Outdoors args t → KeepsDuties args (PassLeaves args) next t) :
    KeepsDuties args (PassLeaves args) (thenWhenIdle step next) s := by
  refine .bind (hstep.mono ?_ fun _ _ ht => ht)
  rintro outcome t ⟨hdriving, hidle, hready⟩
  cases outcome with
  | continueAsNew => exact .done (hready rfl)
  | yieldForWorkflowWork =>
    have howed : Outdoors args { t with driveOwed := true } := ⟨hdriving, .inl rfl⟩
    exact .bind (.act (.done howed))
  | idle => exact hnext t ⟨hdriving, hidle rfl⟩

theorem endPass_leaves (hs : Outdoors args s) :
    KeepsDuties args (PassLeaves args) (endPass args) s := by
  refine .bind (.act ?_)
  dsimp only
  split_ifs with hcomplete hrolls
  · exact .done hs
  · refine .done ?_
    unfold canContinueAsNew at hrolls
    rw [Bool.and_eq_true, Bool.and_eq_true] at hrolls
    exact ready_of_allowsContinueAsNew hrolls.1.2
  · exact .done hs

theorem finishDrive_leaves :
    KeepsDuties args (PassLeaves args) (finishDrive args) s := by
  have hstep : KeepsDuties args (fun outcome t => t.driving = false ∧ Ended args outcome t)
      (driveStep args (driveUntilIdle args)) s :=
    driveStep_leaves (fun t ht _ => driving_kept.driveUntilIdle ht) (fun _ _ ht => ht)
      fun outcome t ht => by cases outcome <;> exact ht
  refine .bind (hstep.mono ?_ fun _ _ ht => ht)
  rintro outcome t ⟨hdriving, hended⟩
  cases outcome with
  | continueAsNew => exact .done hended
  | yieldForWorkflowWork =>
    have howed : Outdoors args { t with driveOwed := true } := ⟨hdriving, .inl rfl⟩
    exact .bind (.act (endPass_leaves howed))
  | idle =>
    have hrested : Outdoors args { t with driveOwed := false } := ⟨hdriving, .of_dutyAtRest hended⟩
    exact .bind (.act (endPass_leaves hrested))

/-! ## A pass -/

theorem outdoors_unpark (s : AgentSessionWorkflow) (command : UnparkToolBatchCommand)
    (hs : Outdoors args s) :
    Outdoors args { s with pendingToolBatchUnparks := s.pendingToolBatchUnparks ++ [command] } :=
  ⟨hs.driving, hs.discharged⟩

/-- The loop goes to sleep only when it owes the drive nothing and the state needs none. -/
theorem waitForWorkflowWork_keeps (hs : Outdoors args s) :
    KeepsDuties args (fun _ => Outdoors args) waitForWorkflowWork s := by
  refine .bind (.act ?_)
  dsimp only
  split_ifs with hawake
  · exact .done hs
  · have hnotOwed : s.driveOwed = false := by
      by_contra howed
      exact hawake (.inl (Bool.not_eq_false _ ▸ howed))
    refine .wait (SessionRequest.workflowWork (nearestWake s)) (fun t => Outdoors args t ∧ t.driveOwed = false)
      ⟨hs, hnotOwed⟩ ?_ ?_ ?_
    · rintro t signal u ⟨ht, howed⟩ hreceive
      have hbeside := receive_beside hreceive
      exact ⟨outdoors_kept.beside t u ht hbeside, hbeside.owed.trans howed⟩
    · rintro t ⟨ht, howed⟩ hquiet
      have hseen : unseenDuty args t = false :=
        ht.discharged.resolve_left fun howed' => by rw [howed] at howed'; cases howed'
      have hneeds : needsCoreDrive t = false := by
        unfold stateHasImmediateWork at hquiet
        exact (Bool.or_eq_false_iff.mp hquiet).2
      unfold unseenDuty at hseen
      rw [hneeds] at hseen
      simpa using hseen
    · exact fun t _ ht _ _ => ht.1

theorem admitAndDrive_leaves (hs : Outdoors args s) :
    KeepsDuties args (PassLeaves args) (admitAndDrive args) s := by
  refine .bind ((outdoors_kept.drainPendingAdmissions s hs).mono ?_ fun _ _ _ => trivial)
  intro _ t ht
  refine .bind (.act ?_)
  dsimp only
  split_ifs
  · exact finishDrive_leaves
  · exact endPass_leaves ht

theorem pass_leaves (hs : Outdoors args s) : KeepsDuties args (PassLeaves args) (pass args) s := by
  refine .bind ((outdoors_kept.prepareInitialSession s hs).mono ?_ fun _ _ _ => trivial)
  intro _ t ht
  refine .bind (.act ?_)
  dsimp only
  split_ifs
  · exact .done ht
  · have hreconciled := outdoors_kept.beside t _ ht (reconciled_beside t t.nowMs)
    refine .bind (.act (.bind ((waitForWorkflowWork_keeps hreconciled).mono ?_ fun _ _ hu => hu)))
    intro _ u hu
    refine .bind ((outdoors_kept.serve outdoors_unpark u hu).mono ?_ fun _ _ _ => trivial)
    intro _ v hv
    have hunparks : KeepsDuties args (fun outcome w => w.driving = false ∧ Resting args outcome w)
        (driveStep args (processPendingToolBatchUnparks args)) v :=
      driveStep_leaves (fun w hw hdischarged => unparks_resting hw (hdischarged hv.discharged))
        (fun _ _ hw => hw.resting) fun _ _ hw => hw
    refine thenWhenIdle_leaves hunparks fun w hw => ?_
    have hwatchdog : KeepsDuties args (fun outcome x => x.driving = false ∧ Resting args outcome x)
        (driveStep args (processCancellingWatchdog args)) w :=
      driveStep_leaves (fun x hx hdischarged => watchdog_resting hx (hdischarged hw.discharged))
        (fun _ _ hx => hx.resting) fun _ _ hx => hx
    exact thenWhenIdle_leaves hwatchdog fun x hx => admitAndDrive_leaves hx

/-! ## A run -/

/-- A session that continues as new owes the drive a pass. -/
theorem loopRound_keeps (hs : Outdoors args s) :
    KeepsDuties args (afterRound (fun (_ : Unit) => Outdoors args) fun (_ : Unit) _ => True)
      (loopRound args) s := by
  refine .bind ((pass_leaves hs).mono ?_ fun _ _ ht => ht)
  intro passEnd t ht
  cases passEnd with
  | again => exact .done ht
  | continuedAsNew =>
    have hcontinued : Outdoors args t.continuation := ⟨rfl, .inl ht⟩
    exact .bind (.act (.done hcontinued))
  | completed => exact .done trivial

theorem sessionLoop_keeps (hs : Outdoors args s) :
    KeepsDuties args (fun _ _ => True) (sessionLoop args) s :=
  .loop (fun _ => Outdoors args) (fun _ _ ht => loopRound_keeps ht) hs

theorem startState_outdoors {core : CoreAgentState} (h : Starts args core) (nowMs : Nat) :
    Outdoors args (startState args core nowMs) := by
  refine ⟨rfl, ?_⟩
  cases hrestart : args.restart with
  | true => exact .inl hrestart
  | false =>
    rw [h.new hrestart]
    refine .of_dutyAtRest (dutyAtRest_eq_false.mpr ⟨?_, fun _ run hrun => ?_⟩)
    · simp [shouldCloseOnTerminal, startState, CoreAgentState.new]
    · simp [startState, CoreAgentState.new] at hrun

theorem run_keeps (hs : Outdoors args s) : KeepsDuties args (fun _ _ => True) (run args) s := by
  unfold run
  split_ifs
  · refine .bind ((outdoors_kept.recoverInterruptedWork s hs).mono ?_ fun _ _ _ => trivial)
    exact fun _ t ht => sessionLoop_keeps ht
  · refine .bind ((outdoors_kept.openNewSession s hs).mono ?_ fun _ _ _ => trivial)
    exact fun _ t ht => sessionLoop_keeps ht

/-- A session does not sleep on what a drive at rest would do. In every run of the session loop in which no
append outside the drive, while no pass of the drive is owed, brings up a duty that the drive does not see:
whenever the loop sleeps and no predicate wakes it, the session does not want to close, and with
`auto_reject_approvals` no approval is pending. -/
theorem asleep_without_duty
    {steps : List (Config AgentSessionWorkflow SessionRequest SessionReply SessionError Unit ×
      Input SessionRequest SessionReply SessionSignal)}
    {c : Config AgentSessionWorkflow SessionRequest SessionReply SessionError Unit}
    (hrun : (session args).Run steps c)
    (hmeets : ∀ step ∈ steps, StepMeets (keepsDuties args · · ·) step.1 step.2) {deadlineMs : Option Nat}
    (hasleep : c.1.waiting = some (.workflowWork deadlineMs))
    (hquiet : stateHasImmediateWork c.2 = false) :
    shouldCloseOnTerminal args c.2.coreState = false ∧
      (args.autoRejectApprovals = true →
        ∀ run, c.2.coreState.runs.active = some run → run.pendingApprovals = []) := by
  have hstands : Stands (asleep (DutyFree args)) (fun _ _ => True) (fun _ _ => True) c := by
    refine Keeps.run (fun s hs => ?_) hrun hmeets
    obtain ⟨core, nowMs, hstarts, rfl⟩ := hs
    exact run_keeps (startState_outdoors hstarts nowMs)
  exact dutyAtRest_eq_false.mp (hstands.waits _ hasleep hquiet)

/-! ## A session with a detached promise -/

/-- A tool that delegates a task to a workflow, and promises its reply. -/
def delegateTool : ToolSpec where
  id := "delegate"
  kind := .function { inputSchemaRef := ⟨"schema"⟩ }

def delegateDeclaration : WorkflowToolDeclaration where
  definition :=
    { workflowToolId := "delegate", schemaRevision := 1, semanticType := "acme.delegate.v1"
      tool := delegateTool }
  target := .bound ⟨"receiver", "acme.delegate"⟩ .push
  completion := .promises none none 1 .reply

/-- The fingerprint of its binding. -/
def delegateFingerprint : String :=
  match delegateDeclaration.toBinding "universe" with
  | .ok binding => binding.bindingFingerprint
  | .error error => error.message

def delegatedPromise : PromiseId := ⟨1, one_lt_u64Bound⟩

def delegation : WorkflowToolInvocation where
  invocationId := invocationIdForCall "universe" "session" 1 1 1 "call" delegateFingerprint
  workflowToolId := "delegate"
  semanticType := "acme.delegate.v1"
  schemaRevision := 1
  bindingFingerprint := delegateFingerprint
  sessionUniverseId := "universe"
  sessionId := "session"
  runId := 1
  turnId := 1
  toolBatchId := 1
  toolCallId := "call"
  argumentsRef := ⟨"task"⟩
  completionPromises := some (OrdMap.ofList [(replyCompletionKey, delegatedPromise)])

/-- The answer of a model that delegates a task, and calls a tool that detaches the promise. -/
def delegatingCalls : LlmGenerationResult where
  runId := 1
  turnId := 1
  status := .succeeded
  facts :=
    { finish := .toolCalls
      toolCalls :=
        [{ callId := "call", toolId := some "delegate", toolName := "delegate"
           argumentsRef := ⟨"task"⟩ },
          { callId := "detach", toolId := some "read_file", toolName := "read_file"
            argumentsRef := ⟨"promise"⟩ }] }
  contextEntries :=
    [{ kind := .toolCall "call" "delegate", content := { contentRef := ⟨"task"⟩ } },
      { kind := .toolCall "detach" "read_file", content := { contentRef := ⟨"promise"⟩ } }]

/-- The result of a call, with its effects. -/
def callResult (callId : ToolCallId) (effects : List ToolEffect) : ToolCallResult where
  callId := callId
  status := .succeeded
  outputRef := some ⟨"output"⟩
  modelVisibleContextEntries := [toolResultContextEntry callId .succeeded ⟨"output"⟩]
  effects := effects

/-- A session that closes by itself. -/
def unattended : AgentSessionArgs where
  sessionId := "session"
  sessionConfig := sampleConfig
  workflowTools := some ("universe", { version := 1, tools := [delegateDeclaration] })
  closeOnTerminal := true
  autoRejectApprovals := true
  sources := { entryIsObsolete := fun _ _ _ => false, invalidKeys := [] }

/-- The tools that its preparation finds. -/
def delegateTools : SessionToolsetPreparation where
  isCurrent _ := true
  commands := [fun core =>
    if core.tooling.tools.contains "read_file" then none
    else some (.replaceTools none
      (OrdMap.ofList [("delegate", delegateTool), ("read_file", sampleReadTool)]))]
  inputLimitTokens := none

/-- An outside that stores, delivers and prepares, with what an effect brings. -/
def obliging (effect : EffectReply) : (request : SessionRequest) → SessionReply request
  | .workflowWork _ | .signalCancellation _ | .cancelWorkflowToolExecution _ => ()
  | .appendEvents _ => .stored
  | .putBlob => some ⟨"blob"⟩
  | .deliverEmission _ => true
  | .validateWorkflowToolReply _ _ _ => .valid
  | .startWorkflowToolExecution _ _ => .started
  | .materializeAwaitResult _ | .prepareJoinedContext _ => none
  | .checkWorkflowToolExecution _ _ => .pending
  | .preparePromiseControls => .ok ()
  | .observe _ => .prepared delegateTools fun _ => false
  | .effect _ => effect

/-- The session advances so many times, to each request in turn, and is obliged. -/
def oblige (effect : EffectReply) (advances : List Nat) :
    List (Input SessionRequest SessionReply SessionSignal) :=
  advances.flatMap fun n => List.replicate n .advance ++ [.answer (obliging effect)]

/-- What reaches the session, once it has advanced so many times and sleeps, wakes it. -/
def wake (advances : Nat) (signal : SessionSignal) :
    List (Input SessionRequest SessionReply SessionSignal) :=
  List.replicate advances .advance ++ [.signal signal, .answer (obliging .over)]

/-- A session is opened and prepared, runs, delegates a task, detaches the promise of its reply, and sleeps
when the run is over. -/
def untilDelegated : List (Input SessionRequest SessionReply SessionSignal) :=
  oblige .over [0, 3, 13, 19, 10, 9] ++
    wake 18 (.submitAdmissions [.requestRun { source := ⟨[sampleMessage]⟩ }]) ++
    wake 97 (.runPrepared (some delegateTools)) ++
    oblige .over [85, 9, 43, 30, 30, 27, 27] ++
    oblige (.resume (.resumeGeneration delegatingCalls)) [28] ++ oblige .over [3, 31, 27] ++
    oblige (.resume (.resumeToolCall 1 (callResult "call" [.workflowInvoke delegation (.ok none)])))
      [28] ++ oblige .over [3] ++
    oblige (.resume (.resumeToolCall 1 (callResult "detach" [.promiseDetach delegatedPromise]))) [12] ++
    oblige .over [3, 12, 51, 79, 30, 27, 27] ++
    oblige (.resume (.resumeGeneration
      { runId := 1, turnId := 2, status := .succeeded, facts := { finish := .stop }
        contextEntries := [sampleAnswer] })) [28] ++
    oblige .over [3, 34] ++ List.replicate 62 .advance

/-- The workflow cancels the promise, and the session sleeps again. -/
def untilCancelled : List (Input SessionRequest SessionReply SessionSignal) :=
  wake 0 (.deliverEmission ⟨delegatedPromise, .cancelled, "receiver"⟩) ++ oblige .over [80, 62] ++
    List.replicate 59 .advance

/-- Whether a session sleeps, without a time to wake at. -/
def sleepsForGood (c : Config AgentSessionWorkflow SessionRequest SessionReply SessionError Unit) : Bool :=
  c.1.waiting.any fun
    | .workflowWork none => true
    | _ => false

theorem waiting_of_sleepsForGood
    {c : Config AgentSessionWorkflow SessionRequest SessionReply SessionError Unit}
    (h : sleepsForGood c = true) : c.1.waiting = some (.workflowWork none) := by
  unfold sleepsForGood at h
  cases hwaits : c.1.waiting with
  | none =>
    rw [hwaits] at h
    cases h
  | some request =>
    rw [hwaits, Option.any_some] at h
    split at h
    · rfl
    · cases h

theorem unattended_starts : Starts unattended .new :=
  ⟨⟨[], .init⟩, fun _ => rfl, nofun⟩

/-- Once the promise is cancelled, the session should close, and sleeps. -/
theorem asleep_with_duty : ∃ steps c, (session unattended).Run steps c ∧
    c.1.waiting = some (.workflowWork none) ∧ stateHasImmediateWork c.2 = false ∧
      shouldCloseOnTerminal unattended c.2.coreState = true := by
  let start := (run unattended, startState unattended .new 20)
  obtain ⟨c, hexec, hsleeps, hquiet, hclose⟩ :
      ∃ c ∈ (session unattended).exec start (untilDelegated ++ untilCancelled),
        sleepsForGood c = true ∧ stateHasImmediateWork c.2 = false ∧
          shouldCloseOnTerminal unattended c.2.coreState = true := by decide +kernel
  obtain ⟨steps, hrun⟩ := Machine.exec_reaches (m := session unattended)
    ⟨rfl, .new, 20, unattended_starts, rfl⟩ hexec
  exact ⟨steps, c, hrun, waiting_of_sleepsForGood hsleeps, hquiet, hclose⟩

/-- Before that, the session sleeps without a duty. -/
theorem asleep_without_duty_delegated : ∃ steps c, (session unattended).Run steps c ∧
    c.1.waiting = some (.workflowWork none) ∧ stateHasImmediateWork c.2 = false ∧
      shouldCloseOnTerminal unattended c.2.coreState = false := by
  let start := (run unattended, startState unattended .new 20)
  obtain ⟨⟨steps, c⟩, htrace, hsleeps, hquiet, hmeets⟩ :
      ∃ traced ∈ (session unattended).trace start untilDelegated,
        sleepsForGood traced.2 = true ∧ stateHasImmediateWork traced.2.2 = false ∧
          ∀ step ∈ traced.1, StepMeets (keepsDuties unattended · · ·) step.1 step.2 := by
    decide +kernel
  have hrun := (Machine.Run.init (m := session unattended)
    ⟨rfl, .new, 20, unattended_starts, rfl⟩).trace htrace
  rw [List.nil_append] at hrun
  have hwaits := waiting_of_sleepsForGood hsleeps
  exact ⟨steps, c, hrun, hwaits, hquiet, (asleep_without_duty hrun hmeets hwaits hquiet).1⟩

end Lightspeed.Session
