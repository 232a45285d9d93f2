import Lightspeed.Harness.Frames

/-!
# The invariant of a session

`Warrant` is what the proposer of an event knew of the state that the event is applied to. `Inv` is what
holds of the state between any two events, and `inv_step` that every warranted event keeps it: the
reducer alone would also accept events that no planner and no entry point proposes.
-/

namespace Lightspeed.Harness

open Lib

/-! ## Warrants -/

/-- What holds of the active run, if there is one. -/
def CoreAgentState.ForActive (s : CoreAgentState) (P : ActiveRun → Prop) : Prop :=
  ∀ run, s.runs.active = some run → P run

/-- The run of a run event. -/
def RunEvent.runId : RunEvent → RunId
  | .accepted event => event.runId
  | .started runId | .steeringAccepted runId _ _ _ | .cancellationRequested runId
  | .completed runId _ | .failed runId _ | .cancelled runId | .forceCancelled runId
  | .queuedCancelled runId => runId

/-- The run that an event is written under in the log, for the events that a run's record is read
from. -/
def CoreAgentEvent.ownRun : CoreAgentEvent → Option RunId
  | .run event => some event.runId
  | .turn (.generationCompleted _ runId _ _) => some runId
  | _ => none

/-- `FailRun` of the active run. -/
def FailsRun (base : CoreAgentState) (input : DriveInput) (runId : RunId) : Prop :=
  ∃ run messageRef, base.runs.active = some run ∧ run.runId = runId ∧
    input = .admitCommand (.failRun runId messageRef)

/-- The failure of a compaction that was to make room for the active run. -/
def OverflowFails (base : CoreAgentState) (input : DriveInput) : Prop :=
  ∃ result plan, input = .resumeContextCompaction result ∧ result.status = .failed ∧
    base.context.compaction.pendingPlan = some plan ∧ plan.trigger = .contextLimit

/-- Why a run may fail: its planner gave it up, the host did, or the compaction that it needed
failed. -/
def FailureCause (base : CoreAgentState) (input : DriveInput) (runId : RunId) (run : ActiveRun) :
    Prop :=
  (run.status = .running ∧ input = .nextAction) ∨ FailsRun base input runId ∨
    ∃ origin, base.runs.active = some origin ∧ origin.status = run.status ∧
      OverflowFails base input

/-- `ForceCancelRun` of an active run that still waits on approvals. -/
def ForceCancelsPending (base : CoreAgentState) (input : DriveInput) : Prop :=
  ∃ run, base.runs.active = some run ∧ input = .admitCommand (.forceCancelRun run.runId) ∧
    run.pendingApprovals ≠ []

/-- A planning step of a run with a turn whose calls await their batch. -/
def StartsBatch (base : CoreAgentState) (input : DriveInput) : Prop :=
  input = .nextAction ∧ ∃ run turnId turn, base.runs.active = some run ∧
    run.turns.get? turnId = some turn ∧ awaitsBatch run turnId turn = true

/-- What the proposer of an event knew, when it answered `input` in the state `base`, of the state `s`
that the event is applied to. -/
def Knew (base : CoreAgentState) (input : DriveInput) (s : CoreAgentState) : CoreAgentEvent → Prop
  | .run (.accepted accepted) =>
    (∀ id, accepted.submissionId = some id → id ∉ s.runs.submissionIds) ∧
      ∀ input ∈ accepted.source.input, input.kind.isSupplied = true
  | .run (.started _) => s.context.compaction.isPending = false
  | .run (.steeringAccepted _ _ _ entries) => ∀ entry ∈ entries, entry.kind.isSupplied = true
  | .run (.completed _ _) => s.ForActive fun run =>
    run.status = .running ∧ run.AtBoundary ∧ hasUnconsumedSteering run = false ∧
      run.pendingApprovals = []
  | .run (.failed runId _) => s.ForActive fun run =>
    FailureCause base input runId run ∧ run.pendingApprovals = []
  | .run (.cancelled _) => s.ForActive fun run => run.AtBoundary ∧ run.pendingApprovals = []
  | .run (.forceCancelled _) => s.ForActive fun run =>
    run.pendingApprovals = [] ∨ ForceCancelsPending base input
  | .turn (.started _ _) => s.context.compaction.isPending = false ∧ s.ForActive fun run =>
    run.AtBoundary ∧ run.pendingApprovals = []
  | .turn (.completed turnId outcome) => outcome = .toolCallsQueued → s.ForActive fun run =>
    ∀ turn, run.turns.get? turnId = some turn → ∃ facts, turn.facts = some facts ∧
      facts.toolCalls ≠ [] ∧ (facts.toolCalls.map ObservedToolCall.callId).Nodup
  | .approval (.requested _) => s.ForActive fun run =>
    run.activeTurnId ≠ none ∨ run.activeToolBatchId ≠ none
  | .approval (.runUnparked _) => s.ForActive fun run => run.parkedToolBatch = none
  | .context (.compactionRequested _ trigger _) =>
    trigger = .contextLimit → s.ForActive fun run => run.pendingApprovals = []
  | .tool (.batchStarted _ _ _ _ _) => s = base ∧ StartsBatch base input
  | .tool (.batchParked _ _ _ (.awaitTool _ spec)) => spec.promiseIds ≠ [] ∧
    ∀ id ∈ spec.promiseIds, s.promises.promises.contains id = true
  | .tool (.batchUnparked runId _ batchId) =>
    ∀ scope ∈ s.codeTools.scopes.values, scope.holdsUp s runId batchId = false
  | .toolConfig _ => toolsFrozen s = false
  | .workflowTool (.invoked invocation) | .workflowTool (.startRequested invocation _) =>
    s.ForActive fun run => run.activeToolBatchId = some invocation.toolBatchId
  | .codeTool (.callAdmitted call _) => validateCall s call = .ok ()
  | _ => True

/-- A warranted entry: it is joined to its run, and its proposer knew what it had to know. -/
structure Warrant (base : CoreAgentState) (input : DriveInput) (s : CoreAgentState)
    (entry : CoreAgentEntry) : Prop where
  joined : ∀ runId, entry.event.ownRun = some runId → entry.joins.runId = some runId
  knew : Knew base input s entry.event

/-! ## The invariant -/

/-- A compaction that is pending holds up the run that asked for it at a boundary. -/
structure CompactionInv (s : CoreAgentState) : Prop where
  boundary : s.context.compaction.isPending = true → s.ForActive ActiveRun.AtBoundary
  owner : ∀ plan, s.context.compaction.pendingPlan = some plan →
    s.ForActive fun run => plan.runId = some run.runId
  overflow : ∀ plan, s.context.compaction.pendingPlan = some plan → plan.trigger = .contextLimit →
    s.ForActive fun run => run.pendingApprovals = [] ∧ run.status ≠ .parked

/-- A code call that is open waits under the batch that the active run is parked on. -/
def CodeInv (s : CoreAgentState) : Prop :=
  ∀ scope ∈ s.codeTools.scopes.values, ∀ call ∈ scope.calls.values,
    call.status.isTerminal = false → ∃ parent run parked, codeToolParent s scope.spec = .ok parent ∧
      s.runs.active = some run ∧ run.runId = parent.runId ∧ run.parkedToolBatch = some parked ∧
      parked.batchId = parent.toolBatchId

/-- The invariant of a session. -/
structure Inv (s : CoreAgentState) : Prop where
  run : s.ForActive (RunInv s.idCursors s.tooling.revision)
  queued : ∀ queued ∈ s.runs.queued, ∀ input ∈ queued.source.input, input.kind.isSupplied = true
  idle : s.lifecycle.status ≠ .open → s.runs.active = none ∧ s.runs.queued = []
  config : s.lifecycle.status = .open → s.lifecycle.config.isSome = true
  entries : EntriesInv s
  compaction : CompactionInv s
  code : CodeInv s

theorem inv_init : Inv CoreAgentState.new where
  run := by rintro run ⟨⟩
  queued := by rintro queued ⟨⟩
  idle := fun _ => ⟨rfl, rfl⟩
  config := by rintro ⟨⟩
  entries := ⟨.nil, by rintro entry ⟨⟩⟩
  compaction := ⟨by rintro ⟨⟩, by rintro plan ⟨⟩, by rintro plan ⟨⟩⟩
  code := by rintro scope ⟨⟩

variable {base s t : CoreAgentState} {input : DriveInput} {entry : CoreAgentEntry} {ms seq : Nat}
  {event : ApprovalEvent} {κ α : Type}

/-! ## The active run -/

theorem toolsFrozen_eq_false (h : toolsFrozen s = false) : s.ForActive ActiveRun.AtBoundary := by
  intro run hactive
  simp only [toolsFrozen, hactive, Option.any_some, Bool.or_eq_false_iff,
    Option.isSome_eq_false_iff, Option.isNone_iff_eq_none] at h
  exact ⟨h.1.1, h.1.2, h.2⟩

theorem forActive_setActive {run : ActiveRun} {P : ActiveRun → Prop} :
    (s.setActive run).ForActive P ↔ P run := by
  constructor
  · exact fun h => h run rfl
  · rintro h _ ⟨⟩
    exact h

theorem runInv_run {event : RunEvent} (h : Inv s) (happly : applyRunEvent s seq ms event = .ok t) :
    t.ForActive (RunInv t.idCursors t.tooling.revision) := by
  cases applyRunEvent_moves happly with
  | queues hqueues hactive ht =>
    intro run hrun
    rw [hactive] at hrun
    rw [ht]
    exact (h.run run hrun).mono ⟨le_rfl, le_rfl, le_rfl⟩
  | starts hfree hqueue =>
    rintro run ⟨⟩
    exact .start (h.queued _ (hqueue ▸ List.mem_cons_self))
  | @steers run steeringId submissionId input hactive hid =>
    rintro run' ⟨⟩
    let batch : SteeringBatch := { steeringId, submissionId, input }
    have hbatch : batch.steeringId = s.idCursors.lastSteeringId + 1 := hid
    exact (h.run run hactive).steer hbatch
  | stops hactive =>
    exact forActive_setActive.mpr ((h.run _ hactive).withStatus (.inr (.inr rfl)))
  | ends => rintro run' ⟨⟩

theorem runInv_approval (h : Inv s) (happly : applyApprovalEvent s ms event = .ok t) :
    t.ForActive (RunInv t.idCursors t.tooling.revision) := by
  cases event with
  | requested approval =>
    obtain ⟨run, hactive, hrun, -, -, -, rfl⟩ := approvalRequested_eq_ok.mp happly
    rintro run' ⟨⟩
    let record : ApprovalRecord :=
      { request := approval, requestedAtMs := ms, status := .pending }
    have hrecord : record.request.runId = run.runId := hrun.symm
    exact ((h.run run hactive).insertApproval hrecord).mono ⟨le_rfl, le_rfl, le_rfl⟩
  | runParked runId =>
    obtain ⟨run, hactive, -, -, -, -, -, rfl⟩ := runParked_eq_ok.mp happly
    exact forActive_setActive.mpr ((h.run run hactive).withStatus (.inr (.inl rfl)))
  | runUnparked runId =>
    obtain ⟨run, hactive, -, -, rfl⟩ := runUnparked_eq_ok.mp happly
    exact forActive_setActive.mpr ((h.run run hactive).withStatus (.inl rfl))
  | decided id runId decision note =>
    obtain ⟨run, record, hactive, rfl, hget, hrecord, -, rfl⟩ := decided_eq_ok.mp happly
    have hid := ((h.run run hactive).approvals id record hget).1
    let decided : ApprovalRecord := { record with status := decision.status, note }
    have hdecided : decided.request.runId = run.runId := hrecord
    exact forActive_setActive.mpr (hid ▸ (h.run run hactive).insertApproval hdecided)
  | cancelled id runId =>
    obtain ⟨run, record, hactive, rfl, hget, hrecord, -, rfl⟩ := approvalCancelled_eq_ok.mp happly
    have hid := ((h.run run hactive).approvals id record hget).1
    let cancelled : ApprovalRecord := { record with status := .cancelled }
    have hcancelled : cancelled.request.runId = run.runId := hrecord
    exact forActive_setActive.mpr (hid ▸ (h.run run hactive).insertApproval hcancelled)

theorem markConsumed_steeringIds (run : ActiveRun) (turnId : TurnId) (ids : List ContextEntryId) :
    (markConsumed run turnId ids).steering.map SteeringBatch.steeringId =
      run.steering.map SteeringBatch.steeringId := by
  simp only [markConsumed, List.map_map]
  refine List.map_congr_left fun batch _ => ?_
  simp only [Function.comp_apply]
  split_ifs <;> rfl

theorem runInv_turn {event : TurnEvent} (h : Inv s) (hknew : Knew base input s (.turn event))
    (happly : applyTurnEvent s event = .ok t) :
    t.ForActive (RunInv t.idCursors t.tooling.revision) := by
  cases event with
  | started turnId runId =>
    obtain ⟨run, hactive, rfl, hid, -, -, rfl⟩ := turnStarted_eq_ok.mp happly
    rintro run' ⟨⟩
    exact (h.run run hactive).startTurn (hknew.2 run hactive).1 hid
  | planned turnId runId fingerprint configRevision contextRevision toolsetRevision =>
    obtain ⟨run, turn, hactive, -, hid, hget, -, -, hrevision, hstarted, -, rfl⟩ :=
      planned_eq_ok.mp happly
    obtain ⟨_, hlast, hopen⟩ := (h.run run hactive).openTurn turnId hid
    obtain rfl : turn = _ := Option.some.inj (hget.symm.trans (OrdMap.get?_of_last? hlast))
    refine forActive_setActive.mpr ?_
    have hmarked : RunInv s.idCursors s.tooling.revision
        (markConsumed run turnId (plannedContextEntryIds s)) :=
      { (h.run run hactive).withSteering (markConsumed_steeringIds run turnId _) with }
    refine hmarked.setOpenTurn hid ⟨rfl, nofun, fun _ => ⟨_, rfl, hrevision⟩, fun _ => ?_⟩
    exact hopen.unanswered (by simp [hstarted])
  | generationRequested turnId runId =>
    obtain ⟨run, turn, hactive, -, hid, hget, hplanned, -, rfl⟩ :=
      generationRequested_eq_ok.mp happly
    obtain ⟨_, hlast, hopen⟩ := (h.run run hactive).openTurn turnId hid
    obtain rfl : turn = _ := Option.some.inj (hget.symm.trans (OrdMap.get?_of_last? hlast))
    refine forActive_setActive.mpr ((h.run run hactive).setOpenTurn hid ?_)
    exact ⟨rfl, nofun, fun _ => hopen.planned (by simp [hplanned]),
      fun _ => hopen.unanswered (by simp [hplanned])⟩
  | generationCompleted turnId runId status facts =>
    obtain ⟨run, turn, hactive, -, hid, hget, hpending, context, -, -, -, rfl⟩ :=
      generationCompleted_ok happly
    obtain ⟨_, hlast, hopen⟩ := (h.run run hactive).openTurn turnId hid
    obtain rfl : turn = _ := Option.some.inj (hget.symm.trans (OrdMap.get?_of_last? hlast))
    refine forActive_setActive.mpr ?_
    have hturn : OpenTurn s.tooling.revision { turn with
        generationStatus := some status, facts := some facts, status := .generationSettled } :=
      ⟨rfl, nofun, fun _ => hopen.planned (by simp [hpending]), fun hne => absurd rfl hne⟩
    have hsettled := (h.run run hactive).setOpenTurn hid hturn
    unfold ActiveRun.settleTurn
    dsimp only
    split_ifs
    · exact { hsettled with }
    · exact { hsettled with }
  | completed turnId outcome =>
    obtain ⟨run, turn, hactive, hid, hget, hstatus, rfl⟩ := turnCompleted_eq_ok.mp happly
    refine forActive_setActive.mpr
      ((h.run run hactive).endTurn outcome hid hget fun houtcome => ?_).prune
    exact ⟨by simp [hstatus], hknew houtcome run hactive turn hget⟩
  | cancelled turnId runId =>
    obtain ⟨run, turn, hactive, -, -, hid, hget, -, rfl⟩ := turnCancelled_eq_ok.mp happly
    exact forActive_setActive.mpr ((h.run run hactive).endTurn .cancelled hid hget nofun)

theorem runInv_tool {event : ToolEvent} (h : Inv s) (happly : applyToolEvent s event = .ok t) :
    t.ForActive (RunInv t.idCursors t.tooling.revision) := by
  cases event with
  | batchStarted runId turnId batchId revision calls =>
    obtain ⟨run, turn, planned, facts, hactive, rfl, hget, -, hfacts, hstatus, houtcome, rfl, -,
      hunique, hid, -, -, -, hnone, -, -, hbatch, rfl⟩ := batchStarted_eq_ok.mp happly
    obtain ⟨hlast, hturn⟩ :=
      (h.run run hactive).latest_of_unstarted hget hstatus houtcome hbatch
    obtain ⟨hobserved, hcalls⟩ :=
      openBatch_calls s run.runId turnId batchId (validateEach_eq_ok.mp hunique).1
    rintro run' ⟨⟩
    have hrun : (openBatch s run.runId turnId batchId facts.toolCalls).runId = run.runId := rfl
    exact (h.run run hactive).startBatch hrun hcalls hlast hturn houtcome hfacts hobserved hnone hid
  | callStarted runId turnId batchId callId toolName argumentsRef =>
    obtain ⟨run, batch, _, calls, hactive, -, -, -, hid, -, hget, -, -, -, -, -, -, -, hcalls, rfl⟩ :=
      callStarted_eq_ok.mp happly
    obtain ⟨_, _, _, hget', -, -, hinv, -⟩ := (h.run run hactive).openBatch batchId hid
    obtain rfl : batch = _ := Option.mem_unique hget hget'
    obtain ⟨hobserved, hcalls⟩ :=
      updateCall_inv hinv (fun call _ call' _ hstart _ => startCall_inv hstart) hcalls
    exact forActive_setActive.mpr ((h.run run hactive).updateBatch hid hget hcalls hobserved)
  | callCompleted runId turnId batchId result =>
    obtain ⟨run, batch, calls, hactive, -, hid, -, hget, -, -, hstatus, hcalls, rfl⟩ :=
      callCompleted_eq_ok.mp happly
    obtain ⟨_, _, _, hget', -, -, hinv, -⟩ := (h.run run hactive).openBatch batchId hid
    obtain rfl : batch = _ := Option.mem_unique hget hget'
    obtain ⟨hobserved, hcalls⟩ := updateCall_inv hinv
      (fun call _ call' hcallId hcomplete _ => completeCall_inv hcallId hstatus hcomplete) hcalls
    exact forActive_setActive.mpr ((h.run run hactive).updateBatch hid hget hcalls hobserved)
  | batchParked runId turnId batchId suspension =>
    obtain ⟨run, batch, hactive, -, -, -, hid, -, -, -, -, -, -, rfl⟩ := batchParked_eq_ok.mp happly
    refine forActive_setActive.mpr ((h.run run hactive).withParked (.inr (.inl rfl)) ?_)
    rintro _ ⟨⟩
    exact hid
  | batchUnparked runId turnId batchId =>
    obtain ⟨run, batch, hactive, -, -, -, -, -, -, rfl⟩ := batchUnparked_eq_ok.mp happly
    refine forActive_setActive.mpr ((h.run run hactive).withParked ?_ (by rintro _ ⟨⟩))
    split_ifs
    · exact .inl rfl
    · exact (h.run run hactive).status
  | batchCompleted runId turnId batchId =>
    obtain ⟨run, batch, results, hactive, -, hid, -, hget, -, hturn, hparked, -, rfl⟩ :=
      batchCompleted_eq_ok.mp happly
    let completed : CompletedToolBatch := ⟨batchId, runId, turnId, results⟩
    have hclosed : RunInv s.idCursors s.tooling.revision (run.closeBatch completed) :=
      (h.run run hactive).closeBatch hid hget hturn hparked
    rintro run' ⟨⟩
    exact hclosed.prune

/-- Every warranted event keeps the invariant of the active run. -/
theorem runInv_step (h : Inv s) (hw : Warrant base input s entry) (happly : applyEvent s entry = .ok t) :
    t.ForActive (RunInv t.idCursors t.tooling.revision) := by
  obtain ⟨-, m, hm, rfl⟩ := applyEvent_eq_ok.mp happly
  change m.ForActive (RunInv m.idCursors m.tooling.revision)
  have hknew := hw.knew
  unfold applyEventKind at hm
  split at hm
  next event heq => rw [applyLifecycleEvent_frame hm]; exact h.run
  next event heq => exact runInv_run h hm
  next event heq => exact runInv_approval h hm
  next event heq => exact runInv_turn h (heq ▸ hknew) hm
  next event heq =>
    have hframe := applyContextEvent_frame h.entries hm
    intro run' hactive'
    obtain ⟨run, hactive, hkept⟩ := hframe.active run' hactive'
    rw [hframe.state, hframe.cursors]
    exact ((h.run run hactive).kept hkept).mono ⟨le_rfl, le_rfl, le_rfl⟩
  next event heq => cases event <;> cases hm <;> exact h.run
  next event heq =>
    obtain ⟨-, -, rfl⟩ := toolConfig_eq_ok.mp hm
    rw [heq] at hknew
    exact fun run hactive =>
      (h.run run hactive).withRevision (toolsFrozen_eq_false hknew run hactive) _
  next event heq => exact runInv_tool h hm
  next event heq =>
    rw [applyPromiseEvent_frame hm]
    exact fun run hactive => (h.run run hactive).mono ⟨le_rfl, le_rfl, le_rfl⟩
  next event heq =>
    obtain ⟨_, rfl, -⟩ := workflowToolConfig_ok hm
    exact h.run
  next event heq =>
    rw [applyCodeToolEvent_frame hm]
    exact fun run hactive => (h.run run hactive).mono ⟨le_rfl, le_rfl, le_rfl⟩
  next event heq => rw [applyWorkflowToolEvent_frame hm]; exact h.run

/-! ## The queue and the lifecycle -/

theorem queued_step (h : Inv s) (hw : Warrant base input s entry)
    (happly : applyEvent s entry = .ok t) :
    ∀ queued ∈ t.runs.queued, ∀ input ∈ queued.source.input, input.kind.isSupplied = true := by
  by_cases hevent : entry.event.isRun = true
  swap
  · rw [(applyEvent_runsFrame h.entries (by simpa using hevent) happly).queued]
    exact h.queued
  have hknew := hw.knew
  obtain ⟨-, m, hm, rfl⟩ := applyEvent_eq_ok.mp happly
  change ∀ queued ∈ m.runs.queued, _
  cases hrun : entry.event with
  | run event =>
    rw [hrun] at hknew
    simp only [applyEventKind, hrun] at hm
    cases applyRunEvent_moves hm with
    | queues hqueues =>
      cases event with
      | accepted accepted =>
        obtain ⟨-, -, -, -, rfl⟩ := accepted_eq_ok.mp hm
        intro queued hqueued
        rcases List.mem_append.mp hqueued with hqueued | hqueued
        · exact h.queued queued hqueued
        · rw [List.mem_singleton.mp hqueued]
          exact hknew.2
      | queuedCancelled runId =>
        obtain ⟨_, -, rfl⟩ := queuedCancelled_eq_ok.mp hm
        exact fun queued hqueued => h.queued queued (List.eraseP_subset hqueued)
      | _ => cases hqueues
    | starts hfree hqueue =>
      exact fun queued hqueued => h.queued queued (hqueue ▸ List.mem_cons_of_mem _ hqueued)
    | steers | stops | ends => exact h.queued
  | _ =>
    rw [hrun] at hevent
    cases hevent

/-- A session that is not open has no runs, and takes none. -/
theorem idle_run {event : RunEvent} (h : Inv s) (happly : applyRunEvent s seq ms event = .ok t)
    (hclosed : t.lifecycle.status ≠ .open) : t.runs.active = none ∧ t.runs.queued = [] := by
  rw [applyRunEvent_frame happly] at hclosed
  obtain ⟨hactive, hqueued⟩ := h.idle hclosed
  have hrun : ∀ run, s.runs.active ≠ some run := fun run => by simp [hactive]
  cases applyRunEvent_moves happly with
  | queues hqueues =>
    cases event with
    | accepted accepted => exact absurd (accepted_eq_ok.mp happly).1 hclosed
    | queuedCancelled runId =>
      obtain ⟨queued, hfind, -⟩ := queuedCancelled_eq_ok.mp happly
      rw [hqueued] at hfind
      cases hfind
    | _ => cases hqueues
  | starts hfree hqueue =>
    rw [hqueued] at hqueue
    cases hqueue
  | steers hsome | stops hsome | ends hsome => exact absurd hsome (hrun _)

theorem lifecycle_step (h : Inv s) (happly : applyEvent s entry = .ok t) :
    (t.lifecycle.status ≠ .open → t.runs.active = none ∧ t.runs.queued = []) ∧
      (t.lifecycle.status = .open → t.lifecycle.config.isSome = true) := by
  obtain ⟨-, m, hm, heq⟩ := applyEvent_eq_ok.mp happly
  cases hkind : entry.event with
  | lifecycle event =>
    simp only [applyEventKind, hkind] at hm
    subst heq
    cases event with
    | opened config =>
      obtain ⟨-, rfl⟩ := opened_eq_ok.mp hm
      exact ⟨fun hopen => absurd rfl hopen, fun _ => rfl⟩
    | configChanged config revision =>
      obtain ⟨hopen, -, -, rfl⟩ := configChanged_eq_ok.mp hm
      exact ⟨fun hclosed => absurd hopen hclosed, fun _ => rfl⟩
    | closed =>
      obtain ⟨-, hactive, hqueued, -, rfl⟩ := closed_eq_ok.mp hm
      exact ⟨fun _ => ⟨hactive, hqueued⟩, fun hopen => by cases hopen⟩
  | run event =>
    simp only [applyEventKind, hkind] at hm
    subst heq
    have hidle : m.lifecycle.status ≠ .open → m.runs.active = none ∧ m.runs.queued = [] :=
      idle_run h hm
    refine ⟨hidle, fun hopen => ?_⟩
    change m.lifecycle.config.isSome = true
    change m.lifecycle.status = .open at hopen
    rw [applyRunEvent_frame hm] at hopen ⊢
    exact h.config hopen
  | _ =>
    have hlifecycle : t.lifecycle = s.lifecycle :=
      applyEvent_lifecycle h.entries (by rw [hkind]; rfl) happly
    have hframe := applyEvent_runsFrame h.entries (by rw [hkind]; rfl) happly
    rw [hlifecycle]
    refine ⟨fun hclosed => ?_, h.config⟩
    obtain ⟨hactive, hqueued⟩ := h.idle hclosed
    refine ⟨?_, hframe.queued.trans hqueued⟩
    cases hrun : t.runs.active with
    | none => rfl
    | some run =>
      obtain ⟨_, hsome, -⟩ := hframe.active run hrun
      rw [hactive] at hsome
      cases hsome

/-! ## Pending compactions -/

theorem isPending_of_pendingPlan {compaction : ContextCompactionState} {plan : ContextCompactionPlan}
    (h : compaction.pendingPlan = some plan) : compaction.isPending = true := by
  unfold ContextCompactionState.pendingPlan at h
  unfold ContextCompactionState.isPending
  split at h
  · rfl
  · cases h

theorem isPending_eq_false {compaction : ContextCompactionState}
    (h : compaction.pendingPlan = none) : compaction.isPending = false := by
  unfold ContextCompactionState.pendingPlan at h
  unfold ContextCompactionState.isPending
  split at h
  · cases h
  · rfl

/-- The same batches and turns, as far as a boundary goes. -/
theorem ActiveRun.Kept.atBoundary {a b : ActiveRun} (h : a.Kept b) (hidle : a.AtBoundary) :
    b.AtBoundary := by
  rw [h.run]
  exact ⟨hidle.turn, hidle.batch, hidle.started⟩

/-- A turn that queued calls and has no batch is no boundary. -/
theorem RunInv.not_atBoundary_of_unstarted {cursors : IdCursors} {revision : Nat} {run : ActiveRun}
    (h : RunInv cursors revision run) {turnId : TurnId} {turn : TurnState}
    (hget : run.turns.get? turnId = some turn) (hstatus : turn.status = .completed)
    (houtcome : turn.outcome = some .toolCallsQueued) (hbatch : run.hasBatchOf turnId = false) :
    ¬ run.AtBoundary := by
  intro hidle
  obtain ⟨hlast, hturn⟩ := h.latest_of_unstarted hget hstatus houtcome hbatch
  have hunstarted := (h.hasUnstarted_iff hturn).mpr ⟨turnId, turn, hlast, houtcome, hbatch⟩
  rw [hidle.started] at hunstarted
  cases hunstarted

/-- While a compaction is pending, no turn event and no tool event applies. -/
theorem not_pending_of_work (h : Inv s) (hw : Warrant base input s entry)
    (happly : applyEvent s entry = .ok t)
    (hevent : (∃ event, entry.event = .turn event) ∨ ∃ event, entry.event = .tool event) :
    s.context.compaction.isPending = false := by
  by_contra hpending
  rw [Bool.not_eq_false] at hpending
  have hidle := h.compaction.boundary hpending
  have hknew := hw.knew
  obtain ⟨-, m, hm, -⟩ := applyEvent_eq_ok.mp happly
  have hturn : ∀ {run : ActiveRun} {turnId : TurnId}, s.runs.active = some run →
      run.activeTurnId ≠ some turnId := fun hactive hid => by
    rw [(hidle _ hactive).turn] at hid
    cases hid
  have hbatch : ∀ {run : ActiveRun} {batchId : ToolBatchId}, s.runs.active = some run →
      run.activeToolBatchId ≠ some batchId := fun hactive hid => by
    rw [(hidle _ hactive).batch] at hid
    cases hid
  rcases hevent with ⟨event, heq⟩ | ⟨event, heq⟩ <;> simp only [applyEventKind, heq] at hm
  · rw [heq] at hknew
    cases applyTurnEvent_moves hm with
    | starts =>
      have := hknew.1
      rw [hpending] at this
      cases this
    | writes context hactive hopen | completes hactive hopen | cancels hactive hcancelling hopen =>
      exact hturn hactive hopen
  · cases applyToolEvent_moves hm with
    | parks hactive hrunning hopen hid | unparks hactive hid | completes hactive hid =>
      exact hbatch hactive hid
    | works cursor hworks =>
      cases event with
      | batchStarted runId turnId batchId revision calls =>
        obtain ⟨run, turn, _, _, hactive, -, hget, -, -, hstatus, houtcome, -, -, -, -, -, -, -, -, -,
          -, hnone, -⟩ := batchStarted_eq_ok.mp hm
        exact (h.run run hactive).not_atBoundary_of_unstarted hget hstatus houtcome hnone
          (hidle run hactive)
      | callStarted runId turnId batchId callId toolName argumentsRef =>
        obtain ⟨run, _, _, _, hactive, -, -, -, hid, -⟩ := callStarted_eq_ok.mp hm
        exact hbatch hactive hid
      | callCompleted runId turnId batchId result =>
        obtain ⟨run, _, _, hactive, -, hid, -⟩ := callCompleted_eq_ok.mp hm
        exact hbatch hactive hid
      | _ => cases hworks

/-- The compaction invariant only reads the phase and, of the active run, what holds it at a
boundary. -/
theorem CompactionInv.of_active (h : CompactionInv s)
    (hphase : t.context.compaction = s.context.compaction)
    (hactive : s.context.compaction.isPending = true → ∀ b, t.runs.active = some b →
      ∃ a, s.runs.active = some a ∧ b.runId = a.runId ∧ (a.AtBoundary → b.AtBoundary) ∧
        (a.pendingApprovals = [] → a.status ≠ .parked →
          b.pendingApprovals = [] ∧ b.status ≠ .parked)) : CompactionInv t where
  boundary := fun hpending b hb => by
    rw [hphase] at hpending
    obtain ⟨a, ha, -, hidle, -⟩ := hactive hpending b hb
    exact hidle (h.boundary hpending a ha)
  owner := fun plan hplan b hb => by
    rw [hphase] at hplan
    obtain ⟨a, ha, hrun, -⟩ := hactive (isPending_of_pendingPlan hplan) b hb
    rw [hrun]
    exact h.owner plan hplan a ha
  overflow := fun plan hplan htrigger b hb => by
    rw [hphase] at hplan
    obtain ⟨a, ha, -, -, hquiet⟩ := hactive (isPending_of_pendingPlan hplan) b hb
    obtain ⟨happrovals, hstatus⟩ := h.overflow plan hplan htrigger a ha
    exact hquiet happrovals hstatus

theorem compactionInv_run {event : RunEvent} (h : Inv s) (hknew : Knew base input s (.run event))
    (happly : applyRunEvent s seq ms event = .ok t) : CompactionInv t := by
  refine h.compaction.of_active (by rw [applyRunEvent_frame happly]) fun hpending b hb => ?_
  have hkeeps : ∀ {a b : ActiveRun}, b = { a with steering := b.steering, status := b.status } →
      a.AtBoundary → b.AtBoundary := by
    intro a b hrun hidle
    rw [hrun]
    exact ⟨hidle.turn, hidle.batch, hidle.started⟩
  cases applyRunEvent_moves happly with
  | queues hqueues hactive => exact ⟨b, hactive ▸ hb, rfl, id, fun ha hs => ⟨ha, hs⟩⟩
  | starts =>
    rw [show s.context.compaction.isPending = false from hknew] at hpending
    cases hpending
  | steers hactive =>
    cases hb
    exact ⟨_, hactive, rfl, hkeeps rfl, fun ha hs => ⟨ha, hs⟩⟩
  | stops hactive =>
    cases hb
    exact ⟨_, hactive, rfl, hkeeps rfl, fun ha _ => ⟨ha, by simp⟩⟩
  | ends => cases hb

/-- A pending record is one of the pending approvals. -/
theorem mem_pendingApprovals {run : ActiveRun} {record : ApprovalRecord} :
    record ∈ run.pendingApprovals ↔
      (∃ id, run.approvals.get? id = some record) ∧ record.status = .pending := by
  simp [ActiveRun.pendingApprovals, OrdMap.mem_values]

theorem pendingApprovals_ne_nil {run : ActiveRun} {id : ApprovalId} {record : ApprovalRecord}
    (hget : run.approvals.get? id = some record) (hstatus : record.status = .pending) :
    run.pendingApprovals ≠ [] :=
  List.ne_nil_of_mem (mem_pendingApprovals.mpr ⟨⟨id, hget⟩, hstatus⟩)

theorem compactionInv_approval (h : Inv s) (hknew : Knew base input s (.approval event))
    (happly : applyApprovalEvent s ms event = .ok t) : CompactionInv t := by
  obtain ⟨_, _, -, -, hframe⟩ := applyApprovalEvent_moves happly
  refine h.compaction.of_active (by rw [hframe]; rfl) fun hpending b hb => ?_
  have hidle := h.compaction.boundary hpending
  cases event with
  | requested approval =>
    obtain ⟨run, hactive, -, -, -, -, rfl⟩ := approvalRequested_eq_ok.mp happly
    rcases hknew run hactive with hturn | hbatch
    · exact absurd (hidle run hactive).turn hturn
    · exact absurd (hidle run hactive).batch hbatch
  | runParked runId =>
    obtain ⟨run, hactive, -, hne, -, -, -, rfl⟩ := runParked_eq_ok.mp happly
    cases hb
    exact ⟨run, hactive, rfl, fun hidle => ⟨hidle.turn, hidle.batch, hidle.started⟩,
      fun ha _ => absurd ha hne⟩
  | runUnparked runId =>
    obtain ⟨run, hactive, -, hparked, rfl⟩ := runUnparked_eq_ok.mp happly
    cases hb
    exact ⟨run, hactive, rfl, fun hidle => ⟨hidle.turn, hidle.batch, hidle.started⟩,
      fun _ hs => absurd hparked hs⟩
  | decided id runId decision note =>
    obtain ⟨run, record, hactive, -, hget, -, hstatus, rfl⟩ := decided_eq_ok.mp happly
    cases hb
    exact ⟨run, hactive, rfl, fun hidle => ⟨hidle.turn, hidle.batch, hidle.started⟩,
      fun ha _ => absurd ha (pendingApprovals_ne_nil hget hstatus)⟩
  | cancelled id runId =>
    obtain ⟨run, record, hactive, -, hget, -, hstatus, rfl⟩ := approvalCancelled_eq_ok.mp happly
    cases hb
    exact ⟨run, hactive, rfl, fun hidle => ⟨hidle.turn, hidle.batch, hidle.started⟩,
      fun ha _ => absurd ha (pendingApprovals_ne_nil hget hstatus)⟩

theorem ActiveRun.Kept.pendingApprovals {a b : ActiveRun} (h : a.Kept b) :
    b.pendingApprovals = a.pendingApprovals := by
  rw [h.run]
  rfl

theorem ActiveRun.Kept.status {a b : ActiveRun} (h : a.Kept b) : b.status = a.status := by
  rw [h.run]

/-- A context event that is not about compaction leaves the phase alone. -/
theorem compaction_of_write {event : ContextEvent} (hinv : EntriesInv s)
    (h : applyContextEvent s event = .ok t) (hevent : match event with
      | .compactionRequested _ _ _ | .compactionQueued _ | .compactionFinished _ _ _ _ _ => False
      | _ => True) :
    t.context.compaction = s.context.compaction := by
  cases event with
  | entriesApplied baseRevision entries =>
    obtain ⟨-, m, hm, rfl⟩ := entriesApplied_eq_ok.mp h
    obtain ⟨-, -, hm⟩ := applyEntriesApplied_eq_ok.mp hm
    change m.context.compaction = s.context.compaction
    rw [(applyEntries_spec hinv hm).1.context]
  | entriesRemoved baseRevision entryIds reason =>
    obtain ⟨-, -, -, -, -, rfl⟩ := entriesRemoved_eq_ok.mp h
    rfl
  | keysRemoved baseRevision keys =>
    obtain ⟨-, -, -, rfl⟩ := keysRemoved_eq_ok.mp h
    obtain ⟨entries, heq, -⟩ := removeKeys_sublist keys s
    rw [heq]
    rfl
  | keyPrefixReplaced baseRevision keyPrefix entries =>
    obtain ⟨-, -, -, m, hm, rfl⟩ := keyPrefixReplaced_eq_ok.mp h
    change m.context.compaction = s.context.compaction
    split_ifs at hm
    · cases hm
      rfl
    · obtain ⟨-, -, hm⟩ := applyEntriesApplied_eq_ok.mp hm
      rw [(applyEntries_spec (hinv.of_sublist List.filter_sublist) hm).1.context]
      rfl
  | entriesReplaced baseRevision entries =>
    obtain ⟨-, -, -, -, rfl⟩ := entriesReplaced_eq_ok.mp h
    rfl
  | compactionRequested baseRevision trigger plan => cases hevent
  | compactionQueued baseRevision => cases hevent
  | compactionFinished baseRevision status failureRef usage calls => cases hevent

theorem compactionInv_context {event : ContextEvent} (h : Inv s)
    (hknew : Knew base input s (.context event)) (happly : applyContextEvent s event = .ok t) :
    CompactionInv t := by
  have hframe := applyContextEvent_frame h.entries happly
  have hwrite : t.context.compaction = s.context.compaction → CompactionInv t := by
    intro hphase
    refine h.compaction.of_active hphase fun _ b hb => ?_
    obtain ⟨a, ha, hkept⟩ := hframe.active b hb
    exact ⟨a, ha, hkept.same.runId, hkept.atBoundary, fun happrovals hstatus =>
      ⟨hkept.pendingApprovals ▸ happrovals, hkept.status ▸ hstatus⟩⟩
  have hidle : t.context.compaction.pendingPlan = none → CompactionInv t := by
    intro hnone
    have hpending := isPending_eq_false hnone
    constructor
    · intro h
      rw [hpending] at h
      cases h
    · intro plan h
      rw [hnone] at h
      cases h
    · intro plan h
      rw [hnone] at h
      cases h
  cases event with
  | compactionRequested baseRevision trigger plan =>
    obtain ⟨-, hsafe, htrigger, hrun, -, -, heq⟩ := compactionRequested_eq_ok.mp happly
    obtain ⟨-, -, hboundary⟩ := compactionSafeBoundary_iff.mp hsafe
    have hplan : t.context.compaction.pendingPlan = some plan := by
      rw [heq]
      rfl
    refine ⟨fun _ b hb => ?_, fun plan' hplan' b hb => ?_, fun plan' hplan' hlimit b hb => ?_⟩
    · obtain ⟨a, ha, hkept⟩ := hframe.active b hb
      exact hkept.atBoundary (hboundary a ha).2
    · obtain rfl : plan = plan' := Option.mem_unique hplan hplan'
      obtain ⟨a, ha, hkept⟩ := hframe.active b hb
      rw [hrun, ha, Option.map_some, hkept.same.runId]
    · obtain rfl : plan = plan' := Option.mem_unique hplan hplan'
      obtain ⟨a, ha, hkept⟩ := hframe.active b hb
      rw [hkept.pendingApprovals, hkept.status, (hboundary a ha).1]
      exact ⟨hknew (htrigger ▸ hlimit) a ha, by simp⟩
  | compactionQueued baseRevision =>
    obtain ⟨-, -, -, heq⟩ := compactionQueued_eq_ok.mp happly
    exact hidle (by rw [heq]; rfl)
  | compactionFinished baseRevision status failureRef usage calls =>
    obtain ⟨-, -, -, heq⟩ := compactionFinished_eq_ok.mp happly
    exact hidle (by rw [heq]; rfl)
  | _ => exact hwrite (compaction_of_write h.entries happly trivial)

theorem compactionInv_step (h : Inv s) (hw : Warrant base input s entry)
    (happly : applyEvent s entry = .ok t) : CompactionInv t := by
  have hknew := hw.knew
  obtain ⟨-, m, hm, rfl⟩ := applyEvent_eq_ok.mp happly
  suffices hinv : CompactionInv m from ⟨hinv.boundary, hinv.owner, hinv.overflow⟩
  have hworks : ∀ hwork, CompactionInv m := fun hwork => by
    have hnot := not_pending_of_work h hw happly hwork
    have hcontext : entry.event.isContext = false := by
      rcases hwork with ⟨event, heq⟩ | ⟨event, heq⟩ <;> rw [heq] <;> rfl
    refine h.compaction.of_active (applyEvent_sameContext hcontext happly).compaction ?_
    exact fun hpending => by rw [hnot] at hpending; cases hpending
  cases applyEventKind_moves hm with
  | run heq hm => exact compactionInv_run h (heq ▸ hknew) hm
  | approval heq hm => exact compactionInv_approval h (heq ▸ hknew) hm
  | context heq hm => exact compactionInv_context h (heq ▸ hknew) hm
  | turn heq => exact hworks (.inl ⟨_, heq⟩)
  | tool heq => exact hworks (.inr ⟨_, heq⟩)
  | rests hspares hruns hcontext =>
    refine h.compaction.of_active (by rw [hcontext]) fun _ b hb => ?_
    exact ⟨b, hruns ▸ hb, rfl, id, fun ha hs => ⟨ha, hs⟩⟩

/-! ## Code calls -/

/-- The code invariant reads the scopes, the invocations, and where the active run is parked. -/
theorem CodeInv.of_same (h : CodeInv s) (hscopes : t.codeTools = s.codeTools)
    (hbound : t.workflowTools.boundInvocations = s.workflowTools.boundInvocations)
    (hstart : t.workflowTools.startRequests = s.workflowTools.startRequests)
    (hactive : ∀ a, s.runs.active = some a → ∃ b, t.runs.active = some b ∧ b.runId = a.runId ∧
      b.parkedToolBatch = a.parkedToolBatch) : CodeInv t := by
  intro scope hscope call hcall hopen
  rw [hscopes] at hscope
  obtain ⟨parent, run, parked, hparent, hrun, hid, hparked, hbatch⟩ :=
    h scope hscope call hcall hopen
  obtain ⟨run', hrun', hid', hparked'⟩ := hactive run hrun
  refine ⟨parent, run', parked, ?_, hrun', hid'.trans hid, hparked'.trans hparked, hbatch⟩
  rw [codeToolParent, hbound, hstart]
  exact hparent

/-- A session whose active run is not parked on a batch has no open code call. -/
theorem CodeInv.none_open (h : CodeInv s)
    (hparked : s.ForActive fun run => run.parkedToolBatch = none) :
    ∀ scope ∈ s.codeTools.scopes.values, ∀ call ∈ scope.calls.values,
      call.status.isTerminal = true := by
  intro scope hscope call hcall
  by_contra hopen
  obtain ⟨_, run, parked, -, hrun, -, hpark, -⟩ := h scope hscope call hcall (by simpa using hopen)
  rw [hparked run hrun] at hpark
  cases hpark

/-- Where no code call is open, there is nothing to say. -/
theorem CodeInv.of_none_open (h : ∀ scope ∈ t.codeTools.scopes.values, ∀ call ∈ scope.calls.values,
    call.status.isTerminal = true) : CodeInv t := by
  intro scope hscope call hcall hopen
  rw [h scope hscope call hcall] at hopen
  cases hopen

theorem values_filter_subset [LinearOrder κ] {m : OrdMap κ α} {p : κ → α → Bool} {a : α}
    (h : a ∈ (m.filter p).values) : a ∈ m.values := by
  obtain ⟨k, hk⟩ := OrdMap.mem_values.mp h
  rw [OrdMap.get?_filter, Option.filter_eq_some_iff] at hk
  exact OrdMap.mem_values.mpr ⟨k, hk.1⟩

/-- The calls of a run that ends are interrupted. -/
theorem interruptCodeToolsForRun_terminal {run : ActiveRun} (h : CodeInv s)
    (hactive : s.runs.active = some run) :
    ∀ scope ∈ (interruptCodeToolsForRun s run.runId).codeTools.scopes.values,
      ∀ call ∈ scope.calls.values, call.status.isTerminal = true := by
  intro scope hscope call hcall
  obtain ⟨id, hget⟩ := OrdMap.mem_values.mp hscope
  simp only [interruptCodeToolsForRun, CoreAgentState.setScopes, OrdMap.get?_mapValues,
    Option.map_eq_some_iff] at hget
  obtain ⟨old, hold, heq⟩ := hget
  have hmem : old ∈ s.codeTools.scopes.values := OrdMap.mem_values.mpr ⟨id, hold⟩
  -- A scope that was left alone had no open call: its parent's run would be the active one.
  have hkeep : scope = old → (∀ parent, codeToolParent s old.spec = .ok parent →
      parent.runId ≠ run.runId) → call.status.isTerminal = true := by
    rintro rfl hother
    by_contra hopen
    obtain ⟨parent, run', _, hparent, hrun', hid, -⟩ :=
      h scope hmem call hcall (by simpa using hopen)
    obtain rfl : run = run' := Option.mem_unique hactive hrun'
    exact hother parent hparent hid.symm
  cases hparent : codeToolParent s old.spec with
  | error e =>
    rw [hparent] at heq
    exact hkeep heq.symm fun parent hok => by rw [hparent] at hok; cases hok
  | ok parent =>
    rw [hparent] at heq
    dsimp only at heq
    split_ifs at heq with hrun
    · subst heq
      obtain ⟨requestId, hcall⟩ := OrdMap.mem_values.mp hcall
      simp only [OrdMap.get?_mapValues, Option.map_eq_some_iff] at hcall
      obtain ⟨old', -, rfl⟩ := hcall
      unfold CodeToolCall.interrupt
      split_ifs with hterminal
      · exact hterminal
      · rfl
    · refine hkeep heq.symm fun parent' hok => ?_
      rw [hparent] at hok
      cases hok
      exact hrun

/-- A run that leaves the active slot leaves no open code call. -/
theorem codeInv_finishRun (h : CodeInv s) {run : ActiveRun} (hactive : s.runs.active = some run)
    (outcome : RunOutcome) (seq ms : Nat) : CodeInv (s.finishRun run outcome seq ms) := by
  refine .of_none_open fun scope hscope => ?_
  exact interruptCodeToolsForRun_terminal h hactive scope (values_filter_subset hscope)

theorem codeInv_run {event : RunEvent} (h : Inv s) (happly : applyRunEvent s seq ms event = .ok t) :
    CodeInv t := by
  have hsame : ∀ {run run'}, s.runs.active = some run → t.runs.active = some run' →
      run'.runId = run.runId → run'.parkedToolBatch = run.parkedToolBatch →
      ∀ a, s.runs.active = some a → ∃ b, t.runs.active = some b ∧ b.runId = a.runId ∧
        b.parkedToolBatch = a.parkedToolBatch := by
    intro run run' hactive hactive' hid hparked a ha
    obtain rfl : run = a := Option.mem_unique hactive ha
    exact ⟨run', hactive', hid, hparked⟩
  cases applyRunEvent_moves happly with
  | queues hqueues hactive ht =>
    refine h.code.of_same ?_ ?_ ?_ fun a ha => ⟨a, hactive ▸ ha, rfl, rfl⟩ <;> rw [ht]
  | starts hfree hqueue =>
    refine .of_none_open (h.code.none_open fun run hrun => ?_)
    rw [hfree] at hrun
    cases hrun
  | steers hactive | stops hactive => exact h.code.of_same rfl rfl rfl (hsame hactive rfl rfl rfl)
  | ends hactive => exact codeInv_finishRun h.code hactive _ _ _

theorem codeInv_approval (h : Inv s) (happly : applyApprovalEvent s ms event = .ok t) :
    CodeInv t := by
  obtain ⟨run, run', hactive, hjudged, ht⟩ := applyApprovalEvent_moves happly
  rw [ht]
  refine h.code.of_same rfl rfl rfl fun a ha => ⟨_, rfl, ?_⟩
  obtain rfl : run = a := Option.mem_unique hactive ha
  rw [hjudged.run]
  exact ⟨rfl, rfl⟩

theorem codeInv_turn {event : TurnEvent} (h : Inv s) (happly : applyTurnEvent s event = .ok t) :
    CodeInv t := by
  obtain ⟨_, _, -, -, -, -, -, ht⟩ := applyTurnEvent_frame happly
  obtain ⟨run, run', hactive, hactive', hturned⟩ := applyTurnEvent_turned happly
  refine h.code.of_same (by rw [ht]; rfl) (by rw [ht]; rfl) (by rw [ht]; rfl) fun a ha => ⟨run', hactive', ?_⟩
  obtain rfl : run = a := Option.mem_unique hactive ha
  rw [hturned.run]
  exact ⟨rfl, rfl⟩

theorem codeInv_tool {event : ToolEvent} (h : Inv s) (hknew : Knew base input s (.tool event))
    (happly : applyToolEvent s event = .ok t) : CodeInv t := by
  have hsame : ∀ {run run' : ActiveRun}, s.runs.active = some run → s.runs.active = some run' → run = run' :=
    fun hrun hrun' => Option.mem_unique hrun hrun'
  cases applyToolEvent_moves happly with
  | works cursor hworks hactive hrun =>
    refine h.code.of_same rfl rfl rfl fun a ha => ⟨_, rfl, ?_⟩
    obtain rfl := hsame hactive ha
    rw [hrun]
    exact ⟨rfl, rfl⟩
  | parks hactive hrunning hturn hbatch hnone =>
    exact .of_none_open (h.code.none_open fun run' hrun' => hsame hactive hrun' ▸ hnone)
  | @unparks run turnId batchId hactive hbatch hparkedOn =>
    refine .of_none_open fun scope hscope call hcall => ?_
    by_contra hopen
    obtain ⟨parent, run', parked, hparent, hrun', hid, hparked, hbatch⟩ :=
      h.code scope hscope call hcall (by simpa using hopen)
    obtain rfl := hsame hactive hrun'
    -- The unpark was proposed only once the batch's code calls were reconciled.
    have hheld := hknew scope hscope
    have hbatchId : parked.batchId = batchId := by
      simpa [ActiveRun.isParkedOn, hparked] using hparkedOn
    simp only [CodeToolScope.holdsUp, hparent, ← hid, ← hbatch, hbatchId, BEq.rfl,
      Bool.and_true, Bool.true_and, List.any_eq_false, Bool.not_eq_true', Bool.not_eq_false] at hheld
    exact hopen (hheld call hcall)
  | completes hactive hbatch hget hparked =>
    have hnone := (h.run _ hactive).parked_of_not_parkedOn hbatch hparked
    refine .of_none_open fun scope hscope => ?_
    exact h.code.none_open (fun run' hrun' => hsame hactive hrun' ▸ hnone) scope (values_filter_subset hscope)

/-- A new invocation takes no scope's parent away: one that it stands in front of is of the same run and
batch. -/
theorem codeInv_invoke (h : Inv s) {invocation : WorkflowToolInvocation}
    {tools : WorkflowToolState} (hrun : ∃ run, s.runs.active = some run ∧
      run.runId = invocation.runId ∧ run.activeToolBatchId = some invocation.toolBatchId)
    (hparent : ∀ scope parent, codeToolParent s scope = .ok parent →
      codeToolParent (s.setWorkflowTools tools) scope = .ok parent ∨
        codeToolParent (s.setWorkflowTools tools) scope = .ok invocation) :
    CodeInv (s.setWorkflowTools tools) := by
  intro scope hscope call hcall hopen
  obtain ⟨parent, run, parked, hold, hactive, hid, hparked, hbatch⟩ :=
    h.code scope hscope call hcall hopen
  obtain ⟨run', hactive', hid', hbatch'⟩ := hrun
  obtain rfl : run = run' := Option.mem_unique hactive hactive'
  rcases hparent scope.spec parent hold with hnew | hnew
  · exact ⟨parent, run, parked, hnew, hactive, hid, hparked, hbatch⟩
  · refine ⟨invocation, run, parked, hnew, hactive, hid', hparked, ?_⟩
    exact Option.some.inj (((h.run run hactive).parked parked hparked).symm.trans hbatch')

theorem codeInv_workflowTool {event : WorkflowToolEvent} (h : Inv s)
    (hknew : Knew base input s (.workflowTool event))
    (happly : applyWorkflowToolEvent s event = .ok t) : CodeInv t := by
  cases event with
  | invoked invocation =>
    obtain ⟨⟨_, hvalid⟩, rfl⟩ := invoked_ok happly
    obtain ⟨run, hactive, hid, -⟩ := validateRecordedInvocation_ok hvalid
    refine codeInv_invoke h ⟨run, hactive, hid, hknew run hactive⟩ fun scope parent hold => ?_
    simp only [codeToolParent, orError_eq_ok, CoreAgentState.setWorkflowTools,
      OrdMap.get?_insert] at hold ⊢
    split_ifs
    · exact .inr rfl
    · exact .inl hold
  | startRequested invocation executionId =>
    obtain ⟨⟨_, hvalid⟩, rfl⟩ := startRequested_ok happly
    obtain ⟨run, hactive, hid, -⟩ := validateRecordedInvocation_ok hvalid
    refine codeInv_invoke h ⟨run, hactive, hid, hknew run hactive⟩ fun scope parent hold => ?_
    simp only [codeToolParent, orError_eq_ok, CoreAgentState.setWorkflowTools,
      OrdMap.get?_insert] at hold ⊢
    cases hbound : s.workflowTools.boundInvocations.get? scope.parentInvocationId with
    | some bound =>
      rw [hbound] at hold
      exact .inl (by simpa using hold)
    | none =>
      rw [hbound, Option.none_or] at hold
      simp only [Option.none_or]
      split_ifs
      · exact .inr rfl
      · exact .inl hold
  | deliveryFailed id errorRef =>
    obtain ⟨_, rfl, hbound, hstart⟩ := invocationFailed_ok (.inl ⟨id, errorRef, rfl⟩) happly
    exact h.code.of_same rfl hbound hstart fun a ha => ⟨a, ha, rfl, rfl⟩
  | startFailed id errorRef =>
    obtain ⟨_, rfl, hbound, hstart⟩ := invocationFailed_ok (.inr ⟨id, errorRef, rfl⟩) happly
    exact h.code.of_same rfl hbound hstart fun a ha => ⟨a, ha, rfl, rfl⟩

/-- A change of the scopes that opens no call of a scope without a live parent. -/
theorem CodeInv.of_scopes (h : CodeInv s) {scopes : OrdMap String CodeToolScope}
    (hnew : ∀ scope ∈ scopes.values, ∀ call ∈ scope.calls.values, call.status.isTerminal = false →
      (∃ old ∈ s.codeTools.scopes.values, old.spec = scope.spec ∧ ∃ call' ∈ old.calls.values,
        call'.status.isTerminal = false) ∨ validateLiveParent s scope.spec = .ok ()) :
    CodeInv (s.setScopes scopes) := by
  intro scope hscope call hcall hopen
  rcases hnew scope hscope call hcall hopen with ⟨old, hold, hspec, call', hcall', hopen'⟩ | hlive
  · rw [← hspec]
    exact h old hold call' hcall' hopen'
  · obtain ⟨parent, run, parked, hparent, hactive, hid, hparked, hbatch⟩ :=
      validateLiveParent_ok hlive
    exact ⟨parent, run, parked, hparent, hactive, hid, hparked, hbatch⟩

/-- A value of a modified map is an old one, or the modified one of the key. -/
theorem mem_values_modify [LinearOrder κ] {m : OrdMap κ α} {k : κ} {f : α → α} {a : α}
    (h : a ∈ (m.modify k f).values) : a ∈ m.values ∨ ∃ b, m.get? k = some b ∧ a = f b := by
  obtain ⟨k', hk'⟩ := OrdMap.mem_values.mp h
  rw [OrdMap.get?_modify] at hk'
  split_ifs at hk' with hkey
  · obtain ⟨b, hb, rfl⟩ := Option.map_eq_some_iff.mp hk'
    exact .inr ⟨b, hkey ▸ hb, rfl⟩
  · exact .inl (OrdMap.mem_values.mpr ⟨k', hk'⟩)

theorem mem_values_insert [LinearOrder κ] {m : OrdMap κ α} {k : κ} {a b : α}
    (h : b ∈ (m.insert k a).values) : b = a ∨ b ∈ m.values := by
  obtain ⟨k', hk'⟩ := OrdMap.mem_values.mp h
  rw [OrdMap.get?_insert] at hk'
  split_ifs at hk'
  · exact .inl (Option.some.inj hk').symm
  · exact .inr (OrdMap.mem_values.mpr ⟨k', hk'⟩)

/-- A code call that was open takes another status. -/
theorem codeInv_setCodeCallStatus (h : CodeInv s) {origin : CodeToolOrigin} {call : CodeToolCall}
    {status : CodeToolCallStatus} (hcall : codeToolCall s origin = some call)
    (hopen : call.status.isTerminal = false) : CodeInv (setCodeCallStatus s origin status) := by
  obtain ⟨old, hold, hget⟩ := Option.bind_eq_some_iff.mp hcall
  refine h.of_scopes fun scope hscope call' hcall' hopen' => .inl ?_
  rcases mem_values_modify hscope with hscope | ⟨old', hold', rfl⟩
  · exact ⟨scope, hscope, rfl, call', hcall', hopen'⟩
  · obtain rfl : old = old' := Option.mem_unique hold hold'
    exact ⟨old, OrdMap.mem_values.mpr ⟨_, hold⟩, rfl, call, OrdMap.mem_values.mpr ⟨_, hget⟩, hopen⟩

theorem codeInv_codeTool {event : CodeToolEvent} (h : Inv s)
    (happly : applyCodeToolEvent s event = .ok t) : CodeInv t := by
  cases event with
  | scopeOpened scope =>
    obtain ⟨-, -, rfl⟩ := scopeOpened_eq_ok.mp happly
    refine h.code.of_scopes fun scope' hscope call hcall hopen => .inl ?_
    rcases mem_values_insert hscope with rfl | hscope
    · cases hcall
    · exact ⟨scope', hscope, rfl, call, hcall, hopen⟩
  | callAdmitted call base =>
    obtain ⟨admitted, last, hvalid, -, -, -, rfl⟩ := callAdmitted_eq_ok.mp happly
    simp only [validateRecordedCall, bind_eq_ok, orError_eq_ok, require_eq_ok, exists_unit,
      Except.ok.injEq] at hvalid
    obtain ⟨_, hget, -, hlive, -, -, rfl⟩ := hvalid
    have hscopes : CodeInv (s.setScopes (s.codeTools.scopes.modify call.origin.executionId
        fun scope => { scope with
          calls := scope.calls.insert call.origin.requestId (call.admitted base) })) := by
      refine h.code.of_scopes fun scope hscope call' hcall' hopen => ?_
      rcases mem_values_modify hscope with hscope | ⟨old, hold, rfl⟩
      · exact .inl ⟨scope, hscope, rfl, call', hcall', hopen⟩
      · obtain rfl := Option.mem_unique hget hold
        exact .inr hlive
    exact hscopes.of_same rfl rfl rfl fun a ha => ⟨a, ha, rfl, rfl⟩
  | callCompleted origin result =>
    obtain ⟨call, hcall, -, hopen, rfl⟩ := codeCallCompleted_eq_ok.mp happly
    exact codeInv_setCodeCallStatus h.code hcall hopen
  | callDeferred origin suspension =>
    obtain ⟨call, hcall, hpending, -, rfl⟩ := codeCallDeferred_eq_ok.mp happly
    exact codeInv_setCodeCallStatus h.code hcall (by rw [hpending]; rfl)
  | scopeClosed executionId =>
    obtain ⟨-, rfl⟩ := scopeClosed_eq_ok.mp happly
    refine h.code.of_scopes fun scope hscope call hcall hopen => .inl ?_
    rcases mem_values_modify hscope with hscope | ⟨old, hold, rfl⟩
    · exact ⟨scope, hscope, rfl, call, hcall, hopen⟩
    · exact ⟨old, OrdMap.mem_values.mpr ⟨_, hold⟩, rfl, call, hcall, hopen⟩

theorem codeInv_step (h : Inv s) (hw : Warrant base input s entry)
    (happly : applyEvent s entry = .ok t) : CodeInv t := by
  have hknew := hw.knew
  obtain ⟨-, m, hm, rfl⟩ := applyEvent_eq_ok.mp happly
  suffices hcode : CodeInv m from hcode.of_same rfl rfl rfl fun a ha => ⟨a, ha, rfl, rfl⟩
  cases applyEventKind_moves hm with
  | run heq hm => exact codeInv_run h hm
  | approval heq hm => exact codeInv_approval h hm
  | turn heq hm => exact codeInv_turn h hm
  | context heq hm =>
    have hframe := applyContextEvent_frame h.entries hm
    rw [hframe.state]
    refine h.code.of_same rfl rfl rfl fun a ha => ?_
    obtain ⟨b, hb, hkept⟩ := hframe.stays ha
    exact ⟨b, hb, hkept.same.runId, by rw [hkept.run]⟩
  | tool heq hm => exact codeInv_tool h (heq ▸ hknew) hm
  | rests hspares hruns =>
    have hactive : ∀ a, s.runs.active = some a → ∃ b, m.runs.active = some b ∧ b.runId = a.runId ∧
        b.parkedToolBatch = a.parkedToolBatch := fun a ha => ⟨a, hruns ▸ ha, rfl, rfl⟩
    cases applyEventKind_work h.entries hm with
    | prunes hprune => rw [mayPrune_of_sparesRuns hspares] at hprune; cases hprune
    | promise heq hm =>
      rw [applyPromiseEvent_frame hm]
      exact h.code.of_same rfl rfl rfl fun a ha => ⟨a, ha, rfl, rfl⟩
    | codeTool heq hm => exact codeInv_codeTool h hm
    | workflowTool heq hm => exact codeInv_workflowTool h (heq ▸ hknew) hm
    | rests hpromises hscopes hbound hstarted => exact h.code.of_same hscopes hbound hstarted hactive

/-! ## The step -/

/-- Every warranted event keeps the invariant. -/
theorem inv_step (h : Inv s) (hw : Warrant base input s entry)
    (happly : applyEvent s entry = .ok t) : Inv t where
  run := runInv_step h hw happly
  queued := queued_step h hw happly
  idle := (lifecycle_step h happly).1
  config := (lifecycle_step h happly).2
  entries := applyEvent_entriesInv h.entries happly
  compaction := compactionInv_step h hw happly
  code := codeInv_step h hw happly

end Lightspeed.Harness
