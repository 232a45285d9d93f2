import Lightspeed.Session.ServicesKept

/-!
# What the drive keeps

The drive appends what its planner and its effects propose as well, and publishes the tools that wait. It
comes to rest where the planner has nothing to do, no approval is left that nobody can give, and the
session does not want to close: a close that nothing holds back is accepted, and the store has nothing in
it to refuse.
-/

namespace Lightspeed.Session

open Lib Harness Program

variable {args : AgentSessionArgs}
  {meets : (request : SessionRequest) → AgentSessionWorkflow → SessionReply request → Prop}
  {allowed : DriveInput → Prop} {I J P : AgentSessionWorkflow → Prop} {s t : AgentSessionWorkflow}
  {core : CoreAgentState}

/-- What the drive keeps: its appends come from any input, and it publishes the tools that wait. -/
structure DriveKept (args : AgentSessionArgs)
    (meets : (request : SessionRequest) → AgentSessionWorkflow → SessionReply request → Prop)
    (I : AgentSessionWorkflow → Prop) : Prop where
  kept : Kept args meets (fun _ => True) I
  toolsets : ∀ s, I s → I { s with pendingToolsets := [] }

/-! ## Plans -/

/-- The action is what the planner wants of a core state. -/
def Plans (args : AgentSessionArgs) (core : CoreAgentState) (action : CoreAgentAction) : Prop :=
  ∃ nowMs, nextActionUnbounded args.sessionId core nowMs = .ok action

theorem planFirst_eq_nil {first second : Result (List CoreAgentEventProposal)} :
    planFirst first second = .ok [] ↔ first = .ok [] ∧ second = .ok [] := by
  unfold planFirst
  rw [bind_eq_ok]
  constructor
  · rintro ⟨proposals, hfirst, hsecond⟩
    split at hsecond
    next hnone => exact ⟨hnone ▸ hfirst, hsecond⟩
    next hsome => exact absurd (Except.ok.inj hsecond) hsome
  · rintro ⟨hfirst, hsecond⟩
    exact ⟨[], hfirst, hsecond⟩

/-- A request appends nothing. -/
theorem requestAction_ne_append {action : CoreAgentAction}
    (h : requestAction args.sessionId core = .ok action) (entries : List CoreAgentEntry) :
    action ≠ .appendEvents entries := by
  rintro rfl
  obtain ⟨generation, -, h⟩ := bind_eq_ok.mp h
  split at h
  · cases h
  · obtain ⟨compaction, -, h⟩ := bind_eq_ok.mp h
    split at h
    · cases h
    · obtain ⟨batch, -, h⟩ := bind_eq_ok.mp h
      split at h
      · cases h
      · unfold classifyCoreAgentAction at h
        split_ifs at h <;> cases h

/-- The planner appends what it proposes. -/
theorem Plans.extended {entries : List CoreAgentEntry} (h : Plans args core (.appendEvents entries)) :
    ∃ reduced, Extended args (fun _ => True) core entries reduced := by
  obtain ⟨nowMs, h⟩ := h
  obtain ⟨proposals, hplan, h⟩ := bind_eq_ok.mp h
  split at h
  · obtain ⟨appended, happend, h⟩ := bind_eq_ok.mp h
    cases h
    have hpropose : proposeEntries args.sessionId core (nowMs, .nextAction) = .ok entries :=
      bind_eq_ok.mpr ⟨proposals, hplan, happend⟩
    exact extended_of_propose trivial hpropose
  · exact absurd rfl (requestAction_ne_append (driven_eq_ok.mp h) entries)

/-- Whether an action leaves the drive at rest. -/
def CoreAgentAction.rests : CoreAgentAction → Bool
  | .idle | .closed => true
  | _ => false

/-- At rest the planner has nothing to propose. -/
theorem Plans.planNext_eq_nil {action : CoreAgentAction} (h : Plans args core action)
    (hrests : CoreAgentAction.rests action = true) : planNext core = .ok [] := by
  obtain ⟨nowMs, h⟩ := h
  obtain ⟨proposals, hplan, h⟩ := bind_eq_ok.mp h
  split at h
  · obtain ⟨appended, -, h⟩ := bind_eq_ok.mp h
    cases h
    cases hrests
  next hnone =>
    rw [not_not.mp hnone] at hplan
    exact driven_eq_ok.mp hplan

/-- No compaction is queued in an open session at rest that runs nothing. -/
theorem isQueued_eq_false (hplan : planNext core = .ok []) (hopen : core.lifecycle.status = .open)
    (hactive : core.runs.active = none) (hpending : core.context.compaction.isPending = false) :
    core.context.compaction.isQueued = false := by
  have hcontext : planContextNext core = [] := by
    obtain ⟨-, hplan⟩ := planFirst_eq_nil.mp hplan
    obtain ⟨-, hplan⟩ := planFirst_eq_nil.mp hplan
    obtain ⟨-, hplan⟩ := planFirst_eq_nil.mp hplan
    exact Except.ok.inj (planFirst_eq_nil.mp hplan).1
  have hsafe : compactionSafeBoundary core = true := by
    simp [compactionSafeBoundary, hasActiveNonterminalToolBatch, hactive, hpending]
  by_contra hqueued
  have hproposal : (nextCompactionProposal core).isSome = true := by
    unfold nextCompactionProposal
    rw [if_neg (not_not.mpr hsafe), if_pos (Bool.not_eq_false _ ▸ hqueued)]
    split <;> rfl
  unfold planContextNext at hcontext
  rw [if_neg (not_not.mpr hopen)] at hcontext
  split at hcontext
  · cases hcontext
  · rw [if_neg (by simp [hpending])] at hcontext
    split at hcontext
    · cases hcontext
    · obtain ⟨proposal, hproposal⟩ := Option.isSome_iff_exists.mp hproposal
      rw [hproposal] at hcontext
      cases hcontext

/-! ## Closing -/

/-- What `should_close_on_terminal` says. -/
theorem shouldClose_iff : shouldCloseOnTerminal args core = true ↔
    args.closeOnTerminal = true ∧ core.lifecycle.status = .open ∧ core.runs.finished ≠ [] ∧
      core.runs.active = none ∧ core.runs.queued = [] ∧ core.context.compaction.isPending = false ∧
      core.promises.pending.any (fun promise => promise.scope == .session) = false := by
  simp [shouldCloseOnTerminal, and_assoc]

/-- The entry that closes a session. -/
def closing (core : CoreAgentState) (nowMs : Nat) : CoreAgentEntry where
  seq := core.nextSeq
  observedAtMs := nowMs
  joins := {}
  event := .lifecycle .closed

/-- A session that should close, at rest, is closed when it is asked to. -/
theorem close_accepted (hplan : planNext core = .ok [])
    (hclose : shouldCloseOnTerminal args core = true) (nowMs : Nat) :
    proposeEntries args.sessionId core (nowMs, .admitCommand (.closeSession false)) =
        .ok [closing core nowMs] ∧
      ∃ reduced, applyEvent core (closing core nowMs) = .ok reduced ∧
        reduced.lifecycle.status = .closed ∧ reduced.runs.active = none := by
  obtain ⟨-, hopen, -, hactive, hqueued, hpending, hpromises⟩ := shouldClose_iff.mp hclose
  have hidle := isQueued_eq_false hplan hopen hactive hpending
  have hclosed : applyLifecycleEvent core .closed =
      .ok { core with lifecycle := { core.lifecycle with status := .closed } } :=
    closed_eq_ok.mpr ⟨hopen, hactive, hqueued, hpromises, rfl⟩
  have hreduce : applyEvent core (closing core nowMs) = .ok
      { core with
        lifecycle := { core.lifecycle with status := .closed }
        reducedTo := some core.nextSeq } :=
    applyEvent_eq_ok.mpr ⟨rfl, _, hclosed, rfl⟩
  have hadmitted : admitCommand core nowMs (.closeSession false) =
      .ok [sessionProposal (.lifecycle .closed)] := by
    simp [admitCommand, closeSession, requireOpen, require, hopen, hactive, hqueued, hpending, hidle,
      hpromises]
  refine ⟨?_, _, hreduce, rfl, hactive⟩
  refine bind_eq_ok.mpr ⟨[sessionProposal (.lifecycle .closed)], ?_, ?_⟩
  · unfold inputProposals
    dsimp only
    rw [hadmitted]
  · refine bind_eq_ok.mpr ⟨_, driven_eq_ok.mpr (foldlM_cons_eq_ok.mpr ⟨_, hreduce, rfl⟩), rfl⟩

/-- A session that is closed, and runs nothing. -/
def ClosedIdle (core : CoreAgentState) : Prop :=
  core.lifecycle.status = .closed ∧ core.runs.active = none

/-- In a closed session nothing is removed: a removal that is owed fails. -/
theorem removeInvalid_closed (hI : ∀ s, I s → s.coreState.lifecycle.status = .closed)
    (invalidKey : CoreAgentState → Option ContextEntryKey) :
    KeepsOrDies meets P I (removeInvalid args invalidKey) := by
  intro s hs
  refine .bind (.act ?_)
  dsimp only
  split
  · exact .done hs
  next key _ =>
    have hrejected : ∃ error, proposeEntries args.sessionId s.coreState
        (s.nowMs, .admitCommand (.removeContext none key)) = .error error := by
      unfold proposeEntries inputProposals admitCommand removeContext requireEditableContext requireOpen
      rw [hI s hs]
      exact ⟨_, rfl⟩
    obtain ⟨error, hrejected⟩ := hrejected
    rw [hrejected]
    exact .fail ⟨hs, rfl⟩

/-- In a closed session no promise starts a run. -/
theorem queueDetachedPromiseFollowups_closed
    (hI : ∀ s, I s → s.coreState.lifecycle.status = .closed)
    (followups : List DetachedPromiseFollowup) :
    KeepsOrDies meets P I (queueDetachedPromiseFollowups followups) := by
  intro s hs
  refine .bind (.act ?_)
  dsimp only
  rw [if_pos (by rw [hI s hs]; nofun)]
  exact .done hs

/-- A session that should close, at rest, is closed, or it ends. -/
theorem Kept.closeAtRest (h : Kept args meets (fun _ => True) I) (hs : I s)
    (hplan : planNext s.coreState = .ok []) (hclose : shouldCloseOnTerminal args s.coreState = true) :
    Keeps sessionOutside meets (asleep P) (fun _ t => I t ∧ ClosedIdle t.coreState) (fun _ => I)
      (Session.admitAndAppendCommand args (.closeSession false)) s := by
  obtain ⟨hpropose, reduced, hreduce, hstatus, hactive⟩ := close_accepted hplan hclose s.nowMs
  have hextended : Extended args (fun _ => True) s.coreState [closing s.coreState s.nowMs] reduced :=
    .single trivial hpropose
      (foldlM_cons_eq_ok.mpr ⟨_, hreduce, rfl⟩)
  have hclosed : ∀ t : AgentSessionWorkflow, t.coreState = reduced → ClosedIdle t.coreState := by
    intro t ht
    rw [ht]
    exact ⟨hstatus, hactive⟩
  refine .bind (.act ?_)
  dsimp only
  rw [if_neg (by simp [ContextSources.publicationIsObsolete]), hpropose]
  refine .bind (.attempt (.bind ((h.storeEntries (J := fun _ => True) (fun _ _ _ _ => trivial) hs trivial
    hextended (List.cons_ne_nil _ _)).mono ?_ ?_)))
  · rintro followups t ⟨ht, hcore⟩
    have hkept : ∀ u, I u ∧ ClosedIdle u.coreState → u.coreState.lifecycle.status = .closed :=
      fun u hu => hu.2.1
    have happended : KeepsOrDies meets P (fun u => I u ∧ ClosedIdle u.coreState)
        (args.sources.invalidKeys.forM (Session.removeInvalid args) >>= fun _ =>
          Session.queueDetachedPromiseFollowups followups) :=
      .bind (.forM (removeInvalid_closed hkept)) fun _ =>
        queueDetachedPromiseFollowups_closed hkept followups
    refine (happended t ⟨ht, hclosed t hcore⟩).mono ?_ ?_
    · exact fun _ u hu => .done hu
    · rintro error u ⟨hu, rfl⟩
      exact .fail hu.1
  · rintro error t ⟨ht, hrefused⟩
    cases error with
    | fatal => exact .fail ht
    | refused =>
      obtain ⟨-, entry, hmem, hbare⟩ := hrefused rfl
      rw [List.mem_singleton.mp hmem] at hbare
      cases hbare

/-! ## At rest -/

/-- Whether a drive at rest has something left to do: approvals to reject, or the session to close. -/
def dutyAtRest (args : AgentSessionArgs) (core : CoreAgentState) : Bool :=
  shouldCloseOnTerminal args core ||
    (args.autoRejectApprovals && core.runs.active.any fun run => !run.pendingApprovals.isEmpty)

theorem dutyAtRest_eq_false : dutyAtRest args core = false ↔
    shouldCloseOnTerminal args core = false ∧ (args.autoRejectApprovals = true →
      ∀ run, core.runs.active = some run → run.pendingApprovals = []) := by
  unfold dutyAtRest
  rw [Bool.or_eq_false_iff, Bool.and_eq_false_imp]
  cases core.runs.active with
  | none => simp
  | some run => simp

/-- A closed session at rest has nothing left to do. -/
theorem ClosedIdle.dutyAtRest (h : ClosedIdle core) : dutyAtRest args core = false := by
  refine dutyAtRest_eq_false.mpr ⟨?_, fun _ run hrun => ?_⟩
  · refine Bool.eq_false_iff.mpr fun hclose => ?_
    have hopen := (shouldClose_iff.mp hclose).2.1
    rw [h.1] at hopen
    cases hopen
  · rw [h.2] at hrun
    cases hrun

theorem Kept.rejectApproval (h : Kept args meets allowed I) (runId : RunId)
    (approval : ApprovalRequested) : SessionKeeps meets P I (rejectApproval args runId approval) := by
  refine .bind ?_ fun response => .bind (h.admitAndAppendCommand _) fun result => ?_
  · unfold rejectionResponse
    split
    · refine .bind (h.ask fun _ => trivial) fun reply => ?_
      cases reply with
      | none => exact keeps_raise trivial
      | some ref => exact .pure _
    · exact .pure _
  · cases result with
    | accepted => exact .pure _
    | rejected => exact keeps_raise trivial

/-- When there is nothing to reject, nothing changes. -/
theorem Kept.rejectApprovals (h : Kept args meets allowed I) (hs : I s) :
    Keeps sessionOutside meets (asleep P)
      (fun rejected t => I t ∧ (rejected = false → t = s ∧ (args.autoRejectApprovals = true →
        ∀ run, s.coreState.runs.active = some run → run.pendingApprovals = [])))
      (fun _ => I) (rejectApprovals args) s := by
  unfold Session.rejectApprovals
  split_ifs with hauto
  · refine .bind (.act ?_)
    dsimp only
    split
    next hactive => exact .done ⟨hs, fun _ => ⟨rfl, fun _ run hrun => by cases hactive ▸ hrun⟩⟩
    next run hactive =>
      cases hpending : run.pendingApprovals with
      | nil =>
        refine .bind (.done (.done ⟨hs, fun _ => ⟨rfl, fun _ other hother => ?_⟩⟩))
        cases hactive ▸ hother
        exact hpending
      | cons record rest =>
        refine .bind ((Preserves.forM (h.rejectApproval run.runId) s hs).mono ?_ fun _ _ ht => ht.1)
        exact fun _ t ht => .done ⟨ht, nofun⟩
  · exact .done ⟨hs, fun _ => ⟨rfl, fun hauto' => absurd hauto' hauto⟩⟩

/-- A drive whose planner has nothing to do comes to rest without a duty. -/
theorem Kept.comeToRest (h : Kept args meets (fun _ => True) I) (hs : I s)
    (hplan : planNext s.coreState = .ok []) :
    Keeps sessionOutside meets (asleep P)
      (fun rested t => I t ∧ (rested = true → Session.dutyAtRest args t.coreState = false))
      (fun _ => I) (comeToRest args) s := by
  refine .bind ((h.rejectApprovals hs).mono ?_ fun _ _ ht => ht)
  rintro rejected t ⟨ht, hnone⟩
  split_ifs with hrejected
  · exact .done ⟨ht, nofun⟩
  · obtain ⟨rfl, happrovals⟩ := hnone (Bool.not_eq_true _ ▸ hrejected)
    refine .bind (.bind (.act ?_))
    dsimp only
    split_ifs with hclose
    · refine .bind ((h.closeAtRest ht hplan hclose).mono ?_ fun _ _ hu => hu)
      exact fun _ u hu => .done (.done ⟨hu.1, fun _ => hu.2.dutyAtRest⟩)
    · refine .done (.done ⟨ht, fun _ => dutyAtRest_eq_false.mpr ⟨?_, happrovals⟩⟩)
      exact Bool.not_eq_true _ ▸ hclose

/-! ## Effects and tools -/

theorem Kept.commitResume (h : Kept args meets (fun _ => True) I) (input : DriveInput) :
    SessionKeeps meets P I (commitResume args input) := by
  intro s hs
  refine .bind (.act ?_)
  dsimp only
  split
  next entries hpropose =>
    have hproposed : ∃ reduced, Extended args (fun _ => True) s.coreState entries reduced :=
      extended_of_propose trivial hpropose
    obtain ⟨reduced, hextended⟩ := hproposed
    exact (h.appendEvents (J := fun _ => True) (fun _ _ _ _ => trivial) hs trivial hextended).mono
      (fun _ _ ht => ht) fun _ _ ht => ⟨ht.1, trivial⟩
  · exact .fail ⟨hs, trivial⟩

theorem Kept.callEffect (h : Kept args meets (fun _ => True) I) (effect : Effect)
    (wanted : CoreAgentState → Bool) : SessionKeeps meets P I (callEffect args effect wanted) := by
  refine .loop (fun _ => .bind (h.ask ?_) fun reply => ?_) ()
  · exact fun _ => trivial
  cases reply with
  | admissions =>
    exact .bind h.drainPendingAdmissions fun _ => .bind keeps_read fun _ => .pure _
  | resume input => exact .bind (h.commitResume input) fun _ => .bind keeps_read fun _ => .pure _
  | «over» => exact .pure _
  | failed => exact keeps_raise trivial

theorem Kept.invokeTools (h : Kept args meets (fun _ => True) I)
    (request : ToolInvocationBatchRequest) :
    SessionKeeps meets P I (invokeTools args request) := by
  unfold Session.invokeTools
  split
  · refine .bind (h.ask fun _ => trivial) fun reply => ?_
    cases reply with
    | error error => exact .bind (keeps_raise trivial) fun _ => h.callEffect _ _
    | ok _ => exact h.callEffect _ _
  · exact h.callEffect _ _

theorem Kept.publishPendingToolsets (h : Kept args meets allowed I) (pending : List PendingToolset) :
    SessionKeeps meets P I (publishPendingToolsets args pending) := by
  induction pending with
  | nil => exact .pure _
  | cons first rest ih =>
    refine .bind keeps_read fun s => ?_
    split
    · exact .pure _
    · refine .bind (.bind (h.publishTools _) fun published => ?_) fun _ => ih
      split
      · exact .pure _
      · refine .bind (.attempt (h.admitAndAppendCommand _)) fun result => ?_
        split
        · exact .pure _
        · exact keeps_raise trivial

/-- When no tools wait, or they cannot be published, the core state stays. -/
theorem DriveKept.publishPendingTools (h : DriveKept args meets I) (hs : I s) :
    Keeps sessionOutside meets (asleep P)
      (fun published t => I t ∧ (published = false → t.coreState = s.coreState)) (fun _ => I)
      (publishPendingTools args) s := by
  refine .bind (.act ?_)
  dsimp only
  split_ifs
  · exact .done ⟨hs, fun _ => rfl⟩
  · refine .bind (.act ?_)
    dsimp only
    have hcleared := h.toolsets s hs
    cases hpending : s.pendingToolsets with
    | nil => exact .bind (.done (.done ⟨hcleared, fun _ => rfl⟩))
    | cons first rest =>
      refine .bind ((h.kept.publishPendingToolsets _ _ hcleared).mono ?_ fun _ _ ht => ht.1)
      exact fun _ t ht => .done ⟨ht, nofun⟩

/-- When nothing was admissible, the core state stays. -/
theorem Kept.drained (h : Kept args meets allowed I) (hs : I s) :
    Keeps sessionOutside meets (asleep P)
      (fun drained t => I t ∧ (drained = false → t.coreState = s.coreState)) (fun _ => I)
      (Session.drainPendingAdmissions args) s := by
  refine .bind (.act ?_)
  have hbeside := takeAdmissible_beside s
  have htaken := h.beside s _ hs hbeside
  split_ifs
  · exact .done ⟨htaken, fun _ => hbeside.core⟩
  · refine .bind ((h.admitAdmissions _ _ htaken).mono ?_ fun _ _ ht => ht.1)
    intro _ t ht
    refine .bind (.act ?_)
    exact .done ⟨h.beside t _ ht (.queues rfl rfl rfl rfl rfl rfl rfl), nofun⟩

/-! ## The loop -/

theorem Kept.planAction (hs : I s) :
    Keeps sessionOutside meets (asleep P) (fun action t => I t ∧ Plans args t.coreState action)
      (fun _ => I) (planAction args) s := by
  refine .bind (.act ?_)
  dsimp only
  split
  next action hplan => exact .done ⟨hs, _, hplan⟩
  · exact .fail hs

/-- The plan is one for the core state as it is. -/
theorem Kept.replan {changed : Bool} {action : CoreAgentAction} (hs : I s)
    (hplan : Plans args core action) (hsame : changed = false → s.coreState = core) :
    Keeps sessionOutside meets (asleep P) (fun action t => I t ∧ Plans args t.coreState action)
      (fun _ => I) (replan args changed action) s := by
  unfold Session.replan
  split_ifs with hchanged
  · exact planAction hs
  · refine .done ⟨hs, ?_⟩
    rw [hsame (Bool.not_eq_true _ ▸ hchanged)]
    exact hplan

theorem DriveKept.carryOut (h : DriveKept args meets I) {action : CoreAgentAction} (hs : I s)
    (hplan : Plans args s.coreState action) :
    Keeps sessionOutside meets (asleep P)
      (fun rested t => I t ∧ (rested = true → Session.dutyAtRest args t.coreState = false))
      (fun _ => I) (carryOut args action) s := by
  have hgoesOn : ∀ {p : SessionProgram Unit}, SessionKeeps meets P I p →
      Keeps sessionOutside meets (asleep P)
        (fun rested t => I t ∧ (rested = true → Session.dutyAtRest args t.coreState = false))
        (fun _ => I) (p >>= fun _ => pure false) s := by
    intro p hp
    refine .bind ((hp s hs).mono ?_ fun _ _ ht => ht.1)
    exact fun _ t ht => .done ⟨ht, nofun⟩
  cases action with
  | appendEvents entries =>
    obtain ⟨reduced, hextended⟩ := hplan.extended
    refine .bind ((h.kept.appendEvents (J := fun _ => True) (fun _ _ _ _ => trivial) hs trivial
      hextended).mono ?_ fun _ _ ht => ht.1)
    exact fun _ t ht => .done ⟨ht, nofun⟩
  | generateLlm request => exact hgoesOn (h.kept.callEffect _ _)
  | compactContext request =>
    refine .bind (.act ?_)
    exact hgoesOn (h.kept.callEffect _ _)
  | invokeTools request => exact hgoesOn (h.kept.invokeTools request)
  | idle | closed => exact h.kept.comeToRest hs (hplan.planNext_eq_nil rfl)

/-- How the drive ends: at rest without a duty, or in a state that may roll over. -/
def Ended (args : AgentSessionArgs) : DriveOutcome → AgentSessionWorkflow → Prop
  | .idle, s => dutyAtRest args s.coreState = false
  | .yieldForWorkflowWork, _ => True
  | .continueAsNew, s => s.ready = true

theorem ready_of_allowsContinueAsNew (h : allowsContinueAsNew s = true) : s.ready = true := by
  simp only [allowsContinueAsNew, Bool.and_eq_true] at h
  obtain ⟨⟨⟨⟨⟨⟨⟨⟨⟨⟨hready, -⟩, -⟩, -⟩, -⟩, -⟩, -⟩, -⟩, -⟩, -⟩, -⟩ := h
  exact hready

/-- At a boundary of its history a session rolls over or yields. -/
theorem historyBoundary_ended {outcome : DriveOutcome}
    (h : historyBoundaryOutcome args s = some outcome) : Ended args outcome s := by
  unfold historyBoundaryOutcome historyBoundaryOutcomeFor at h
  split_ifs at h with hdue hsafe
  · cases h
    exact ready_of_allowsContinueAsNew (Bool.and_eq_true _ _ ▸ hsafe).2
  · cases h
    trivial

theorem committed_beside (s : AgentSessionWorkflow) : Beside s s.committed :=
  .queues rfl rfl rfl rfl rfl rfl rfl

theorem Kept.driveBoundaryAfterCommit (h : Kept args meets allowed I) (hs : I s) :
    Keeps sessionOutside meets (asleep P)
      (fun result t => I t ∧ ∀ outcome, result = some outcome → Ended args outcome t) (fun _ => I)
      (driveBoundaryAfterCommit args) s := by
  refine .bind (.act (.bind (.act (.done ⟨h.beside s _ hs (committed_beside s), ?_⟩))))
  intro outcome houtcome
  rcases Option.or_eq_some_iff.mp houtcome with hboundary | ⟨-, htransport⟩
  · exact historyBoundary_ended hboundary
  · split_ifs at htransport
    cases htransport
    trivial

/-- The drive's loop, from a plan for the core state as it is. -/
theorem DriveKept.driveRound (h : DriveKept args meets I) {action : CoreAgentAction} (hs : I s)
    (hplan : Plans args s.coreState action) :
    Keeps sessionOutside meets (asleep P)
      (afterRound (fun action t => I t ∧ Plans args t.coreState action)
        (fun outcome t => I t ∧ Ended args outcome t))
      (fun _ => I) (driveRound args action) s := by
  refine .bind ((h.publishPendingTools hs).mono ?_ fun _ _ ht => ht)
  rintro published t ⟨ht, hpublished⟩
  refine .bind ((Kept.replan ht hplan hpublished).mono ?_ fun _ _ hu => hu)
  rintro planned u ⟨hu, hplanned⟩
  refine .bind ((h.kept.drained hu).mono ?_ fun _ _ hv => hv)
  rintro drained v ⟨hv, hdrained⟩
  refine .bind ((Kept.replan hv hplanned hdrained).mono ?_ fun _ _ hw => hw)
  rintro replanned w ⟨hw, hreplanned⟩
  refine .bind ((h.carryOut hw hreplanned).mono ?_ fun _ _ hx => hx)
  rintro rested x ⟨hx, hrested⟩
  split_ifs with hrests
  · exact .done ⟨hx, hrested hrests⟩
  · refine .bind ((h.kept.driveBoundaryAfterCommit hx).mono ?_ fun _ _ hy => hy)
    rintro result y ⟨hy, hresult⟩
    cases result with
    | some outcome => exact .done ⟨hy, hresult outcome rfl⟩
    | none =>
      refine .bind ((Kept.planAction hy).mono ?_ fun _ _ hz => hz)
      exact fun action z hz => .done hz

theorem Kept.abandonPendingRun_beside (s : AgentSessionWorkflow) : Beside s s.abandonPendingRun :=
  ⟨rfl, rfl, rfl, rfl, id, id, .inl rfl⟩

theorem DriveKept.driveUntilIdle (h : DriveKept args meets I) (hs : I s) :
    Keeps sessionOutside meets (asleep P) (fun outcome t => I t ∧ Ended args outcome t) (fun _ => I)
      (driveUntilIdle args) s := by
  have hloop : ∀ t, I t → Keeps sessionOutside meets (asleep P)
      (fun outcome u => I u ∧ Ended args outcome u) (fun _ => I)
      (do
        let _ ← Session.publishPendingTools args
        let action ← Session.planAction args
        .loop (Session.driveRound args) action) t := by
    intro t ht
    refine .bind ((h.publishPendingTools ht).mono ?_ fun _ _ hu => hu)
    rintro _ u ⟨hu, -⟩
    refine .bind ((Kept.planAction hu).mono ?_ fun _ _ hv => hv)
    intro action v hv
    exact .loop (fun action t => I t ∧ Plans args t.coreState action)
      (fun _ w hw => h.driveRound hw.1 hw.2) hv
  refine .bind (.act ?_)
  dsimp only
  split
  next outcome hboundary => exact .done ⟨hs, historyBoundary_ended hboundary⟩
  · split_ifs
    · refine .bind (.act ?_)
      exact hloop _ (h.kept.beside s _ hs (Kept.abandonPendingRun_beside s))
    · exact hloop s hs

/-! ## Refusals -/

theorem Kept.putRefusalBlob (h : Kept args meets allowed I) :
    SessionKeeps meets P I putRefusalBlob :=
  .bind (h.ask fun _ => trivial) fun _ => .pure _

theorem Kept.failRefusedCompaction (h : Kept args meets (fun _ => True) I) (failureRef : BlobRef) :
    SessionKeeps meets P I (failRefusedCompaction args failureRef) := by
  intro s hs
  refine .bind (.act ?_)
  dsimp only
  split
  · exact .fail ⟨hs, trivial⟩
  · exact .fail ⟨hs, trivial⟩
  next entries _ hpropose =>
    have hproposed : ∃ reduced, Extended args (fun _ => True) s.coreState entries reduced :=
      extended_of_propose trivial hpropose
    obtain ⟨reduced, hextended⟩ := hproposed
    refine .bind (.attempt ((h.appendEvents (J := fun _ => True) (fun _ _ _ _ => trivial) hs trivial
      hextended).mono ?_ ?_))
    · exact fun _ t ht => .done ht
    · exact fun _ t ht => .fail ⟨ht.1, trivial⟩

theorem Kept.failRefusedWork (h : Kept args meets (fun _ => True) I) (error : SessionError) :
    SessionKeeps meets P I (failRefusedWork args error) := by
  cases error with
  | fatal => exact keeps_raise trivial
  | refused =>
    refine .bind keeps_read fun s => ?_
    split
    · refine .bind h.putRefusalBlob fun messageRef => ?_
      refine .bind (.attempt (h.admitAndAppendCommand _)) fun result => ?_
      split
      · exact .pure _
      · exact keeps_raise trivial
    · split
      · exact keeps_raise trivial
      · exact .bind h.putRefusalBlob fun failureRef => h.failRefusedCompaction failureRef

/-- Past its refusals a step of the drive comes to what it said itself, or to an end of the drive. -/
theorem DriveKept.drivePastRefusals (h : DriveKept args meets I)
    {step : SessionProgram DriveOutcome} {Q : DriveOutcome → AgentSessionWorkflow → Prop}
    (hstep : Keeps sessionOutside meets (asleep P) (fun outcome t => I t ∧ Q outcome t) (fun _ => I)
      step s) (hQ : ∀ outcome t, Ended args outcome t → Q outcome t) :
    Keeps sessionOutside meets (asleep P) (fun outcome t => I t ∧ Q outcome t) (fun _ => I)
      (drivePastRefusals args step) s := by
  let inv : Except SessionError DriveOutcome → AgentSessionWorkflow → Prop
    | .ok outcome, t => I t ∧ Q outcome t
    | .error _, t => I t
  refine .bind (.attempt (hstep.mono ?_ ?_))
  all_goals
    intro result t ht
    refine .loop inv ?_ ht
    intro result u hu
    cases result with
    | ok outcome => exact .done hu
    | error error =>
      refine .bind ((h.kept.failRefusedWork error u hu).mono ?_ fun _ _ hv => hv.1)
      intro _ v hv
      refine .bind (.attempt ((h.driveUntilIdle hv).mono ?_ ?_))
      · exact fun outcome w hw => .done ⟨hw.1, hQ outcome w hw.2⟩
      · exact fun error w hw => .done hw

end Lightspeed.Session
