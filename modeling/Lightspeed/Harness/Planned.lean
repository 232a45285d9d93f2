import Lightspeed.Harness.Steps

/-!
# What the planners propose

`Planned s proposals` lists, once, every form that a plan of a state can take, each with what its planner
knew. `planNext_cases` says that `plan_next` proposes nothing else.
-/

namespace Lightspeed.Harness

open Lib

/-- The proposals of a call that starts. -/
def ActiveToolBatch.startProposal (batch : ActiveToolBatch) (call : ToolCallState) :
    CoreAgentEventProposal :=
  batch.callProposal call.call.callId
    (.callStarted batch.runId batch.turnId batch.batchId call.call.callId call.call.toolName
      call.call.argumentsRef)

/-- The proposals of a call that is cancelled. -/
def ActiveToolBatch.cancelProposal (batch : ActiveToolBatch) (call : ToolCallState) :
    CoreAgentEventProposal :=
  batch.callProposal call.call.callId
    (.callCompleted batch.runId batch.turnId batch.batchId (cancelledToolResult call.call))

/-- The entries that a completing batch still owes context, if there are any. -/
def batchAppliedProposals (s : CoreAgentState) (batch : ActiveToolBatch)
    (entries : List ContextEntry) : List CoreAgentEventProposal :=
  if entries = [] then []
  else [⟨batch.joins, .context (.entriesApplied s.context.revision entries)⟩]

/-- No turn, no batch, and no turn that still owes a batch. -/
structure ActiveRun.AtBoundary (run : ActiveRun) : Prop where
  turn : run.activeTurnId = none
  batch : run.activeToolBatchId = none
  started : hasUnstartedToolCallTurn run = false

/-- The forms of a plan. -/
inductive Planned (s : CoreAgentState) : List CoreAgentEventProposal → Prop
  /-- An idle run with pending approvals parks. -/
  | parkRun {run : ActiveRun} (hopen : s.lifecycle.status = .open) (hactive : s.runs.active = some run)
      (hstatus : run.status = .running) (hidle : run.AtBoundary)
      (hpending : run.pendingApprovals ≠ []) :
      Planned s [runProposal run.runId (.approval (.runParked run.runId))]
  /-- The next queued run starts. -/
  | startRun {queued : AcceptedRun} {rest : List AcceptedRun} (hopen : s.lifecycle.status = .open)
      (hactive : s.runs.active = none) (hqueued : s.runs.queued = queued :: rest)
      (hcompaction : s.context.compaction.isPending = false) :
      Planned s [{ joins := { runId := some queued.runId, submissionId := queued.submissionId }
                   event := .run (.started queued.runId) }]
  /-- A cancelling run whose work has drained is cancelled. -/
  | cancelRun {run : ActiveRun} (hopen : s.lifecycle.status = .open) (hactive : s.runs.active = some run)
      (hstatus : run.status = .cancelling) (hidle : run.AtBoundary) :
      Planned s [runProposal run.runId (.run (.cancelled run.runId))]
  /-- The latest turn ends its run. -/
  | endRun {run : ActiveRun} {turnId : TurnId} {turn : TurnState} {event : RunEvent}
      (hopen : s.lifecycle.status = .open) (hactive : s.runs.active = some run)
      (hstatus : run.status = .running)
      (hturn : run.activeTurnId = none) (hbatch : run.activeToolBatchId = none)
      (happroval : planApprovalNext s = []) (hlast : run.turns.last? = some (turnId, turn))
      (hevent : turnTerminalEvent s run turnId turn = .ok (some event))
      (hsteering : event.isFailed = true → hasUnmaterializedSteering run = false) :
      Planned s [turnProposal run.runId turnId (.run event)]
  /-- The entry guard fails the run. -/
  | guardRun {run : ActiveRun} (hopen : s.lifecycle.status = .open) (hactive : s.runs.active = some run)
      (hstatus : run.status = .running) (hidle : run.AtBoundary)
      (happroval : planApprovalNext s = []) (hsteering : hasUnmaterializedSteering run = false) :
      Planned s [runProposal run.runId (.run (entryGuardFailure run))]
  /-- The accepted calls of the active batch start. -/
  | startCalls {run : ActiveRun} {batchId : ToolBatchId} {batch : ActiveToolBatch}
      (hopen : s.lifecycle.status = .open) (hactive : s.runs.active = some run)
      (hstatus : run.status = .running) (hturn : run.activeTurnId = none)
      (hid : run.activeToolBatchId = some batchId)
      (hbatch : run.toolBatches.get? batchId = some batch) (hparked : run.isParkedOn batchId = false)
      (hrun : batch.runId = run.runId) :
      Planned s ((batch.calls.filter (fun call => call.status == .accepted)).map batch.startProposal)
  /-- The open calls of a cancelling run's batch are cancelled. -/
  | cancelCalls {run : ActiveRun} {batchId : ToolBatchId} {batch : ActiveToolBatch}
      (hopen : s.lifecycle.status = .open) (hactive : s.runs.active = some run)
      (hstatus : run.status = .cancelling) (hturn : run.activeTurnId = none)
      (hid : run.activeToolBatchId = some batchId)
      (hbatch : run.toolBatches.get? batchId = some batch)
      (hparked : run.isParkedOn batchId = false) :
      Planned s ((batch.calls.filter (fun call => !call.status.isTerminal)).map batch.cancelProposal)
  /-- A batch whose calls are all terminal writes its results and completes. -/
  | completeBatch {run : ActiveRun} {batchId : ToolBatchId} {batch : ActiveToolBatch}
      {entries : List ContextEntry} (hopen : s.lifecycle.status = .open)
      (hactive : s.runs.active = some run)
      (hstatus : run.status = .running ∨ run.status = .cancelling)
      (hturn : run.activeTurnId = none) (hid : run.activeToolBatchId = some batchId)
      (hbatch : run.toolBatches.get? batchId = some batch) (hparked : run.isParkedOn batchId = false)
      (hterminal : batch.calls.all (fun call => call.status.isTerminal) = true)
      (hentries : toolResultContextEntries s batch = .ok entries) :
      Planned s (batchAppliedProposals s batch entries ++
        [⟨batch.joins, .tool (.batchCompleted batch.runId batch.turnId batch.batchId)⟩])
  /-- A turn that queued calls opens its batch. -/
  | startBatch {run : ActiveRun} {turnId : TurnId} {turn : TurnState} {facts : LlmGenerationFacts}
      {planned : PlannedRequestState} (hopen : s.lifecycle.status = .open)
      (hactive : s.runs.active = some run)
      (hstatus : run.status = .running ∨ run.status = .cancelling)
      (hturn : run.activeTurnId = none) (hbatch : run.activeToolBatchId = none)
      (hget : run.turns.get? turnId = some turn) (hawaits : awaitsBatch run turnId turn = true)
      (hfacts : turn.facts = some facts) (hcalls : facts.toolCalls ≠ [])
      (hplanned : turn.plannedRequest = some planned)
      (hrevision : planned.toolsetRevision = s.tooling.revision) :
      Planned s [{ joins := { runId := some run.runId, turnId := some turnId
                              toolBatchId := some (s.idCursors.lastToolBatchId + 1) }
                   event := .tool (.batchStarted run.runId turnId (s.idCursors.lastToolBatchId + 1)
                     planned.toolsetRevision facts.toolCalls) }]
  /-- A compaction that nothing waits for any more is given up. -/
  | abandonCompaction (hopen : s.lifecycle.status = .open)
      (hphase : s.context.compaction.isPending = true ∨ s.context.compaction.isQueued = true) :
      Planned s [compactionAbandonedProposal s]
  /-- What a provider compacted is removed. -/
  | pruneContext {proposal : CoreAgentEventProposal} (hopen : s.lifecycle.status = .open)
      (hcompaction : s.context.compaction.isPending = false)
      (hproposal : providerCompactedPruneProposal s = some proposal) : Planned s [proposal]
  /-- A compaction is requested. -/
  | requestCompaction {trigger : ContextCompactionTrigger} {tokens : Option Nat} (hopen : s.lifecycle.status = .open)
      (hboundary : compactionSafeBoundary s = true) (happroval : planApprovalNext s = [])
      (hcovers : standalonePrefixIds s ≠ [])
      (htrigger : trigger = .contextLimit → overflowAwaitsRecovery s = true) :
      Planned s [compactionRequestedProposal s trigger tokens]
  /-- The run's input goes into context. -/
  | applyInput {run : ActiveRun} (hopen : s.lifecycle.status = .open) (hactive : s.runs.active = some run)
      (hstatus : run.status = .running) (hcompaction : s.context.compaction.isPending = false)
      (hentries : missingRunInputEntries s run ≠ []) :
      Planned s [entriesAppliedProposal s run.runId (missingRunInputEntries s run)]
  /-- The run's steering goes into context. -/
  | applySteering {run : ActiveRun} (hopen : s.lifecycle.status = .open) (hactive : s.runs.active = some run)
      (hstatus : run.status = .running) (hcompaction : s.context.compaction.isPending = false)
      (hturn : run.activeTurnId = none) (hbatch : run.activeToolBatchId = none)
      (htool : planToolNext s = .ok []) (hentries : missingSteeringEntries s ≠ []) :
      Planned s [entriesAppliedProposal s run.runId (missingSteeringEntries s)]
  /-- The active turn of a cancelling run is cancelled. -/
  | cancelTurn {run : ActiveRun} {turnId : TurnId} {turn : TurnState} (hopen : s.lifecycle.status = .open)
      (hactive : s.runs.active = some run) (hstatus : run.status = .cancelling)
      (hid : run.activeTurnId = some turnId) (hturn : run.turns.get? turnId = some turn)
      (hopenTurn : turn.status = .started ∨ turn.status = .planned ∨
        turn.status = .generationPending) :
      Planned s [turnProposal run.runId turnId (.turn (.cancelled turnId run.runId))]
  /-- The active turn is planned against the current state. -/
  | planTurn {run : ActiveRun} {turnId : TurnId} {turn : TurnState} {request : LlmRequest}
      (hopen : s.lifecycle.status = .open) (hactive : s.runs.active = some run)
      (hstatus : run.status = .running)
      (hbatch : run.activeToolBatchId = none) (hid : run.activeTurnId = some turnId)
      (hturn : run.turns.get? turnId = some turn) (hstarted : turn.status = .started)
      (hrequest : buildLlmRequest s run turnId = .ok request) :
      Planned s [turnProposal run.runId turnId (.turn (.planned turnId run.runId
        request.requestFingerprint s.lifecycle.configRevision request.context.contextRevision
        s.tooling.revision))]
  /-- The planned turn asks for its generation. -/
  | requestGeneration {run : ActiveRun} {turnId : TurnId} {turn : TurnState} (hopen : s.lifecycle.status = .open)
      (hactive : s.runs.active = some run) (hid : run.activeTurnId = some turnId)
      (hturn : run.turns.get? turnId = some turn) (hplanned : turn.status = .planned)
      (hrequest : turn.plannedRequest.isSome = true) :
      Planned s [turnProposal run.runId turnId (.turn (.generationRequested turnId run.runId))]
  /-- The next turn starts, once no other planner has anything to do. -/
  | startTurn {run : ActiveRun} (hopen : s.lifecycle.status = .open) (hactive : s.runs.active = some run)
      (hstatus : run.status = .running) (hturn : run.activeTurnId = none)
      (hbatch : run.activeToolBatchId = none)
      (hcompaction : s.context.compaction.isPending = false)
      (happroval : planApprovalNext s = []) (htool : planToolNext s = .ok [])
      (hcontext : planContextNext s = []) :
      Planned s [turnProposal run.runId (s.idCursors.lastTurnId + 1)
        (.turn (.started (s.idCursors.lastTurnId + 1) run.runId))]

/-! ## The planners -/

variable {s : CoreAgentState} {run : ActiveRun} {proposals : List CoreAgentEventProposal}
  {proposal : CoreAgentEventProposal}

/-! ## Plans of several events -/

theorem mem_batchProposals {batch : ActiveToolBatch} {entries : List ContextEntry} {event : ToolEvent}
    (h : proposal ∈ batchAppliedProposals s batch entries ++ [⟨batch.joins, .tool event⟩]) :
    proposal = ⟨batch.joins, .context (.entriesApplied s.context.revision entries)⟩ ∨
      proposal = ⟨batch.joins, .tool event⟩ := by
  unfold batchAppliedProposals at h
  rcases List.mem_append.mp h with h | h
  · split_ifs at h
    · cases h
    · exact .inl (List.mem_singleton.mp h)
  · exact .inr (List.mem_singleton.mp h)

theorem providerCompactedPrune_eq_some (h : providerCompactedPruneProposal s = some proposal) :
    (providerCompactedEntries s).map ContextEntry.entryId ≠ [] ∧
      proposal = sessionProposal (.context (.entriesRemoved s.context.revision
        ((providerCompactedEntries s).map ContextEntry.entryId) .providerCompacted)) := by
  unfold providerCompactedPruneProposal at h
  dsimp only at h
  split_ifs at h with hnone
  exact ⟨hnone, (Option.some.inj h).symm⟩

/-! ## The planners -/

theorem planFirst_eq_ok {first second : Result (List CoreAgentEventProposal)} :
    planFirst first second = .ok proposals ↔
      (first = .ok proposals ∧ proposals ≠ []) ∨ (first = .ok [] ∧ second = .ok proposals) := by
  unfold planFirst
  cases first with
  | error e => simp
  | ok ps =>
    by_cases hps : ps = []
    · subst hps
      simp only [ok_bind, if_true, Except.ok.injEq, true_and]
      constructor
      · exact .inr
      · rintro (⟨rfl, hne⟩ | h)
        · exact absurd rfl hne
        · exact h
    · rw [ok_bind, if_neg hps]
      simp only [Except.ok.injEq, hps, false_and, or_false]
      constructor
      · rintro rfl
        exact ⟨rfl, hps⟩
      · exact And.left

theorem planApprovalNext_cases (hne : planApprovalNext s ≠ []) : Planned s (planApprovalNext s) := by
  unfold planApprovalNext at hne ⊢
  split at hne
  next run hopen hactive =>
    split_ifs at hne ⊢ with hguard
    · simp at hne
    · simp only [not_or, not_not, Option.isSome_iff_ne_none, ne_eq, Bool.not_eq_true] at hguard
      obtain ⟨hstatus, hturn, hbatch, hpending, hstarted⟩ := hguard
      exact .parkRun hopen hactive hstatus ⟨hturn, hbatch, hstarted⟩ hpending
  · simp at hne

theorem compactionSafeBoundary_iff :
    compactionSafeBoundary s = true ↔
      s.context.compaction.isPending = false ∧ hasActiveNonterminalToolBatch s = false ∧
        ∀ run, s.runs.active = some run → run.status = .running ∧ run.AtBoundary := by
  have hboundary : ∀ run : ActiveRun,
      run.AtBoundary ↔ run.activeTurnId = none ∧ run.activeToolBatchId = none ∧
        hasUnstartedToolCallTurn run = false :=
    fun run => ⟨fun h => ⟨h.turn, h.batch, h.started⟩, fun h => ⟨h.1, h.2.1, h.2.2⟩⟩
  unfold compactionSafeBoundary
  cases s.runs.active <;> simp [hboundary, and_assoc]

theorem entryGuard_boundary (h : entryGuard s run ≠ .clear) : compactionSafeBoundary s = true := by
  unfold entryGuard at h
  by_contra hboundary
  simp [hboundary] at h

theorem terminalRunProposal_cases (hopen : s.lifecycle.status = .open)
    (hactive : s.runs.active = some run) (hturn : run.activeTurnId = none)
    (hbatch : run.activeToolBatchId = none) (happroval : planApprovalNext s = [])
    (h : runningTerminalProposal s run = .ok (some proposal)) : Planned s [proposal] := by
  unfold runningTerminalProposal at h
  by_cases hstatus : run.status = .running
  · rw [if_pos hstatus] at h
    unfold terminalRunProposal at h
    split at h
    · cases h
    next turnId turn hlast =>
      obtain ⟨event, hevent, h⟩ := bind_eq_ok.mp h
      by_cases hsteering : event.any RunEvent.isFailed ∧ hasUnmaterializedSteering run
      · rw [if_pos hsteering] at h
        cases h
      · rw [if_neg hsteering] at h
        cases event with
        | none => cases h
        | some event =>
          cases h
          refine .endRun hopen hactive hstatus hturn hbatch happroval hlast hevent fun hfailed => ?_
          simpa [hfailed] using hsteering
  · rw [if_neg hstatus] at h
    cases h

theorem planActiveRun_cases (hopen : s.lifecycle.status = .open)
    (hactive : s.runs.active = some run) (happroval : planApprovalNext s = []) (h : planActiveRun s run = .ok proposals)
    (hne : proposals ≠ []) : Planned s proposals := by
  unfold planActiveRun at h
  by_cases hwork : run.activeTurnId.isSome ∨ run.activeToolBatchId.isSome
  · rw [if_pos hwork] at h
    exact absurd (Except.ok.inj h).symm hne
  rw [if_neg hwork] at h
  simp only [not_or, Bool.not_eq_true, Option.isSome_eq_false_iff,
    Option.isNone_iff_eq_none] at hwork
  by_cases hcancel : run.status = .cancelling ∧ ¬ hasUnstartedToolCallTurn run
  · rw [if_pos hcancel] at h
    obtain ⟨hstatus, hstarted⟩ := hcancel
    cases h
    exact .cancelRun hopen hactive hstatus ⟨hwork.1, hwork.2, by simpa using hstarted⟩
  rw [if_neg hcancel] at h
  obtain ⟨terminal, hterminal, h⟩ := bind_eq_ok.mp h
  cases terminal with
  | some proposal =>
    cases h
    exact terminalRunProposal_cases hopen hactive hwork.1 hwork.2 happroval hterminal
  | none =>
    by_cases hguard : entryGuard s run = .failRun ∧ ¬ hasUnmaterializedSteering run
    · simp only [if_pos hguard] at h
      cases h
      have hboundary := entryGuard_boundary (by rw [hguard.1]; simp)
      obtain ⟨hstatus, hidle⟩ := (compactionSafeBoundary_iff.mp hboundary).2.2 run hactive
      exact .guardRun hopen hactive hstatus hidle happroval (by simpa using hguard.2)
    · simp only [if_neg hguard] at h
      exact absurd (Except.ok.inj h).symm hne

theorem planRunNext_cases (happroval : planApprovalNext s = [])
    (h : planRunNext s = .ok proposals) (hne : proposals ≠ []) :
    Planned s proposals := by
  unfold planRunNext at h
  split_ifs at h with hguard
  · exact absurd (Except.ok.inj h).symm hne
  · simp only [not_or, not_not, Bool.not_eq_true] at hguard
    obtain ⟨hpending, -, hopen⟩ := hguard
    split at h
    next run hactive => exact planActiveRun_cases hopen hactive happroval h hne
    · exact absurd (Except.ok.inj h).symm hne
    next queued rest hactive hqueued =>
      cases h
      exact .startRun hopen hactive hqueued hpending

theorem planBatchStart_cases (hopen : s.lifecycle.status = .open)
    (hactive : s.runs.active = some run) (hturn : run.activeTurnId = none)
    (hbatch : run.activeToolBatchId = none)
    (hstatus : run.status = .running ∨ run.status = .cancelling)
    {turns : List (TurnId × TurnState)}
    (hturns : ∀ turnId turn, (turnId, turn) ∈ turns → run.turns.get? turnId = some turn)
    (h : planBatchStart s run turns = .ok proposals) (hne : proposals ≠ []) :
    Planned s proposals := by
  induction turns with
  | nil => exact absurd (Except.ok.inj h).symm hne
  | cons first rest ih =>
    obtain ⟨turnId, turn⟩ := first
    have ih := ih fun turnId turn hmem => hturns turnId turn (List.mem_cons_of_mem _ hmem)
    rw [planBatchStart] at h
    by_cases hawaits : awaitsBatch run turnId turn = true
    · rw [if_neg (not_not_intro hawaits)] at h
      obtain ⟨facts, hfacts, h⟩ := bind_eq_ok.mp h
      split_ifs at h with hcalls
      · exact ih h
      · simp only [bind_eq_ok, orError_eq_ok, require_eq_ok, exists_unit, Except.ok.injEq] at h
        obtain ⟨planned, hplanned, hrevision, rfl⟩ := h
        exact .startBatch hopen hactive hstatus hturn hbatch (hturns _ _ List.mem_cons_self)
          hawaits (orError_eq_ok.mp hfacts) hcalls hplanned hrevision
    · rw [if_pos hawaits] at h
      exact ih h

theorem decideActiveToolBatchCompletion_cases (hopen : s.lifecycle.status = .open)
    (hactive : s.runs.active = some run) (hturn : run.activeTurnId = none)
    {batchId : ToolBatchId} (hid : run.activeToolBatchId = some batchId)
    (hstatus : run.status = .running ∨ run.status = .cancelling)
    (h : decideActiveToolBatchCompletion s run batchId = .ok proposals) (hne : proposals ≠ []) :
    Planned s proposals := by
  simp only [decideActiveToolBatchCompletion, bind_eq_ok, orError_eq_ok] at h
  obtain ⟨batch, hbatch, h⟩ := h
  split_ifs at h with hguard
  · exact absurd (Except.ok.inj h).symm hne
  · simp only [not_or, Bool.not_eq_true, Bool.not_eq_false] at hguard
    obtain ⟨entries, hentries, h⟩ := bind_eq_ok.mp h
    cases h
    exact .completeBatch hopen hactive hstatus hturn hid hbatch hguard.1 hguard.2 hentries

theorem planActiveBatch_cases (hopen : s.lifecycle.status = .open)
    (hactive : s.runs.active = some run) (hturn : run.activeTurnId = none)
    (h : planActiveBatch s run = .ok proposals) (hne : proposals ≠ []) : Planned s proposals := by
  unfold planActiveBatch at h
  split at h
  next batchId hid =>
    split at h
    next hstatus =>
      rcases planFirst_eq_ok.mp h with ⟨h, -⟩ | ⟨-, h⟩
      · simp only [decideActiveToolBatchInvocations, bind_eq_ok, orError_eq_ok] at h
        obtain ⟨batch, hbatch, h⟩ := h
        split_ifs at h with hparked
        · exact absurd (Except.ok.inj h).symm hne
        · simp only [bind_eq_ok, require_eq_ok, exists_unit, Except.ok.injEq] at h
          obtain ⟨hrun, rfl⟩ := h
          exact .startCalls hopen hactive hstatus hturn hid hbatch (by simpa using hparked) hrun
      · exact decideActiveToolBatchCompletion_cases hopen hactive hturn hid (.inl hstatus) h hne
    next hstatus =>
      rcases planFirst_eq_ok.mp h with ⟨h, -⟩ | ⟨-, h⟩
      · simp only [decideCancellingToolBatchCalls, bind_eq_ok, orError_eq_ok] at h
        obtain ⟨batch, hbatch, h⟩ := h
        split_ifs at h with hparked
        · exact absurd (Except.ok.inj h).symm hne
        · cases h
          exact .cancelCalls hopen hactive hstatus hturn hid hbatch (by simpa using hparked)
      · exact decideActiveToolBatchCompletion_cases hopen hactive hturn hid (.inr hstatus) h hne
    · exact absurd (Except.ok.inj h).symm hne
  next hid =>
    split_ifs at h with hstatus
    · exact planBatchStart_cases hopen hactive hturn hid hstatus
        (fun _ _ => OrdMap.get?_eq_some_iff.mpr) h hne
    · exact absurd (Except.ok.inj h).symm hne

theorem planToolNext_cases (h : planToolNext s = .ok proposals) (hne : proposals ≠ []) :
    Planned s proposals := by
  unfold planToolNext at h
  split at h
  next run hopen hactive =>
    split_ifs at h with hturn
    · exact absurd (Except.ok.inj h).symm hne
    · exact planActiveBatch_cases hopen hactive (by simpa using hturn) h hne
  · exact absurd (Except.ok.inj h).symm hne

theorem standalonePrefixIds_ne_nil_of_entryCount (h : entryCountCallsForCompaction s = true) :
    standalonePrefixIds s ≠ [] := by
  intro hcovers
  simp only [entryCountCallsForCompaction, hcovers, List.length_nil, Nat.sub_zero,
    Bool.and_eq_true, decide_eq_true_eq] at h
  omega

theorem entryGuard_compact (h : entryGuard s run = .compact) : standalonePrefixIds s ≠ [] := by
  unfold entryGuard at h
  split_ifs at h with h1 h2
  simpa using h2.2.2

/-- Every compaction that is proposed for room covers something. -/
theorem highWatermarkCompactionProposal_cases {config : SessionConfig}
    (hopen : s.lifecycle.status = .open) (hboundary : compactionSafeBoundary s = true)
    (happroval : planApprovalNext s = [])
    (h : highWatermarkCompactionProposal s config = some proposal) : Planned s [proposal] := by
  have hrequest : ∀ tokens, standalonePrefixIds s ≠ [] →
      Planned s [compactionRequestedProposal s .highWatermark tokens] := fun tokens hcovers =>
    .requestCompaction hopen hboundary happroval hcovers (by simp)
  unfold highWatermarkCompactionProposal at h
  by_cases henabled : compactionEnabled config = true
  swap
  · rw [if_pos henabled] at h
    cases h
  rw [if_neg (not_not_intro henabled)] at h
  split at h
  · cases h
  next run hactive =>
    split at h
    next hguard =>
      cases h
      exact hrequest _ (entryGuard_compact hguard)
    · cases h
    · split_ifs at h with hfinished hcount
      · cases h
        exact hrequest _ (standalonePrefixIds_ne_nil_of_entryCount hcount)
      · unfold tokenWatermarkProposal at h
        simp only at h
        split_ifs at h
        simp only [Option.bind_eq_bind, Option.bind_eq_some_iff] at h
        obtain ⟨threshold, -, tokens, -, h⟩ := h
        split_ifs at h with hguard
        cases h
        simp only [not_or] at hguard
        exact hrequest _ hguard.2.2

theorem nextCompactionProposal_cases (hopen : s.lifecycle.status = .open)
    (happroval : planApprovalNext s = []) (h : nextCompactionProposal s = some proposal) :
    Planned s [proposal] := by
  unfold nextCompactionProposal at h
  by_cases hboundary : compactionSafeBoundary s = true
  swap
  · rw [if_pos hboundary] at h
    cases h
  rw [if_neg (not_not_intro hboundary)] at h
  by_cases hqueued : s.context.compaction.isQueued = true
  · rw [if_pos hqueued] at h
    split_ifs at h with hcovers
    · cases h
      exact .abandonCompaction hopen (.inr hqueued)
    · cases h
      exact .requestCompaction hopen hboundary happroval hcovers (by simp)
  · rw [if_neg hqueued] at h
    split at h
    · cases h
    next config hconfig =>
      split_ifs at h with hroom hoverflow
      · unfold overflowCompactionProposal at h
        split_ifs at h with hguard
        cases h
        exact .requestCompaction hopen hboundary happroval hguard.2.2 (fun _ => hoverflow)
      · exact highWatermarkCompactionProposal_cases hopen hboundary happroval h

theorem planMaterialization_cases (hopen : s.lifecycle.status = .open)
    (hactive : s.runs.active = some run) (hstatus : run.status = .running)
    (hpending : s.context.compaction.isPending = false) (htool : planToolNext s = .ok [])
    (hne : planMaterialization s run ≠ []) : Planned s (planMaterialization s run) := by
  unfold planMaterialization at hne ⊢
  split_ifs at hne ⊢ with hinput hwork hsteering
  · exact .applyInput hopen hactive hstatus hpending hinput
  · exact absurd rfl hne
  · simp only [not_or, Bool.not_eq_true, Option.isSome_eq_false_iff,
      Option.isNone_iff_eq_none] at hwork
    exact .applySteering hopen hactive hstatus hpending hwork.1 hwork.2 htool hsteering
  · exact absurd rfl hne

theorem planContextNext_cases (happroval : planApprovalNext s = [])
    (htool : planToolNext s = .ok []) (hne : planContextNext s ≠ []) :
    Planned s (planContextNext s) := by
  unfold planContextNext at hne ⊢
  by_cases hopen : s.lifecycle.status = .open
  swap
  · exact absurd (if_pos hopen) hne
  rw [if_neg (not_not_intro hopen)] at hne ⊢
  by_cases horphaned : compactionIsOrphaned s = true
  · rw [if_pos horphaned]
    have hphase : s.context.compaction.isPending = true := by
      unfold compactionIsOrphaned ContextCompactionState.pendingPlan at horphaned
      unfold ContextCompactionState.isPending
      split at horphaned <;> simp_all
    exact .abandonCompaction hopen (.inl hphase)
  rw [if_neg horphaned] at hne ⊢
  by_cases hpending : s.context.compaction.isPending = true
  · exact absurd (if_pos hpending) hne
  rw [if_neg hpending] at hne ⊢
  rw [Bool.not_eq_true] at hpending
  cases hprune : providerCompactedPruneProposal s with
  | some proposal => exact .pruneContext hopen hpending hprune
  | none =>
    cases hnext : nextCompactionProposal s with
    | some proposal => exact nextCompactionProposal_cases hopen happroval hnext
    | none =>
      rw [hprune, hnext] at hne
      cases hactive : s.runs.active with
      | none => exact absurd (by rw [hactive]) hne
      | some run =>
        simp only [hactive] at hne ⊢
        split_ifs at hne ⊢ with hstatus
        · exact planMaterialization_cases hopen hactive hstatus hpending htool hne
        · exact absurd rfl hne

theorem decideActiveTurnProgress_cases (hopen : s.lifecycle.status = .open)
    (hactive : s.runs.active = some run) (hbatch : run.activeToolBatchId = none) {turnId : TurnId}
    (hid : run.activeTurnId = some turnId)
    (h : decideActiveTurnProgress s run turnId = .ok proposals) (hne : proposals ≠ []) :
    Planned s proposals := by
  simp only [decideActiveTurnProgress, bind_eq_ok, orError_eq_ok] at h
  obtain ⟨turn, hturn, h⟩ := h
  by_cases hcancel : run.status = .cancelling ∧
      (turn.status = .started ∨ turn.status = .planned ∨ turn.status = .generationPending)
  · rw [if_pos hcancel] at h
    cases h
    exact .cancelTurn hopen hactive hcancel.1 hid hturn hcancel.2
  rw [if_neg hcancel] at h
  split at h
  next hstarted =>
    by_cases hstatus : run.status = .running
    · rw [if_neg (not_not_intro hstatus)] at h
      obtain ⟨request, hrequest, h⟩ := bind_eq_ok.mp h
      cases h
      exact .planTurn hopen hactive hstatus hbatch hid hturn hstarted hrequest
    · rw [if_pos hstatus] at h
      exact absurd (Except.ok.inj h).symm hne
  next hplanned =>
    by_cases hstatus : run.status = .running
    · rw [if_neg (not_not_intro hstatus)] at h
      simp only [bind_eq_ok, require_eq_ok, exists_unit, Except.ok.injEq] at h
      obtain ⟨hrequest, rfl⟩ := h
      exact .requestGeneration hopen hactive hid hturn hplanned hrequest
    · rw [if_pos hstatus] at h
      exact absurd (Except.ok.inj h).symm hne
  · exact absurd (Except.ok.inj h).symm hne

theorem planTurnNext_cases (happroval : planApprovalNext s = []) (htool : planToolNext s = .ok [])
    (hcontext : planContextNext s = []) (h : planTurnNext s = .ok proposals) (hne : proposals ≠ []) :
    Planned s proposals := by
  unfold planTurnNext at h
  split_ifs at h with hguard
  · exact absurd (Except.ok.inj h).symm hne
  · simp only [not_or, not_not, Bool.not_eq_true] at hguard
    obtain ⟨hopen, hpending⟩ := hguard
    split at h
    · exact absurd (Except.ok.inj h).symm hne
    next run hactive =>
      unfold planActiveTurn at h
      by_cases hbatch : run.activeToolBatchId.isSome
      · rw [if_pos hbatch] at h
        exact absurd (Except.ok.inj h).symm hne
      rw [if_neg hbatch] at h
      simp only [Bool.not_eq_true, Option.isSome_eq_false_iff, Option.isNone_iff_eq_none] at hbatch
      split at h
      next turnId hid => exact decideActiveTurnProgress_cases hopen hactive hbatch hid h hne
      next hid =>
        by_cases hstatus : run.status = .running
        · rw [if_neg (not_not_intro hstatus)] at h
          obtain ⟨terminal, -, h⟩ := bind_eq_ok.mp h
          cases terminal with
          | true => exact absurd (Except.ok.inj h).symm hne
          | false =>
            cases h
            exact .startTurn hopen hactive hstatus hid hbatch hpending happroval htool hcontext
        · rw [if_pos hstatus] at h
          exact absurd (Except.ok.inj h).symm hne

/-- `plan_next` proposes nothing but the forms of `Planned`. -/
theorem planNext_cases (h : planNext s = .ok proposals) (hne : proposals ≠ []) :
    Planned s proposals := by
  unfold planNext at h
  rcases planFirst_eq_ok.mp h with ⟨happroval, -⟩ | ⟨happroval, h⟩
  · obtain rfl := Except.ok.inj happroval
    exact planApprovalNext_cases hne
  rcases planFirst_eq_ok.mp h with ⟨hrun, -⟩ | ⟨hrun, h⟩
  · exact planRunNext_cases (Except.ok.inj happroval) hrun hne
  rcases planFirst_eq_ok.mp h with ⟨htool, -⟩ | ⟨htool, h⟩
  · exact planToolNext_cases htool hne
  rcases planFirst_eq_ok.mp h with ⟨hcontext, -⟩ | ⟨hcontext, h⟩
  · obtain rfl := Except.ok.inj hcontext
    exact planContextNext_cases (Except.ok.inj happroval) htool hne
  · exact planTurnNext_cases (Except.ok.inj happroval) htool (Except.ok.inj hcontext) h hne

end Lightspeed.Harness
