import Lightspeed.Harness.TurnLimits

/-!
# Starting a turn

The turn planner itself refuses almost nothing: it starts a turn whenever the four planners before it have
nothing to propose. `startsTurn_of_plan` reads back what their silence means. Under the invariant it means
that the context is below the entry guard (`startsTurn_entries`) and that the turn limit is not reached
(`startsTurn_limit`). `reachable_warranted` says that what the planners knew holds of every log: each turn
in it was started, and each compaction asked for, in a state in which the planners asked for it.
-/

namespace Lightspeed.Harness

open Lib

variable {sessionId : SessionId} {base s t u : CoreAgentState} {run : ActiveRun}
  {input : DriveInput} {entry : CoreAgentEntry} {proposal : CoreAgentEventProposal}
  {proposals : List CoreAgentEventProposal} {log : List CoreAgentEntry} {ms : Nat} {turnId : TurnId}
  {runId : RunId}

/-! ## What the other planners leave -/

/-- What holds of the active run when a plan starts a turn of it. -/
structure StartsTurn (s : CoreAgentState) (run : ActiveRun) : Prop where
  isOpen : s.lifecycle.status = .open
  active : s.runs.active = some run
  running : run.status = .running
  boundary : run.AtBoundary
  safe : compactionSafeBoundary s = true
  unqueued : s.context.compaction.isQueued = false
  uncompacted : nextCompactionProposal s = none
  supplied : run.source.input.length ≤ run.inputEntryIds.length
  written : hasUnmaterializedSteering run = false
  guarded : entryGuard s run ≠ .failRun
  survives : ∀ turnId turn, run.turns.last? = some (turnId, turn) →
    turnTerminalEvent s run turnId turn = .ok none

theorem contextEntriesAfter_eq_nil {last : Nat} {inputs : List SourcedInput} :
    contextEntriesAfter s last inputs = [] ↔ inputs = [] := by
  cases inputs with
  | nil => simp [contextEntriesAfter]
  | cons first rest =>
    obtain ⟨key, source, input⟩ := first
    simp [contextEntriesAfter]

/-- Steering that is not in context yet is owed to it. -/
theorem missingSteering_of_unmaterialized (hactive : s.runs.active = some run)
    (h : hasUnmaterializedSteering run = true) : missingSteeringEntries s ≠ [] := by
  rw [hasUnmaterializedSteering, List.any_eq_true] at h
  obtain ⟨batch, hbatch, hshort⟩ := h
  simp only [decide_eq_true_eq] at hshort
  unfold missingSteeringEntries missingSteeringEntriesAfter
  simp only [hactive, ne_eq, contextEntriesAfter_eq_nil, List.flatMap_eq_nil_iff, not_forall]
  refine ⟨batch, hbatch, ?_⟩
  rw [SteeringBatch.missingInputs, List.map_eq_nil_iff, List.drop_eq_nil_iff, List.length_zipIdx]
  omega

theorem boundary_idle (hinv : Inv s) (hactive : s.runs.active = some run)
    (hidle : run.activeToolBatchId = none) : hasActiveNonterminalToolBatch s = false := by
  rw [hasActiveNonterminalToolBatch, hactive, Option.any_some, List.any_eq_false]
  intro batch hbatch
  obtain ⟨id, hget⟩ := OrdMap.mem_values.mp hbatch
  have hid := (hinv.run run hactive).batchOnly id (OrdMap.mem_keys.mpr ⟨batch, hget⟩)
  rw [hidle] at hid
  cases hid

/-- The context planner plans nothing: no compaction is due, and all input and steering is in context. -/
theorem planContextNext_eq_nil (hopen : s.lifecycle.status = .open)
    (hactive : s.runs.active = some run) (hrunning : run.status = .running)
    (hturn : run.activeTurnId = none) (hbatch : run.activeToolBatchId = none)
    (hpending : s.context.compaction.isPending = false) (h : planContextNext s = []) :
    nextCompactionProposal s = none ∧ run.source.input.length ≤ run.inputEntryIds.length ∧
      hasUnmaterializedSteering run = false := by
  have horphaned : compactionIsOrphaned s = false := by
    cases hphase : s.context.compaction.phase with
    | pending plan => simp [ContextCompactionState.isPending, hphase] at hpending
    | _ => simp [compactionIsOrphaned, ContextCompactionState.pendingPlan, hphase]
  rw [planContextNext, if_neg (not_not_intro hopen), if_neg (by simp [horphaned]),
    if_neg (by simp [hpending])] at h
  split at h
  · cases h
  · split at h
    · cases h
    next hnext =>
      simp only [hactive, if_pos hrunning, planMaterialization] at h
      have hsupplied : run.source.input.length ≤ run.inputEntryIds.length := by
        by_contra hshort
        have hinput : missingRunInputEntries s run ≠ [] := by
          rw [missingRunInputEntries, contextEntriesFromInputs, ne_eq, contextEntriesAfter_eq_nil,
            List.map_eq_nil_iff, List.drop_eq_nil_iff, List.length_zipIdx]
          exact hshort
        rw [if_pos hinput] at h
        cases h
      refine ⟨hnext, hsupplied, Bool.eq_false_iff.mpr fun hunwritten => ?_⟩
      have hmissing := missingSteering_of_unmaterialized hactive hunwritten
      split_ifs at h with hinput hwork
      simp [hturn, hbatch] at hwork

theorem terminalRunProposal_event (h : terminalRunProposal s run = .ok (some proposal)) :
    ∃ event, proposal.event = .run event := by
  unfold terminalRunProposal at h
  split at h
  · cases h
  · obtain ⟨event, -, h⟩ := bind_eq_ok.mp h
    split_ifs at h
    · cases h
    · obtain ⟨event, -, rfl⟩ := Option.map_eq_some_iff.mp (Except.ok.inj h)
      exact ⟨event, rfl⟩

/-- What the run planner proposes for a running run at rest: the end of the run, or nothing. -/
theorem planActiveRun_running (hrunning : run.status = .running) (hturn : run.activeTurnId = none)
    (hbatch : run.activeToolBatchId = none) (h : planActiveRun s run = .ok proposals) :
    (∃ proposal event, proposals = [proposal] ∧ proposal.event = .run event) ∨
      (terminalRunProposal s run = .ok none ∧
        ¬ (entryGuard s run = .failRun ∧ ¬ hasUnmaterializedSteering run)) := by
  rw [planActiveRun, if_neg (by simp [hturn, hbatch]), if_neg (by simp [hrunning])] at h
  obtain ⟨terminal, hterminal, h⟩ := bind_eq_ok.mp h
  rw [runningTerminalProposal, if_pos hrunning] at hterminal
  cases terminal with
  | some proposal =>
    obtain rfl := Except.ok.inj h
    obtain ⟨event, hevent⟩ := terminalRunProposal_event hterminal
    exact .inl ⟨proposal, event, rfl, hevent⟩
  | none =>
    dsimp only at h
    by_cases hguard : entryGuard s run = .failRun ∧ ¬ hasUnmaterializedSteering run
    · rw [if_pos hguard] at h
      obtain rfl := Except.ok.inj h
      exact .inl ⟨_, _, rfl, rfl⟩
    · exact .inr ⟨hterminal, hguard⟩

/-- Of the forms of a plan, only one starts a turn. -/
theorem planned_start (hplan : Planned s proposals) (hmem : proposal ∈ proposals)
    (hevent : proposal.event = .turn (.started turnId runId)) :
    ∃ run, proposals = [turnProposal run.runId (s.idCursors.lastTurnId + 1)
        (.turn (.started (s.idCursors.lastTurnId + 1) run.runId))] ∧
      s.lifecycle.status = .open ∧ s.runs.active = some run ∧ run.status = .running ∧
      run.activeTurnId = none ∧ run.activeToolBatchId = none ∧
      s.context.compaction.isPending = false ∧ planApprovalNext s = [] ∧ planToolNext s = .ok [] ∧
      planContextNext s = [] := by
  cases hplan with
  | startTurn hopen hactive hstatus hturn hbatch hcompaction happroval htool hcontext =>
    exact ⟨_, rfl, hopen, hactive, hstatus, hturn, hbatch, hcompaction, happroval, htool, hcontext⟩
  | startCalls | cancelCalls =>
    obtain ⟨call, -, rfl⟩ := List.mem_map.mp hmem
    cases hevent
  | completeBatch => rcases mem_batchProposals hmem with rfl | rfl <;> cases hevent
  | pruneContext _ _ hproposal =>
    obtain ⟨-, rfl⟩ := providerCompactedPrune_eq_some hproposal
    rw [List.mem_singleton.mp hmem] at hevent
    cases hevent
  | _ =>
    rw [List.mem_singleton.mp hmem] at hevent
    cases hevent

/-- A plan that starts a turn starts the next turn of the active run, and proposes nothing else. -/
theorem startsTurn_of_plan (hinv : Inv s) (hplan : planNext s = .ok proposals)
    (hmem : proposal ∈ proposals) (hevent : proposal.event = .turn (.started turnId runId)) :
    ∃ run, StartsTurn s run ∧ runId = run.runId ∧
      proposals = [turnProposal run.runId (s.idCursors.lastTurnId + 1)
        (.turn (.started (s.idCursors.lastTurnId + 1) run.runId))] := by
  obtain ⟨run, hform, hopen, hactive, hrunning, hturn, hbatch, hpending, happroval, htool, hcontext⟩ :=
    planned_start (planNext_cases hplan (List.ne_nil_of_mem hmem)) hmem hevent
  have hboundary := atBoundary_of_plan hinv hopen hactive hrunning hturn hbatch htool
  obtain ⟨huncompacted, hsupplied, hwritten⟩ :=
    planContextNext_eq_nil hopen hactive hrunning hturn hbatch hpending hcontext
  have hsafe : compactionSafeBoundary s = true := by
    refine compactionSafeBoundary_iff.mpr ⟨hpending, boundary_idle hinv hactive hbatch, ?_⟩
    intro run' hactive'
    obtain rfl : run = run' := Option.mem_unique hactive hactive'
    exact ⟨hrunning, hboundary⟩
  have hunqueued : s.context.compaction.isQueued = false := by
    by_contra hqueued
    rw [Bool.not_eq_false] at hqueued
    unfold nextCompactionProposal at huncompacted
    rw [if_neg (not_not_intro hsafe), if_pos hqueued] at huncompacted
    split_ifs at huncompacted
  have hrun : terminalRunProposal s run = .ok none ∧
      ¬ (entryGuard s run = .failRun ∧ ¬ hasUnmaterializedSteering run) := by
    have hnext : planRunNext s = planActiveRun s run := by
      rw [planRunNext, if_neg (by simp [hpending, hunqueued, hopen]), hactive]
    obtain ⟨ends, hends, hform'⟩ : ∃ ends, planRunNext s = .ok ends ∧ (ends = proposals ∨ ends = []) := by
      rw [planNext, happroval] at hplan
      rcases planFirst_eq_ok.mp hplan with ⟨hnil, hne⟩ | ⟨-, hrest⟩
      · exact absurd (Except.ok.inj hnil).symm hne
      · rcases planFirst_eq_ok.mp hrest with ⟨hrun, -⟩ | ⟨hrun, -⟩
        · exact ⟨_, hrun, .inl rfl⟩
        · exact ⟨_, hrun, .inr rfl⟩
    rcases planActiveRun_running hrunning hturn hbatch (hnext ▸ hends) with
      ⟨ending, event, rfl, hending⟩ | hsilent
    · rcases hform' with heq | heq
      · rw [hform, List.singleton_inj] at heq
        rw [heq] at hending
        cases hending
      · cases heq
    · exact hsilent
  have hrunId : runId = run.runId := by
    rw [hform, List.mem_singleton] at hmem
    rw [hmem] at hevent
    cases hevent
    rfl
  refine ⟨run, ⟨hopen, hactive, hrunning, hboundary, hsafe, hunqueued, huncompacted, hsupplied, hwritten, ?_,
    ?_⟩, hrunId, hform⟩
  · exact fun hguard => hrun.2 ⟨hguard, by simp [hwritten]⟩
  · intro turnId turn hlast
    have hterminal := hrun.1
    rw [terminalRunProposal, hlast] at hterminal
    obtain ⟨event, hevent, hterminal⟩ := bind_eq_ok.mp hterminal
    rw [if_neg (by simp [hwritten]), Except.ok.injEq, Option.map_eq_none_iff] at hterminal
    rw [hevent, hterminal]

/-! ## What it means for the run -/

/-- The guard asks for a compaction. -/
theorem entryGuard_compact_iff : entryGuard s run = .compact ↔
    entryGuardLimit ≤ s.context.entries.length ∧ compactionSafeBoundary s = true ∧
      run.entryGuardAttempted = false ∧ s.lifecycle.config.any compactionEnabled = true ∧
      standalonePrefixIds s ≠ [] := by
  unfold entryGuard
  by_cases hclear : s.context.entries.length < entryGuardLimit ∨ ¬ compactionSafeBoundary s
  · rw [if_pos hclear]
    refine iff_of_false nofun fun h => ?_
    rcases hclear with hshort | hunsafe
    · omega
    · exact hunsafe h.2.1
  · rw [if_neg hclear]
    rw [not_or, not_lt, not_not] at hclear
    split_ifs with hcompact
    · refine iff_of_true rfl ⟨hclear.1, hclear.2, ?_⟩
      simpa using hcompact
    · refine iff_of_false nofun fun h => hcompact ?_
      simpa using h.2.2

theorem turnLimitFailure_eq_none (hidle : run.AtBoundary) :
    turnLimitFailure s run = none ↔ turnLimitReached s run = false := by
  simp [turnLimitFailure, hidle.started]

/-- The latest turn of a run that starts another has completed, short of the limit, and an overflow of it
can still be recovered from. -/
theorem startsTurn_latest (hinv : Inv s) (h : StartsTurn s run) {turn : TurnState}
    (hlast : run.turns.last? = some (turnId, turn)) :
    turn.status = .completed ∧ turnLimitReached s run = false ∧
      (turn.hitContextLimit = true → overflowIsTerminal s run turn = false) := by
  have hget := OrdMap.get?_of_last? hlast
  obtain ⟨outcome, houtcome, hstatus⟩ :=
    (hinv.run run h.active).endedTurn turnId turn hget (by simp [h.boundary.turn])
  have hsurvives := h.survives turnId turn hlast
  rw [turnTerminalEvent, hstatus, houtcome] at hsurvives
  cases outcome with
  | finalOutput output =>
    simp only [TurnOutcome.status] at hsurvives
    split_ifs at hsurvives with hsteering
    · have hnone := Except.ok.inj hsurvives
      exact ⟨hstatus, (turnLimitFailure_eq_none h.boundary).mp hnone,
        by simp [TurnState.hitContextLimit, houtcome]⟩
    · cases hsurvives
  | contextLimit failureRef =>
    simp only [TurnOutcome.status] at hsurvives
    split_ifs at hsurvives with hterminal
    · cases hsurvives
    · have hnone := Except.ok.inj hsurvives
      exact ⟨hstatus, (turnLimitFailure_eq_none h.boundary).mp hnone,
        fun _ => by simpa using hterminal⟩
  | toolCallsQueued | approvalsRequested =>
    have hnone := Except.ok.inj hsurvives
    exact ⟨hstatus, (turnLimitFailure_eq_none h.boundary).mp hnone,
      by simp [TurnState.hitContextLimit, houtcome]⟩
  | failed failureRef | rejected failureRef | cancelled => cases hsurvives

/-- A run whose limit is reached starts no turn. -/
theorem startsTurn_limit (hinv : Inv s) (hlimit : LimitInv s) (h : StartsTurn s run) :
    turnLimitReached s run = false := by
  cases hlast : run.turns.last? with
  | some latest => exact (startsTurn_latest hinv h hlast).2.1
  | none =>
    have hcount : run.turnCount = 0 := hlimit.begun run h.active hlast
    by_contra hreached
    rw [Bool.not_eq_false, turnLimitReached_iff] at hreached
    obtain ⟨limit, heffective, hle⟩ := hreached
    obtain rfl : limit = 0 := by omega
    rw [effectiveMaxTurns, Option.or_eq_some_iff] at heffective
    rcases heffective with hown | ⟨-, hsession⟩
    · exact hlimit.active run h.active hown
    · obtain ⟨config, hconfig, hzero⟩ := Option.bind_eq_some_iff.mp hsession
      exact hlimit.config config hconfig hzero

/-- A run that starts a turn still has a use for room. -/
theorem startsTurn_room (hinv : Inv s) (hlimit : LimitInv s) (h : StartsTurn s run) :
    roomIsUseless s ≠ true := by
  rw [roomIsUseless, h.active, Option.any_some, startsTurn_limit hinv hlimit h, Bool.or_false,
    ActiveRun.latestTurn]
  cases hlast : run.turns.last? with
  | none => simp
  | some latest =>
    obtain ⟨turnId, turn⟩ := latest
    have hcompleted := (startsTurn_latest hinv h hlast).1
    simp [hcompleted]

/-- An overflow that waits for its recovery is recovered from before another turn starts. -/
theorem startsTurn_overflow (hinv : Inv s) (h : StartsTurn s run) {config : SessionConfig}
    (hconfig : s.lifecycle.config = some config) (henabled : compactionEnabled config = true)
    (hcovers : standalonePrefixIds s ≠ []) (hoverflow : overflowAwaitsRecovery s = true) :
    overflowCompactionProposal s config ≠ none := by
  rw [overflowAwaitsRecovery, h.active, Option.any_some, ActiveRun.latestTurn,
    Option.any_map, Option.any_eq_true] at hoverflow
  obtain ⟨⟨turnId, turn⟩, hlast, hoverflow⟩ := hoverflow
  simp only [Bool.and_eq_true, bne_iff_ne] at hoverflow
  have hrecoverable := (startsTurn_latest hinv h hlast).2.2 hoverflow.1
  have hidle := (compactionSafeBoundary_iff.mp h.safe).1
  have hattempts : run.contextRecovery.attempts < maxContextRecoveryAttempts := by
    simpa [overflowIsTerminal, hidle, hoverflow.2, hconfig, henabled, hcovers] using hrecoverable
  have hroom : s.runs.active.all (fun run =>
      run.contextRecovery.attempts < maxContextRecoveryAttempts) = true := by
    simpa [h.active] using hattempts
  rw [overflowCompactionProposal, if_pos ⟨henabled, hroom, hcovers⟩]
  nofun

/-- A run whose session holds too many entries starts no turn: whichever reason keeps the guard's
compaction from being requested ends the run instead. -/
theorem startsTurn_entries (hinv : Inv s) (hlimit : LimitInv s) (h : StartsTurn s run) :
    s.context.entries.length < entryGuardLimit := by
  by_contra hlength
  have hguard : entryGuard s run = .compact := by
    have hnotFail := h.guarded
    unfold entryGuard at hnotFail ⊢
    rw [if_neg (by simp [h.safe, hlength])] at hnotFail ⊢
    split_ifs at hnotFail ⊢
    · rfl
    · exact absurd rfl hnotFail
  obtain ⟨-, -, -, hany, hcovers⟩ := entryGuard_compact_iff.mp hguard
  obtain ⟨config, hconfig, henabled⟩ := (Option.any_eq_true _ _).mp hany
  have hnone := h.uncompacted
  rw [nextCompactionProposal, if_neg (not_not_intro h.safe), if_neg (by simp [h.unqueued]),
    hconfig] at hnone
  dsimp only at hnone
  by_cases huseless : roomIsUseless s = true
  · exact startsTurn_room hinv hlimit h huseless
  · rw [if_neg huseless] at hnone
    by_cases hoverflow : overflowAwaitsRecovery s = true
    · rw [if_pos hoverflow] at hnone
      exact startsTurn_overflow hinv h hconfig henabled hcovers hoverflow hnone
    · rw [if_neg hoverflow, highWatermarkCompactionProposal, if_neg (not_not_intro henabled),
        h.active] at hnone
      dsimp only at hnone
      rw [hguard] at hnone
      cases hnone

/-! ## Who asks for a compaction -/

theorem requests_nil : ∀ proposal ∈ ([] : List CoreAgentEventProposal),
    proposal.event.requestsCompaction = false := by simp

theorem requests_one (h : proposal.event.requestsCompaction = false) :
    ∀ other ∈ [proposal], other.event.requestsCompaction = false := by simpa using h

theorem planRunNext_requests (h : planRunNext s = .ok proposals) :
    ∀ proposal ∈ proposals, proposal.event.requestsCompaction = false := by
  unfold planRunNext at h
  by_cases hwaits : s.context.compaction.isPending ∨
      (s.context.compaction.isQueued ∧ compactionSafeBoundary s) ∨ s.lifecycle.status ≠ .open
  · rw [if_pos hwaits] at h
    exact Except.ok.inj h ▸ requests_nil
  rw [if_neg hwaits] at h
  split at h
  next run _ =>
    unfold planActiveRun at h
    by_cases hwork : run.activeTurnId.isSome ∨ run.activeToolBatchId.isSome
    · rw [if_pos hwork] at h
      exact Except.ok.inj h ▸ requests_nil
    rw [if_neg hwork] at h
    by_cases hcancel : run.status = .cancelling ∧ ¬ hasUnstartedToolCallTurn run
    · rw [if_pos hcancel] at h
      exact Except.ok.inj h ▸ requests_one rfl
    rw [if_neg hcancel] at h
    obtain ⟨terminal, hterminal, h⟩ := bind_eq_ok.mp h
    cases terminal with
    | some proposal =>
      rw [runningTerminalProposal] at hterminal
      split_ifs at hterminal
      · obtain ⟨event, hevent⟩ := terminalRunProposal_event hterminal
        exact Except.ok.inj h ▸ requests_one (by rw [hevent]; rfl)
      · cases hterminal
    | none =>
      by_cases hguard : entryGuard s run = .failRun ∧ ¬ hasUnmaterializedSteering run
      · simp only [if_pos hguard] at h
        exact Except.ok.inj h ▸ requests_one rfl
      · simp only [if_neg hguard] at h
        exact Except.ok.inj h ▸ requests_nil
  · exact Except.ok.inj h ▸ requests_nil
  · exact Except.ok.inj h ▸ requests_one rfl

theorem planBatchStart_requests {turns : List (TurnId × TurnState)}
    (h : planBatchStart s run turns = .ok proposals) :
    ∀ proposal ∈ proposals, proposal.event.requestsCompaction = false := by
  induction turns with
  | nil => exact Except.ok.inj h ▸ requests_nil
  | cons first rest ih =>
    obtain ⟨turnId, turn⟩ := first
    rw [planBatchStart] at h
    by_cases hawaits : awaitsBatch run turnId turn = true
    · rw [if_neg (not_not_intro hawaits)] at h
      obtain ⟨facts, -, h⟩ := bind_eq_ok.mp h
      split_ifs at h
      · exact ih h
      · simp only [bind_eq_ok, exists_unit] at h
        obtain ⟨planned, -, -, h⟩ := h
        exact Except.ok.inj h ▸ requests_one rfl
    · rw [if_pos hawaits] at h
      exact ih h

theorem batchCompletion_requests {batchId : ToolBatchId}
    (h : decideActiveToolBatchCompletion s run batchId = .ok proposals) :
    ∀ proposal ∈ proposals, proposal.event.requestsCompaction = false := by
  simp only [decideActiveToolBatchCompletion, bind_eq_ok] at h
  obtain ⟨batch, -, h⟩ := h
  split_ifs at h
  · exact Except.ok.inj h ▸ requests_nil
  · obtain ⟨entries, -, h⟩ := bind_eq_ok.mp h
    obtain rfl := Except.ok.inj h
    intro proposal hproposal
    rcases List.mem_append.mp hproposal with hproposal | hproposal
    · split_ifs at hproposal
      · cases hproposal
      · exact requests_one rfl proposal hproposal
    · exact requests_one rfl proposal hproposal

theorem planToolNext_requests (h : planToolNext s = .ok proposals) :
    ∀ proposal ∈ proposals, proposal.event.requestsCompaction = false := by
  have hcalls : ∀ (batch : ActiveToolBatch) (calls : List ToolCallState)
      (event : ToolCallState → ToolEvent), ∀ proposal ∈ calls.map (fun call =>
        batch.callProposal call.call.callId (event call)),
      proposal.event.requestsCompaction = false := by
    intro batch calls event proposal hproposal
    obtain ⟨call, -, rfl⟩ := List.mem_map.mp hproposal
    rfl
  unfold planToolNext at h
  split at h
  next run _ _ =>
    split_ifs at h
    · exact Except.ok.inj h ▸ requests_nil
    · unfold planActiveBatch at h
      split at h
      next batchId _ =>
        split at h
        · rcases planFirst_eq_ok.mp h with ⟨h, -⟩ | ⟨-, h⟩
          · simp only [decideActiveToolBatchInvocations, bind_eq_ok] at h
            obtain ⟨batch, -, h⟩ := h
            split_ifs at h
            · exact Except.ok.inj h ▸ requests_nil
            · simp only [bind_eq_ok, exists_unit] at h
              exact Except.ok.inj h.2 ▸ hcalls batch _ _
          · exact batchCompletion_requests h
        · rcases planFirst_eq_ok.mp h with ⟨h, -⟩ | ⟨-, h⟩
          · simp only [decideCancellingToolBatchCalls, bind_eq_ok] at h
            obtain ⟨batch, -, h⟩ := h
            split_ifs at h
            · exact Except.ok.inj h ▸ requests_nil
            · exact Except.ok.inj h ▸ hcalls batch _ _
          · exact batchCompletion_requests h
        · exact Except.ok.inj h ▸ requests_nil
      · split_ifs at h
        · exact planBatchStart_requests h
        · exact Except.ok.inj h ▸ requests_nil
  · exact Except.ok.inj h ▸ requests_nil

theorem turnProgress_requests (h : decideActiveTurnProgress s run turnId = .ok proposals) :
    ∀ proposal ∈ proposals, proposal.event.requestsCompaction = false := by
  simp only [decideActiveTurnProgress, bind_eq_ok] at h
  obtain ⟨turn, -, h⟩ := h
  by_cases hcancel : run.status = .cancelling ∧
      (turn.status = .started ∨ turn.status = .planned ∨ turn.status = .generationPending)
  · rw [if_pos hcancel] at h
    exact Except.ok.inj h ▸ requests_one rfl
  rw [if_neg hcancel] at h
  split at h
  · by_cases hrunning : run.status = .running
    · rw [if_neg (not_not_intro hrunning)] at h
      obtain ⟨request, -, h⟩ := bind_eq_ok.mp h
      exact Except.ok.inj h ▸ requests_one rfl
    · rw [if_pos hrunning] at h
      exact Except.ok.inj h ▸ requests_nil
  · by_cases hrunning : run.status = .running
    · rw [if_neg (not_not_intro hrunning)] at h
      simp only [bind_eq_ok, exists_unit] at h
      exact Except.ok.inj h.2 ▸ requests_one rfl
    · rw [if_pos hrunning] at h
      exact Except.ok.inj h ▸ requests_nil
  · exact Except.ok.inj h ▸ requests_nil

theorem planTurnNext_requests (h : planTurnNext s = .ok proposals) :
    ∀ proposal ∈ proposals, proposal.event.requestsCompaction = false := by
  unfold planTurnNext at h
  split_ifs at h
  · exact Except.ok.inj h ▸ requests_nil
  split at h
  · exact Except.ok.inj h ▸ requests_nil
  next run _ =>
    unfold planActiveTurn at h
    by_cases hbatch : run.activeToolBatchId.isSome
    · rw [if_pos hbatch] at h
      exact Except.ok.inj h ▸ requests_nil
    rw [if_neg hbatch] at h
    split at h
    · exact turnProgress_requests h
    · by_cases hrunning : run.status = .running
      · rw [if_neg (not_not_intro hrunning)] at h
        obtain ⟨terminal, -, h⟩ := bind_eq_ok.mp h
        cases terminal with
        | true => exact Except.ok.inj h ▸ requests_nil
        | false => exact Except.ok.inj h ▸ requests_one rfl
      · rw [if_pos hrunning] at h
        exact Except.ok.inj h ▸ requests_nil

theorem compaction_of_context (hmem : proposal ∈ planContextNext s)
    (hrequests : proposal.event.requestsCompaction = true) :
    nextCompactionProposal s = some proposal := by
  have hone : ∀ other, other.event.requestsCompaction = false → proposal ∉ [other] := by
    intro other hother hmem
    rw [List.mem_singleton.mp hmem, hother] at hrequests
    cases hrequests
  unfold planContextNext at hmem
  split_ifs at hmem
  · cases hmem
  · exact absurd hmem (hone _ rfl)
  · cases hmem
  · split at hmem
    next pruned hpruned =>
      refine absurd hmem (hone _ ?_)
      rw [(providerCompactedPrune_eq_some hpruned).2]
      rfl
    · split at hmem
      next next hnext => rw [List.mem_singleton.mp hmem, hnext]
      · split at hmem
        · cases hmem
        · unfold planMaterialization at hmem
          split_ifs at hmem
          · exact absurd hmem (hone _ rfl)
          · cases hmem
          · exact absurd hmem (hone _ rfl)
          · cases hmem
          · cases hmem

/-- A plan that asks for a compaction is the context planner's. -/
theorem compaction_of_plan (hplan : planNext s = .ok proposals) (hmem : proposal ∈ proposals)
    (hrequests : proposal.event.requestsCompaction = true) :
    nextCompactionProposal s = some proposal := by
  have hother : (∀ proposal ∈ proposals, proposal.event.requestsCompaction = false) → False := by
    intro hnone
    rw [hnone proposal hmem] at hrequests
    cases hrequests
  unfold planNext at hplan
  rcases planFirst_eq_ok.mp hplan with ⟨happroval, hne⟩ | ⟨-, hplan⟩
  · obtain rfl := Except.ok.inj happroval
    obtain ⟨run, hform⟩ : ∃ run, planApprovalNext s = [runProposal run (.approval (.runParked run))] := by
      unfold planApprovalNext at hne ⊢
      split at hne
      next run _ _ =>
        split_ifs at hne ⊢
        · exact absurd rfl hne
        · exact ⟨run.runId, rfl⟩
      · exact absurd rfl hne
    exact (hother (hform ▸ requests_one rfl)).elim
  rcases planFirst_eq_ok.mp hplan with ⟨hrun, -⟩ | ⟨-, hplan⟩
  · exact (hother (planRunNext_requests hrun)).elim
  rcases planFirst_eq_ok.mp hplan with ⟨htool, -⟩ | ⟨-, hplan⟩
  · exact (hother (planToolNext_requests htool)).elim
  rcases planFirst_eq_ok.mp hplan with ⟨hcontext, -⟩ | ⟨-, hplan⟩
  · obtain rfl := Except.ok.inj hcontext
    exact compaction_of_context hmem hrequests
  · exact (hother (planTurnNext_requests hplan)).elim

/-- What the context planner asks a compaction for: a caller, an overflow that waits for its recovery, or
room. -/
theorem nextCompaction_cases (h : nextCompactionProposal s = some proposal)
    (hrequests : proposal.event.requestsCompaction = true) :
    compactionSafeBoundary s = true ∧
      (proposal = compactionRequestedProposal s .manual none ∨
        ∃ config, s.lifecycle.config = some config ∧ roomIsUseless s = false ∧
          (overflowAwaitsRecovery s = true ∧ overflowCompactionProposal s config = some proposal ∨
            overflowAwaitsRecovery s = false ∧
              highWatermarkCompactionProposal s config = some proposal)) := by
  unfold nextCompactionProposal at h
  by_cases hsafe : compactionSafeBoundary s = true
  swap
  · rw [if_pos hsafe] at h
    cases h
  rw [if_neg (not_not_intro hsafe)] at h
  refine ⟨hsafe, ?_⟩
  by_cases hqueued : s.context.compaction.isQueued = true
  · rw [if_pos hqueued] at h
    split_ifs at h <;> obtain rfl := Option.some.inj h
    · cases hrequests
    · exact .inl rfl
  · rw [if_neg hqueued] at h
    split at h
    · cases h
    next config hconfig =>
      by_cases hroom : roomIsUseless s = true
      · rw [if_pos hroom] at h
        cases h
      rw [if_neg hroom] at h
      rw [Bool.not_eq_true] at hroom
      refine .inr ⟨config, hconfig, hroom, ?_⟩
      by_cases hoverflow : overflowAwaitsRecovery s = true
      · rw [if_pos hoverflow] at h
        exact .inl ⟨hoverflow, h⟩
      · rw [if_neg hoverflow] at h
        exact .inr ⟨by simpa using hoverflow, h⟩

/-- The trigger of a compaction that an event asks for. -/
def CoreAgentEvent.trigger : CoreAgentEvent → Option ContextCompactionTrigger
  | .context (.compactionRequested _ trigger _) => some trigger
  | _ => none

theorem requestsCompaction_of_trigger {event : CoreAgentEvent} {trigger : ContextCompactionTrigger}
    (h : event.trigger = some trigger) : event.requestsCompaction = true := by
  cases event with
  | context event => cases event <;> first | rfl | cases h
  | _ => cases h

/-- A compaction for room that is asked for at the guard is the run's first attempt there. -/
theorem guard_of_request (h : nextCompactionProposal s = some proposal)
    (htrigger : proposal.event.trigger = some .highWatermark)
    (hlength : entryGuardLimit ≤ s.context.entries.length) :
    ∃ run, s.runs.active = some run ∧ run.entryGuardAttempted = false := by
  obtain ⟨hsafe, rfl | ⟨config, -, -, ⟨-, h⟩ | ⟨-, h⟩⟩⟩ :=
    nextCompaction_cases h (requestsCompaction_of_trigger htrigger)
  · cases htrigger
  · unfold overflowCompactionProposal at h
    split_ifs at h
    obtain rfl := Option.some.inj h
    cases htrigger
  · unfold highWatermarkCompactionProposal at h
    by_cases henabled : compactionEnabled config = true
    swap
    · rw [if_pos henabled] at h
      cases h
    rw [if_neg (not_not_intro henabled)] at h
    split at h
    · cases h
    next run hactive =>
      refine ⟨run, hactive, ?_⟩
      split at h
      next hguard => exact (entryGuard_compact_iff.mp hguard).2.2.1
      · cases h
      next hguard =>
        unfold entryGuard at hguard
        rw [if_neg (by simp [hsafe, hlength])] at hguard
        split_ifs at hguard

/-! ## What the planners knew -/

/-- What holds of the state that an event of the planners' own is proposed for. -/
def PlanKnew (s : CoreAgentState) : CoreAgentEvent → Prop
  | .turn (.started _ runId) =>
    ∃ run, StartsTurn s run ∧ run.runId = runId ∧ turnLimitReached s run = false
  | .context (.compactionRequested _ trigger _) =>
    trigger = .manual ∨ ∃ proposal, nextCompactionProposal s = some proposal ∧
      proposal.event.trigger = some trigger
  | .run (.failed runId failure) => failure.kind = .limitExceeded →
    ∃ run, s.runs.active = some run ∧ run.runId = runId ∧ run.AtBoundary ∧ turnLimitReached s run = true
  | _ => True

theorem planKnew_stored {event : CoreAgentEvent} : PlanKnew s event.stored ↔ PlanKnew s event := by
  cases event with
  | turn event | context event | run event => cases event <;> rfl
  | _ => rfl

theorem planKnew_of_other {event : CoreAgentEvent} (h : event.isPlannersOwn = false) :
    PlanKnew s event := by
  cases event with
  | turn event | context event => cases event <;> trivial
  | run event =>
    cases event with
    | failed runId failure =>
      intro hlimit
      simp [CoreAgentEvent.isPlannersOwn, hlimit] at h
    | _ => trivial
  | _ => trivial

/-- What asks for a compaction, if it is not a caller's, is what the context planner proposes. -/
theorem planKnew_of_request {event : CoreAgentEvent} (hrequests : event.requestsCompaction = true)
    (h : event.trigger = some .manual ∨ ∃ proposal, nextCompactionProposal s = some proposal ∧
      proposal.event = event) : PlanKnew s event := by
  cases event with
  | context event =>
    cases event with
    | compactionRequested baseRevision trigger plan =>
      rcases h with hmanual | ⟨proposal, hnext, hevent⟩
      · exact .inl (Option.some.inj hmanual)
      · exact .inr ⟨proposal, hnext, by rw [hevent]; rfl⟩
    | _ => cases hrequests
  | _ => cases hrequests

theorem uncommitted_one (s : CoreAgentState) (ms : Nat) (proposal : CoreAgentEventProposal) :
    ∃ first rest, uncommitted s ms [proposal] = first :: rest ∧ first.event = proposal.event.stored ∧
      ∀ entry ∈ rest, ∃ id, entry.event = .promise (.cancelled id) := by
  unfold uncommitted withRunTerminalSideEffects runTerminalSideEffects
  split
  · exact ⟨_, [], rfl, rfl, by simp⟩
  next runId _ =>
    refine ⟨_, _, rfl, rfl, fun entry hentry => ?_⟩
    obtain ⟨proposal, hproposal, heq⟩ := mem_entriesFrom hentry
    rcases List.mem_append.mp hproposal with hcancels | hnone
    · obtain ⟨id, -, rfl⟩ := List.mem_map.mp hcancels
      exact ⟨id, heq⟩
    · cases hnone

/-- Only the turn limit ends a run as exceeding a limit, and at a boundary. -/
theorem limitFailure_of_turn {turn : TurnState} {failure : RunFailure}
    (h : turnTerminalEvent s run turnId turn = .ok (some (.failed runId failure)))
    (hkind : failure.kind = .limitExceeded) :
    runId = run.runId ∧ turnLimitReached s run = true ∧ hasUnstartedToolCallTurn run = false := by
  have hlimit : turnLimitFailure s run = some (.failed runId failure) →
      runId = run.runId ∧ turnLimitReached s run = true ∧ hasUnstartedToolCallTurn run = false := by
    intro h
    unfold turnLimitFailure at h
    split_ifs at h with hreached
    cases h
    exact ⟨rfl, hreached.1, by simpa using hreached.2⟩
  have hother : ∀ failure', failure'.kind ≠ .limitExceeded →
      (Except.ok (some (RunEvent.failed run.runId failure')) : Result (Option RunEvent)) =
        .ok (some (.failed runId failure)) → runId = run.runId ∧ turnLimitReached s run = true ∧
          hasUnstartedToolCallTurn run = false := by
    intro failure' hne heq
    cases heq
    exact absurd hkind hne
  unfold turnTerminalEvent at h
  dsimp only at h
  split at h
  · split_ifs at h
    · exact hother _ (by decide : RunFailureKind.contextFailure ≠ .limitExceeded) h
    · exact hlimit (Except.ok.inj h)
  · split_ifs at h
    · exact hlimit (Except.ok.inj h)
    · cases h
  · refine hother _ ?_ h
    unfold turnFailure
    split
    · exact (by decide : RunFailureKind.outputTruncated ≠ .limitExceeded)
    · exact (by decide : RunFailureKind.contentFiltered ≠ .limitExceeded)
    · exact (by decide : RunFailureKind.modelFailure ≠ .limitExceeded)
  · exact hother _ (by decide : RunFailureKind.requestRejected ≠ .limitExceeded) h
  · exact hother _ (by decide : RunFailureKind.modelFailure ≠ .limitExceeded) h
  · exact hlimit (Except.ok.inj h)
  · exact hlimit (Except.ok.inj h)
  all_goals cases h

/-- A plan that ends a run as exceeding a limit proposes nothing else. -/
theorem planned_limitFailure (hplan : Planned s proposals) (hmem : proposal ∈ proposals)
    {failure : RunFailure} (hevent : proposal.event = .run (.failed runId failure))
    (hkind : failure.kind = .limitExceeded) : proposals = [proposal] ∧ PlanKnew s proposal.event := by
  cases hplan with
  | endRun hopen hactive hstatus hturn hbatch happroval hlast hterminal hsteering =>
    obtain rfl := List.mem_singleton.mp hmem
    refine ⟨rfl, ?_⟩
    rw [hevent]
    intro _
    obtain rfl := CoreAgentEvent.run.inj hevent
    obtain ⟨hrun, hreached, hstarted⟩ := limitFailure_of_turn hterminal hkind
    exact ⟨_, hactive, hrun.symm, ⟨hturn, hbatch, hstarted⟩, hreached⟩
  | guardRun =>
    rw [List.mem_singleton.mp hmem] at hevent
    cases hevent
    cases hkind
  | startCalls | cancelCalls =>
    obtain ⟨call, -, rfl⟩ := List.mem_map.mp hmem
    cases hevent
  | completeBatch => rcases mem_batchProposals hmem with rfl | rfl <;> cases hevent
  | pruneContext _ _ hproposal =>
    obtain ⟨-, rfl⟩ := providerCompactedPrune_eq_some hproposal
    rw [List.mem_singleton.mp hmem] at hevent
    cases hevent
  | _ =>
    rw [List.mem_singleton.mp hmem] at hevent
    cases hevent

/-- An event of a run stands alone in its plan. -/
theorem planned_run_alone (hplan : Planned s proposals) (hmem : proposal ∈ proposals) {event : RunEvent}
    (hevent : proposal.event = .run event) : proposals = [proposal] := by
  cases hplan with
  | startCalls | cancelCalls =>
    obtain ⟨call, -, rfl⟩ := List.mem_map.mp hmem
    cases hevent
  | completeBatch => rcases mem_batchProposals hmem with rfl | rfl <;> cases hevent
  | _ => rw [List.mem_singleton.mp hmem]

/-- An event of the planners' own stands alone in its plan. -/
theorem planKnew_of_plan (hinv : Inv s) (hlimit : LimitInv s) (hnext : planNext s = .ok proposals)
    (hmem : proposal ∈ proposals) (hown : proposal.event.isPlannersOwn = true) :
    proposals = [proposal] ∧ PlanKnew s proposal.event := by
  have hplan := planNext_cases hnext (List.ne_nil_of_mem hmem)
  cases hevent : proposal.event with
  | turn event =>
    rw [hevent] at hown
    cases event with
    | started turnId runId =>
      obtain ⟨run, hstarts, rfl, rfl⟩ := startsTurn_of_plan hinv hnext hmem hevent
      obtain rfl := List.mem_singleton.mp hmem
      exact ⟨rfl, run, hstarts, rfl, startsTurn_limit hinv hlimit hstarts⟩
    | _ => cases hown
  | context event =>
    rw [hevent] at hown
    have hrequests : proposal.event.requestsCompaction = true := by
      rw [hevent]
      cases event <;> first | rfl | cases hown
    have hcompaction := compaction_of_plan hnext hmem hrequests
    rcases planned_requests hplan with hnone | ⟨trigger, tokens, rfl⟩
    · rw [hnone proposal hmem] at hrequests
      cases hrequests
    · obtain rfl := List.mem_singleton.mp hmem
      exact ⟨rfl, hevent ▸ planKnew_of_request hrequests (.inr ⟨_, hcompaction, rfl⟩)⟩
  | run event =>
    rw [hevent] at hown
    cases event with
    | failed runId failure =>
      rw [← hevent]
      exact planned_limitFailure hplan hmem hevent (by simpa [CoreAgentEvent.isPlannersOwn] using hown)
    | completed runId output => exact ⟨planned_run_alone hplan hmem hevent, trivial⟩
    | _ => cases hown
  | _ =>
    rw [hevent] at hown
    cases hown

/-- Whatever a session is given, its planners knew what they proposed. -/
theorem proposed_plansKnown (hinv : Inv s) (hlimit : LimitInv s)
    (h : inputProposals sessionId s ms input = .ok proposals) :
    EventSource.Warranted applyEvent (fun s entry => PlanKnew s entry.event) s
      (uncommitted s ms proposals) := by
  have hentry : ∀ entry : CoreAgentEntry, (∃ id, entry.event = .promise (.cancelled id)) →
      ∀ s, PlanKnew s entry.event := by
    rintro entry ⟨id, heq⟩ s
    rw [heq]
    trivial
  have hother : (∀ proposal ∈ proposals, proposal.event.isPlannersOwn = false) →
      EventSource.Warranted applyEvent (fun s entry => PlanKnew s entry.event) s
        (uncommitted s ms proposals) := by
    intro hnone
    refine EventSource.warranted_of_forall fun entry hmem s => ?_
    rcases mem_uncommitted hmem with ⟨proposal, hproposal, heq⟩ | hcancels
    · rw [heq, planKnew_stored]
      exact planKnew_of_other (hnone proposal hproposal)
    · exact hentry entry hcancels s
  have hone : ∀ proposal, proposals = [proposal] → PlanKnew s proposal.event →
      EventSource.Warranted applyEvent (fun s entry => PlanKnew s entry.event) s
        (uncommitted s ms proposals) := by
    rintro proposal rfl hknew
    -- What follows the one event is the cancellation of promises.
    obtain ⟨first, rest, hform, hfirst, hrest⟩ := uncommitted_one s ms proposal
    have hfirst' : PlanKnew s first.event := by
      rw [hfirst]
      exact planKnew_stored.mpr hknew
    rw [hform]
    refine ⟨hfirst', fun t _ => ?_⟩
    exact EventSource.warranted_of_forall fun entry hmem => hentry entry (hrest entry hmem)
  rcases proposed_plans (inputProposals_cases h) with hnone | ⟨rfl, -⟩ | rfl
  · exact hother hnone
  · by_cases hown : ∃ proposal ∈ proposals, proposal.event.isPlannersOwn = true
    · obtain ⟨proposal, hmem, hown⟩ := hown
      obtain ⟨hform, hknew⟩ := planKnew_of_plan hinv hlimit (driven_eq_ok.mp h) hmem hown
      exact hone proposal hform hknew
    · exact hother (by simpa using hown)
  · exact hone _ rfl (.inl rfl)

/-- What holds of a state and of the entry that it takes. -/
structure Takes (s : CoreAgentState) (entry : CoreAgentEntry) : Prop where
  inv : Inv s
  warrant : ∃ base input, Warrant base input s entry
  plan : PlanKnew s entry.event

theorem append_takes {entries : List CoreAgentEntry} (hreached : Reachable sessionId s log)
    (hpropose : proposeEntries sessionId s (ms, input) = .ok entries) :
    EventSource.Warranted applyEvent Takes s entries := by
  have hinv := (reachable_inv hreached).1
  have hwarranted := append_warranted hreached hpropose
  obtain ⟨proposals, hproposals, hproposed, rfl⟩ := proposeEntries_cases hpropose
  have hknown := proposed_plansKnown hinv (reachable_limitInv hreached) hproposals
  refine (hwarranted.and hknown).imp hinv ?_ ?_
  · exact fun u entry v hu hknown happly => inv_step hu hknown.1 happly
  · exact fun u entry hu hknown => ⟨hu, ⟨s, input, hknown.1⟩, hknown.2⟩

/-- Every entry of a session's log was warranted, and known to the planners, when it was appended. -/
theorem reachable_warranted (h : Reachable sessionId s log) :
    EventSource.Warranted applyEvent Takes CoreAgentState.new log := by
  refine EventSource.Reaches.invariant (P := fun _ log =>
    EventSource.Warranted applyEvent Takes CoreAgentState.new log) trivial ?_ h
  rintro s log ⟨ms, input⟩ entries t hreached hs hpropose -
  refine EventSource.warranted_append hs fun u hu => ?_
  obtain rfl : s = u := Except.ok.inj (hreached.replay.symm.trans hu)
  exact append_takes hreached hpropose

theorem takes_ledger (hw : EventSource.Warranted applyEvent Takes CoreAgentState.new log)
    (h : log.foldlM applyEvent CoreAgentState.new = .ok s) : LedgerInv s log := by
  refine EventSource.Warranted.preserves (P := LedgerInv) [] ?_ hw h ledgerInv_init
  intro s log entry t hs htakes happly
  obtain ⟨base, input, hwarrant⟩ := htakes.warrant
  exact ledger_step htakes.inv hs hwarrant happly

end Lightspeed.Harness
