import Lightspeed.Harness.Scanned
import Lightspeed.Harness.Invariant

/-!
# What the drive proposes is warranted

Every list that an input is answered with is warranted event by event, also with the promise
cancellations that `withRunTerminalSideEffects` puts after the end of a run. So `Inv` holds in every state
that a session reaches.
-/

namespace Lightspeed.Harness

open Lib

variable {sessionId : SessionId} {base s t : CoreAgentState} {input : DriveInput}
  {proposal : CoreAgentEventProposal} {proposals : List CoreAgentEventProposal} {run : ActiveRun}
  {scope : ResultScope} {origin : CoreAgentState} {seq ms : Nat} {runId : RunId} {turnId : TurnId}
  {ids : List ApprovalId} {turn : TurnState} {event : RunEvent} {entries : List ContextEntry}
  {result : LlmGenerationResult}

/-! ## Backed lists -/

/-- The entry that a proposal becomes. -/
def CoreAgentEventProposal.entry (proposal : CoreAgentEventProposal) (seq ms : Nat) :
    CoreAgentEntry where
  seq := seq
  observedAtMs := ms
  joins := proposal.joins
  event := proposal.event.stored

/-- A proposal that is warranted in a state, at any position and time. -/
def Warrants (base : CoreAgentState) (input : DriveInput) (s : CoreAgentState)
    (proposal : CoreAgentEventProposal) : Prop :=
  ∀ seq ms, Warrant base input s (proposal.entry seq ms)

/-- Proposals that are warranted one after another. After the end of a run every proposal is warranted
in any state, since the cancellations of the run's promises come in between. -/
inductive Backed (base : CoreAgentState) (input : DriveInput) :
    CoreAgentState → List CoreAgentEventProposal → Prop
  | plain {s : CoreAgentState} {proposals : List CoreAgentEventProposal}
      (h : ∀ proposal ∈ proposals, ∀ s, Warrants base input s proposal) : Backed base input s proposals
  | ended {s : CoreAgentState} {proposal : CoreAgentEventProposal}
      {rest : List CoreAgentEventProposal} (h : Warrants base input s proposal)
      (hrest : ∀ proposal ∈ rest, ∀ s, Warrants base input s proposal) :
      Backed base input s (proposal :: rest)
  | cons {s : CoreAgentState} {proposal : CoreAgentEventProposal}
      {rest : List CoreAgentEventProposal} (hrun : proposal.event.terminalRunId = none)
      (h : Warrants base input s proposal)
      (hrest : ∀ seq ms t, applyEvent s (proposal.entry seq ms) = .ok t → Backed base input t rest) :
      Backed base input s (proposal :: rest)

theorem warrants_promiseCancelled (runId : RunId) (id : PromiseId) :
    Warrants base input s (runProposal runId (.promise (.cancelled id))) :=
  fun _ _ => ⟨by rintro _ ⟨⟩, trivial⟩

/-- The side effects of a run's end are its promises' cancellations. -/
theorem mem_runTerminalSideEffects {cancelled : List PromiseId}
    (h : proposal ∈ runTerminalSideEffects base cancelled proposals) :
    proposal ∈ proposals ∨ ∃ runId id, proposal = runProposal runId (.promise (.cancelled id)) := by
  induction proposals generalizing cancelled with
  | nil => exact .inl h
  | cons first rest ih =>
    unfold runTerminalSideEffects at h
    split at h
    · rcases List.mem_cons.mp h with rfl | h
      · exact .inl List.mem_cons_self
      · exact (ih h).imp_left (List.mem_cons_of_mem _)
    · simp only [List.cons_append, List.mem_cons, List.mem_append, List.mem_map] at h
      rcases h with rfl | ⟨id, -, rfl⟩ | h
      · exact .inl List.mem_cons_self
      · exact .inr ⟨_, id, rfl⟩
      · exact (ih h).imp_left (List.mem_cons_of_mem _)

theorem warranted_of_plain (h : ∀ proposal ∈ proposals, ∀ s, Warrants base input s proposal)
    (seq ms : Nat) :
    EventSource.Warranted applyEvent (Warrant base input) s (entriesFrom ms seq proposals) := by
  induction proposals generalizing s seq with
  | nil => trivial
  | cons first rest ih =>
    exact ⟨h first List.mem_cons_self s seq ms,
      fun t _ => ih (fun proposal hmem => h proposal (List.mem_cons_of_mem _ hmem)) (seq + 1)⟩

/-- A backed list is warranted with the side effects of the runs that it ends. -/
theorem Backed.warranted (h : Backed base input s proposals) (cancelled : List PromiseId)
    (seq ms : Nat) :
    EventSource.Warranted applyEvent (Warrant base input) s
      (entriesFrom ms seq (runTerminalSideEffects base cancelled proposals)) := by
  induction h generalizing seq cancelled with
  | plain h =>
    refine warranted_of_plain (fun proposal hmem s => ?_) seq ms
    rcases mem_runTerminalSideEffects hmem with hmem | ⟨runId, id, rfl⟩
    · exact h proposal hmem s
    · exact warrants_promiseCancelled runId id
  | @ended s first rest h hrest =>
    obtain ⟨owed, hlist, howed⟩ : ∃ owed, runTerminalSideEffects base cancelled (first :: rest) =
        first :: owed ∧ ∀ proposal ∈ owed, proposal ∈ rest ∨
          ∃ runId id, proposal = runProposal runId (.promise (.cancelled id)) := by
      unfold runTerminalSideEffects
      split
      · exact ⟨_, rfl, fun proposal hmem => mem_runTerminalSideEffects hmem⟩
      next runId hrun =>
        refine ⟨_, by rw [List.cons_append], fun proposal hmem => ?_⟩
        rcases List.mem_append.mp hmem with hmem | hmem
        · obtain ⟨id, -, rfl⟩ := List.mem_map.mp hmem
          exact .inr ⟨runId, id, rfl⟩
        · exact mem_runTerminalSideEffects hmem
    rw [hlist]
    refine ⟨h seq ms, fun t _ => warranted_of_plain (fun proposal hmem s => ?_) (seq + 1) ms⟩
    rcases howed proposal hmem with hmem | ⟨runId, id, rfl⟩
    · exact hrest proposal hmem s
    · exact warrants_promiseCancelled runId id
  | @cons s first rest hrun h hrest ih =>
    have hlist : runTerminalSideEffects base cancelled (first :: rest) =
        first :: runTerminalSideEffects base cancelled rest := by
      rw [runTerminalSideEffects, hrun]
    rw [hlist]
    exact ⟨h seq ms, fun t ht => ih seq ms t ht cancelled (seq + 1)⟩

/-- A backed list after proposals that keep what warrants them. -/
theorem Backed.of_stable {P : CoreAgentState → Prop} {tail : List CoreAgentEventProposal}
    (hrun : ∀ proposal ∈ proposals, proposal.event.terminalRunId = none)
    (hwarrant : ∀ proposal ∈ proposals, ∀ s, P s → Warrants base input s proposal)
    (hstep : ∀ proposal ∈ proposals, ∀ s seq ms t, P s →
      applyEvent s (proposal.entry seq ms) = .ok t → P t)
    (htail : ∀ t, P t → Backed base input t tail) (hs : P s) :
    Backed base input s (proposals ++ tail) := by
  induction proposals generalizing s with
  | nil => exact htail s hs
  | cons first rest ih =>
    refine .cons (hrun first List.mem_cons_self) (hwarrant first List.mem_cons_self s hs)
      fun seq ms t ht => ih ?_ ?_ ?_ (hstep first List.mem_cons_self s seq ms t hs ht)
    · exact fun proposal hmem => hrun proposal (List.mem_cons_of_mem _ hmem)
    · exact fun proposal hmem => hwarrant proposal (List.mem_cons_of_mem _ hmem)
    · exact fun proposal hmem => hstep proposal (List.mem_cons_of_mem _ hmem)

/-! ## Events that need no warrant -/

/-- Events whose proposer had to know nothing. -/
def CoreAgentEvent.isFree : CoreAgentEvent → Bool
  | .run (.accepted _) | .run (.started _) | .run (.steeringAccepted _ _ _ _)
  | .run (.completed _ _) | .run (.failed _ _) | .run (.cancelled _) | .run (.forceCancelled _)
  | .turn (.started _ _) | .turn (.completed _ _) | .approval (.requested _) | .approval (.runUnparked _)
  | .context (.compactionRequested _ _ _) | .tool (.batchStarted _ _ _ _ _)
  | .tool (.batchParked _ _ _ (.awaitTool _ _)) | .tool (.batchUnparked _ _ _) | .toolConfig _
  | .workflowTool (.invoked _) | .workflowTool (.startRequested _ _)
  | .codeTool (.callAdmitted _ _) => false
  | _ => true

/-- The events of a run's record are joined to the run. -/
def CoreAgentEventProposal.isJoined (proposal : CoreAgentEventProposal) : Prop :=
  ∀ runId, proposal.event.ownRun = some runId → proposal.joins.runId = some runId

theorem ownRun_stored (event : CoreAgentEvent) : event.stored.ownRun = event.ownRun := by
  cases event with
  | run event | turn event => cases event <;> rfl
  | _ => rfl

theorem terminalRunId_stored (event : CoreAgentEvent) :
    event.stored.terminalRunId = event.terminalRunId := by
  cases event with
  | run event => cases event <;> rfl
  | _ => rfl

theorem warrants_of_knew (hjoined : proposal.isJoined)
    (hknew : Knew base input s proposal.event.stored) : Warrants base input s proposal :=
  fun _ _ => ⟨fun runId hown => hjoined runId (ownRun_stored proposal.event ▸ hown), hknew⟩

theorem warrants_of_free (hfree : proposal.event.isFree = true) (hjoined : proposal.isJoined) :
    Warrants base input s proposal := by
  refine warrants_of_knew hjoined ?_
  cases hevent : proposal.event with
  | lifecycle event => trivial
  | environment event => trivial
  | promise event => trivial
  | workflowToolConfig event => trivial
  | toolConfig event => rw [hevent] at hfree; trivial
  | run event | approval event | turn event | context event | workflowTool event | codeTool event =>
    rw [hevent] at hfree; cases event <;> trivial
  | tool event =>
    rw [hevent] at hfree
    cases event with
    | batchParked runId turnId batchId suspension => cases suspension <;> trivial
    | _ => trivial

theorem isFree_of_quiet {event : CoreAgentEvent} (h : event.isQuiet = true) :
    event.isFree = true ∧ event.ownRun = none ∧ event.terminalRunId = none := by
  cases event with
  | run event => cases h
  | approval event => cases h
  | context event => cases h
  | toolConfig event => cases h
  | tool event => cases h
  | turn event => cases h
  | workflowTool event | codeTool event => cases event <;> first | exact ⟨rfl, rfl, rfl⟩ | cases h
  | _ => exact ⟨rfl, rfl, rfl⟩

theorem warrants_of_quiet (h : proposal.event.isQuiet = true) : Warrants base input s proposal := by
  obtain ⟨hfree, hown, -⟩ := isFree_of_quiet h
  refine warrants_of_free hfree fun runId hrun => ?_
  rw [hown] at hrun
  cases hrun

/-- Free events that carry no run of their own, in any order. -/
theorem Backed.free (h : ∀ proposal ∈ proposals, proposal.event.isFree = true ∧ proposal.isJoined) :
    Backed base input s proposals :=
  .plain fun proposal hmem _ => warrants_of_free (h proposal hmem).1 (h proposal hmem).2

theorem isJoined_of_none (h : proposal.event.ownRun = none) : proposal.isJoined := by
  intro runId hown
  rw [h] at hown
  cases hown

/-! ## Plans -/

/-- What holds of the active run between two appends, on top of the invariant. -/
structure RunSettled (run : ActiveRun) : Prop where
  turn : ∀ id turn, run.activeTurnId = some id → run.turns.get? id = some turn →
    turn.status ≠ .generationSettled
  parked : run.status = .parked → run.parkedToolBatch = none → run.pendingApprovals ≠ []
  cancelling : run.status = .cancelling → run.pendingApprovals = []

theorem planApprovalNext_eq_nil (h : planApprovalNext s = []) (hopen : s.lifecycle.status = .open)
    (hactive : s.runs.active = some run) (hstatus : run.status = .running) (hidle : run.AtBoundary) :
    run.pendingApprovals = [] := by
  by_contra hpending
  have hguard : ¬ (run.status ≠ .running ∨ run.activeTurnId.isSome ∨ run.activeToolBatchId.isSome ∨
      run.pendingApprovals = [] ∨ hasUnstartedToolCallTurn run) := by
    simp [hstatus, hidle.turn, hidle.batch, hidle.started, hpending]
  unfold planApprovalNext at h
  rw [hopen, hactive] at h
  dsimp only at h
  rw [if_neg hguard] at h
  cases h

/-- A turn that is owed a batch is planned one. -/
theorem planBatchStart_ne_nil {facts : LlmGenerationFacts} {turns : List (TurnId × TurnState)}
    (hmem : (turnId, turn) ∈ turns) (hawaits : awaitsBatch run turnId turn = true)
    (hfacts : turn.facts = some facts) (hcalls : facts.toolCalls ≠ []) :
    planBatchStart s run turns ≠ .ok [] := by
  intro h
  induction turns with
  | nil => cases hmem
  | cons first rest ih =>
    obtain ⟨firstId, firstTurn⟩ := first
    rw [planBatchStart] at h
    rcases List.mem_cons.mp hmem with heq | hmem
    · obtain ⟨rfl, rfl⟩ := Prod.mk.inj heq
      rw [if_neg (not_not_intro hawaits), hfacts] at h
      simp [orError, hcalls, bind_eq_ok, require_eq_ok] at h
    · split_ifs at h
      · obtain ⟨_, -, h⟩ := bind_eq_ok.mp h
        split_ifs at h
        · exact ih hmem h
        · simp [bind_eq_ok] at h
      · exact ih hmem h

/-- A run at rest for which the tooling planner plans nothing is at a boundary. -/
theorem atBoundary_of_plan (h : Inv s) (hopen : s.lifecycle.status = .open)
    (hactive : s.runs.active = some run) (hstatus : run.status = .running)
    (hturn : run.activeTurnId = none) (hbatch : run.activeToolBatchId = none)
    (hplan : planToolNext s = .ok []) : run.AtBoundary := by
  refine ⟨hturn, hbatch, ?_⟩
  by_contra hunstarted
  rw [Bool.not_eq_false] at hunstarted
  obtain ⟨turnId, turn, hlast, houtcome, hnone⟩ :=
    ((h.run run hactive).hasUnstarted_iff hturn).mp hunstarted
  have hget := OrdMap.get?_of_last? hlast
  have hne : run.activeTurnId ≠ some turnId := by simp [hturn]
  obtain ⟨outcome, houtcome', hcompleted⟩ := (h.run run hactive).endedTurn turnId turn hget hne
  obtain rfl : TurnOutcome.toolCallsQueued = outcome :=
    Option.mem_unique houtcome houtcome'
  obtain ⟨facts, planned, hqueued, -⟩ :=
    (h.run run hactive).queuedTurn turnId turn hget hne houtcome
  have hawaits : awaitsBatch run turnId turn = true := by
    simp [awaitsBatch, houtcome, hnone, hcompleted, TurnOutcome.status]
  have hmem : (turnId, turn) ∈ run.turns.entries := OrdMap.get?_eq_some_iff.mp hget
  refine planBatchStart_ne_nil hmem hawaits hqueued.hasFacts hqueued.calls (s := s) ?_
  simpa [planToolNext, planActiveBatch, hopen, hactive, hturn, hbatch, hstatus] using hplan

theorem turnLimitFailure_eq_some (h : turnLimitFailure s run = some event) :
    hasUnstartedToolCallTurn run = false ∧ ∃ failure, event = .failed run.runId failure := by
  unfold turnLimitFailure at h
  split_ifs at h with hlimit
  exact ⟨by simpa using hlimit.2, _, (Option.some.inj h).symm⟩

/-- A turn ends its run by completing it with its output, or by failing it when it owes no batch. -/
theorem turnTerminalEvent_cases (h : turnTerminalEvent s run turnId turn = .ok (some event)) :
    (∃ output, event = .completed run.runId output ∧ turn.outcome = some (.finalOutput output) ∧
      hasUnconsumedSteering run = false) ∨
    ((turn.outcome = some .toolCallsQueued → hasUnstartedToolCallTurn run = false) ∧
      ∃ failure, event = .failed run.runId failure) := by
  unfold turnTerminalEvent at h
  dsimp only at h
  split at h
  next failureRef hstatus houtcome =>
    split_ifs at h
    · exact .inr ⟨by simp [houtcome], _, (Option.some.inj (Except.ok.inj h)).symm⟩
    · obtain ⟨hstarted, hfailed⟩ := turnLimitFailure_eq_some (Except.ok.inj h)
      exact .inr ⟨fun _ => hstarted, hfailed⟩
  next output hstatus houtcome =>
    split_ifs at h with hsteering
    · obtain ⟨hstarted, hfailed⟩ := turnLimitFailure_eq_some (Except.ok.inj h)
      exact .inr ⟨fun _ => hstarted, hfailed⟩
    · have hevent := (Option.some.inj (Except.ok.inj h)).symm
      exact .inl ⟨output, hevent, houtcome, by simpa using hsteering⟩
  next failureRef hstatus houtcome =>
    exact .inr ⟨by simp [houtcome], _, (Option.some.inj (Except.ok.inj h)).symm⟩
  next failureRef hstatus houtcome =>
    exact .inr ⟨by simp [houtcome], _, (Option.some.inj (Except.ok.inj h)).symm⟩
  next hstatus houtcome =>
    exact .inr ⟨by simp [houtcome], _, (Option.some.inj (Except.ok.inj h)).symm⟩
  next hstatus houtcome =>
    obtain ⟨hstarted, hfailed⟩ := turnLimitFailure_eq_some (Except.ok.inj h)
    exact .inr ⟨fun _ => hstarted, hfailed⟩
  next hstatus houtcome =>
    obtain ⟨hstarted, hfailed⟩ := turnLimitFailure_eq_some (Except.ok.inj h)
    exact .inr ⟨fun _ => hstarted, hfailed⟩
  all_goals cases h

/-- The latest turn ends its run at a boundary. -/
theorem atBoundary_of_end (h : Inv s) (hactive : s.runs.active = some run)
    (hturn : run.activeTurnId = none) (hbatch : run.activeToolBatchId = none)
    (hlast : run.turns.last? = some (turnId, turn))
    (hevent : turnTerminalEvent s run turnId turn = .ok (some event)) : run.AtBoundary := by
  refine ⟨hturn, hbatch, ?_⟩
  by_contra hunstarted
  rw [Bool.not_eq_false] at hunstarted
  obtain ⟨turnId', turn', hlast', houtcome, -⟩ :=
    ((h.run run hactive).hasUnstarted_iff hturn).mp hunstarted
  obtain ⟨rfl, rfl⟩ : turnId = turnId' ∧ turn = turn' := by
    simpa using Option.mem_unique hlast hlast'
  rcases turnTerminalEvent_cases hevent with ⟨output, -, houtput, -⟩ | ⟨hstarted, -⟩
  · rw [houtput] at houtcome
    cases houtcome
  · rw [hstarted houtcome] at hunstarted
    cases hunstarted

/-- One proposal that is warranted where it is made. -/
theorem Backed.one (hjoined : proposal.isJoined) (hknew : Knew base input s proposal.event.stored) :
    Backed base input s [proposal] :=
  .ended (warrants_of_knew hjoined hknew) (by simp)

/-- One proposal that needs no warrant. -/
theorem Backed.oneFree (hfree : proposal.event.isFree = true) (hjoined : proposal.isJoined) :
    Backed base input s [proposal] :=
  .ended (warrants_of_free hfree hjoined) (by simp)

theorem planned_backed (h : Inv s) (hsettled : s.ForActive RunSettled)
    (hplan : Planned s proposals) : Backed s .nextAction s proposals := by
  cases hplan with
  | parkRun hopen hactive hstatus hidle hpending
  | applyInput hopen hactive hstatus hcompaction hentries
  | applySteering hopen hactive hstatus hcompaction hturn hbatch htool hentries
  | cancelTurn hopen hactive hstatus hid hturn hopenTurn
  | planTurn hopen hactive hstatus hbatch hid hturn hstarted hrequest
  | requestGeneration hopen hactive hid hturn hplanned hrequest | abandonCompaction hopen hphase =>
    exact .oneFree rfl (isJoined_of_none rfl)
  | startRun hopen hactive hqueued hcompaction =>
    exact .one (by rintro _ ⟨⟩; rfl) hcompaction
  | @cancelRun run hopen hactive hstatus hidle =>
    refine .one (by rintro _ ⟨⟩; rfl) fun run' hactive' => ?_
    obtain rfl : run = run' := Option.mem_unique hactive hactive'
    exact ⟨hidle, (hsettled run hactive).cancelling hstatus⟩
  | @endRun run turnId turn event hopen hactive hstatus hturn hbatch happroval hlast hevent hsteering =>
    have hidle := atBoundary_of_end h hactive hturn hbatch hlast hevent
    have hpending := planApprovalNext_eq_nil happroval hopen hactive hstatus hidle
    rcases turnTerminalEvent_cases hevent with ⟨output, rfl, -, hconsumed⟩ | ⟨-, failure, rfl⟩
    · refine .one (by rintro _ ⟨⟩; rfl) fun run' hactive' => ?_
      obtain rfl : run = run' := Option.mem_unique hactive hactive'
      exact ⟨hstatus, hidle, hconsumed, hpending⟩
    · refine .one (by rintro _ ⟨⟩; rfl) fun run' hactive' => ?_
      obtain rfl : run = run' := Option.mem_unique hactive hactive'
      exact ⟨.inl ⟨hstatus, rfl⟩, hpending⟩
  | @guardRun run hopen hactive hstatus hidle happroval hsteering =>
    have hpending := planApprovalNext_eq_nil happroval hopen hactive hstatus hidle
    refine .one (by rintro _ ⟨⟩; rfl) fun run' hactive' => ?_
    obtain rfl : run = run' := Option.mem_unique hactive hactive'
    exact ⟨.inl ⟨hstatus, rfl⟩, hpending⟩
  | startCalls hopen hactive hstatus hturn hid hbatch hparked hrun
  | cancelCalls hopen hactive hstatus hturn hid hbatch hparked =>
    refine .free fun proposal hmem => ?_
    obtain ⟨call, -, rfl⟩ := List.mem_map.mp hmem
    exact ⟨rfl, isJoined_of_none rfl⟩
  | completeBatch hopen hactive hstatus hturn hid hbatch hparked hterminal hentries =>
    refine .free fun proposal hmem => ?_
    rcases mem_batchProposals hmem with rfl | rfl <;> exact ⟨rfl, isJoined_of_none rfl⟩
  | startBatch hopen hactive hstatus hturn hbatch hget hawaits hfacts hcalls hplanned hrevision =>
    exact .one (isJoined_of_none rfl) ⟨rfl, rfl, _, _, _, hactive, hget, hawaits⟩
  | pruneContext hopen hcompaction hproposal =>
    obtain ⟨-, rfl⟩ := providerCompactedPrune_eq_some hproposal
    exact .oneFree rfl (isJoined_of_none rfl)
  | requestCompaction hopen hboundary happroval hcovers htrigger =>
    refine .one (isJoined_of_none rfl) fun _ run hactive => ?_
    obtain ⟨-, -, hsafe⟩ := compactionSafeBoundary_iff.mp hboundary
    obtain ⟨hstatus, hidle⟩ := hsafe run hactive
    exact planApprovalNext_eq_nil happroval hopen hactive hstatus hidle
  | @startTurn run hopen hactive hstatus hturn hbatch hcompaction happroval htool hcontext =>
    have hidle := atBoundary_of_plan h hopen hactive hstatus hturn hbatch htool
    refine .one (isJoined_of_none rfl) ⟨hcompaction, fun run' hactive' => ?_⟩
    obtain rfl : run = run' := Option.mem_unique hactive hactive'
    exact ⟨hidle, planApprovalNext_eq_nil happroval hopen hactive hstatus hidle⟩

/-! ## Results -/

theorem sparesRuns_stored (event : CoreAgentEvent) :
    event.stored.sparesRuns = event.sparesRuns := by
  cases event <;> rfl

theorem sparesRuns_of_quiet {event : CoreAgentEvent} (h : event.isQuiet = true) :
    event.sparesRuns = true := by
  cases event <;> first | rfl | cases h

/-- The active run works on this batch. -/
def WorksOn (batchId : ToolBatchId) (s : CoreAgentState) : Prop :=
  s.ForActive fun run => run.activeToolBatchId = some batchId

theorem resultEvent_terminalRunId {event : CoreAgentEvent} {base : CoreAgentState}
    (h : ResultEvent base scope event) : event.terminalRunId = none := by
  cases h with
  | quiet hquiet => exact (isFree_of_quiet hquiet).2.2
  | _ => rfl

theorem resultEvent_warrants (h : ResultEvent origin scope proposal.event)
    (hworks : WorksOn scope.batchId s) : Warrants base input s proposal := by
  obtain ⟨joins, event⟩ := proposal
  cases h with
  | quiet hquiet => exact warrants_of_quiet hquiet
  | completed horigin | created hscope hmint => exact warrants_of_free rfl (isJoined_of_none rfl)
  | @parked suspension horigin hjoined =>
    refine warrants_of_free ?_ (isJoined_of_none rfl)
    cases suspension with
    | awaitTool callId spec => cases hjoined
    | joinedWorkflowCalls calls spec => rfl
  | invoked hbatch =>
    refine warrants_of_knew (isJoined_of_none rfl) ?_
    unfold invocationEvent
    split
    · exact fun run hactive => hbatch ▸ hworks run hactive
    · exact fun run hactive => hbatch ▸ hworks run hactive

theorem resultEvent_worksOn (h : ResultEvent origin scope proposal.event)
    (hworks : WorksOn scope.batchId s) (happly : applyEvent s (proposal.entry seq ms) = .ok t) :
    WorksOn scope.batchId t := by
  obtain ⟨joins, event⟩ := proposal
  have hspared : event.sparesRuns = true → WorksOn scope.batchId t := by
    intro hspares run hactive
    have hevent : (CoreAgentEventProposal.entry ⟨joins, event⟩ seq ms).event.sparesRuns = true :=
      (sparesRuns_stored event).trans hspares
    rw [applyEvent_runs hevent happly] at hactive
    exact hworks run hactive
  cases h with
  | quiet hquiet => exact hspared (sparesRuns_of_quiet hquiet)
  | created hscope hmint | invoked hbatch => exact hspared rfl
  | completed horigin =>
    obtain ⟨-, m, hm, rfl⟩ := applyEvent_eq_ok.mp happly
    obtain ⟨run, batch, calls, hactive, -, hid, -, -, -, -, -, -, rfl⟩ := callCompleted_eq_ok.mp hm
    rintro run' ⟨⟩
    exact hid
  | parked horigin hjoined =>
    obtain ⟨-, m, hm, rfl⟩ := applyEvent_eq_ok.mp happly
    obtain ⟨run, batch, hactive, -, -, -, hid, -, -, -, -, -, -, rfl⟩ := batchParked_eq_ok.mp hm
    rintro run' ⟨⟩
    exact hid

/-- The events of results are backed while the active run works on their batch. -/
theorem results_backed {tail : List CoreAgentEventProposal}
    (hevents : ∀ proposal ∈ proposals, ResultEvent origin scope proposal.event)
    (hworks : WorksOn scope.batchId s)
    (htail : ∀ t, WorksOn scope.batchId t → Backed base input t tail) :
    Backed base input s (proposals ++ tail) :=
  .of_stable (fun proposal hmem => resultEvent_terminalRunId (hevents proposal hmem))
    (fun proposal hmem _ hs => resultEvent_warrants (hevents proposal hmem) hs)
    (fun proposal hmem _ _ _ _ hs ht => resultEvent_worksOn (hevents proposal hmem) hs ht) htail hworks

theorem resultEvent_mayPrune {event : CoreAgentEvent} (h : ResultEvent origin scope event) :
    event.stored.mayPrune = false := by
  cases h with
  | @quiet event hquiet =>
    cases event with
    | run event | tool event => cases hquiet
    | _ => rfl
  | invoked hbatch => rfl
  | _ => rfl

/-- The events of results, followed by the park of their batch on promises that are there. -/
theorem results_parked_backed {joins : CoreAgentJoins} {batchId : ToolBatchId} {callId : ToolCallId}
    {spec : AwaitSpec} (hinv : EntriesInv s)
    (hevents : ∀ proposal ∈ proposals, ResultEvent origin scope proposal.event)
    (hworks : WorksOn scope.batchId s) (hne : spec.promiseIds ≠ [])
    (hthere : ∀ id ∈ spec.promiseIds, s.promises.promises.contains id = true) :
    Backed base input s (proposals ++
      [⟨joins, .tool (.batchParked runId turnId batchId (.awaitTool callId spec))⟩]) := by
  let P : CoreAgentState → Prop := fun s => EntriesInv s ∧ WorksOn scope.batchId s ∧
    ∀ id ∈ spec.promiseIds, s.promises.promises.contains id = true
  refine .of_stable (P := P) (fun proposal hmem => resultEvent_terminalRunId (hevents proposal hmem))
    (fun proposal hmem _ hs => resultEvent_warrants (hevents proposal hmem) hs.2.1) ?_ ?_
    ⟨hinv, hworks, hthere⟩
  · intro proposal hmem u seq ms v hu hv
    refine ⟨applyEvent_entriesInv hu.1 hv, resultEvent_worksOn (hevents proposal hmem) hu.2.1 hv, ?_⟩
    exact fun id hid => applyEvent_contains hu.1 (resultEvent_mayPrune (hevents proposal hmem)) hv
      (hu.2.2 id hid)
  · exact fun u hu => .one (isJoined_of_none rfl) ⟨hne, hu.2.2⟩

theorem results_backed_alone
    (hevents : ∀ proposal ∈ proposals, ResultEvent origin scope proposal.event)
    (hworks : WorksOn scope.batchId s) : Backed base input s proposals := by
  rw [← List.append_nil proposals]
  exact results_backed hevents hworks fun _ _ => .plain (by simp)

/-! ## Approvals -/

/-- The approvals that are still pending are among these. -/
def PendingWithin (ids : List ApprovalId) (s : CoreAgentState) : Prop :=
  s.ForActive fun run =>
    ∀ id record, run.approvals.get? id = some record → record.status = .pending → id ∈ ids

theorem PendingWithin.pendingApprovals (h : PendingWithin [] s) :
    s.ForActive fun run => run.pendingApprovals = [] := by
  intro run hactive
  rw [List.eq_nil_iff_forall_not_mem]
  intro record hrecord
  obtain ⟨⟨id, hget⟩, hstatus⟩ := mem_pendingApprovals.mp hrecord
  exact absurd (h run hactive id record hget hstatus) List.not_mem_nil

theorem PendingWithin.of_nil (h : s.ForActive fun run => run.pendingApprovals = []) :
    PendingWithin [] s := by
  intro run hactive id record hget hstatus
  exact absurd (h run hactive) (pendingApprovals_ne_nil hget hstatus)

theorem PendingWithin.of_run (h : Inv s) (hactive : s.runs.active = some run) :
    PendingWithin (run.pendingApprovals.map (fun record => record.request.approvalId)) s := by
  intro run' hactive' id record hget hstatus
  obtain rfl : run = run' := Option.mem_unique hactive hactive'
  have hid := ((h.run run hactive).approvals id record hget).1
  exact List.mem_map.mpr ⟨record, mem_pendingApprovals.mpr ⟨⟨id, hget⟩, hstatus⟩, hid⟩

/-- A context event leaves the approvals as they are. -/
theorem PendingWithin.context {event : ContextEvent} (hinv : EntriesInv s) (h : PendingWithin ids s)
    (hevent : proposal.event = .context event)
    (happly : applyEvent s (proposal.entry seq ms) = .ok t) : EntriesInv t ∧ PendingWithin ids t := by
  refine ⟨applyEvent_entriesInv hinv happly, ?_⟩
  obtain ⟨-, m, hm, rfl⟩ := applyEvent_eq_ok.mp happly
  have hm' : applyContextEvent s event.stored = .ok m := by
    simpa [applyEventKind, CoreAgentEventProposal.entry, hevent, CoreAgentEvent.stored] using hm
  intro run' hactive' id record hget hstatus
  obtain ⟨run, hactive, hkept⟩ := (applyContextEvent_frame hinv hm').active run' hactive'
  rw [hkept.run] at hget
  exact h run hactive id record hget hstatus

/-- A cancelled approval is no longer pending. -/
theorem PendingWithin.cancelled {id : ApprovalId} (hinv : EntriesInv s)
    (h : PendingWithin (id :: ids) s)
    (happly : applyEvent s ((runProposal runId (.approval (.cancelled id runId))).entry seq ms) =
      .ok t) : EntriesInv t ∧ PendingWithin ids t := by
  refine ⟨applyEvent_entriesInv hinv happly, ?_⟩
  obtain ⟨-, m, hm, rfl⟩ := applyEvent_eq_ok.mp happly
  have hm' : applyApprovalEvent s ms (.cancelled id runId) = .ok m := hm
  obtain ⟨run, record, hactive, -, -, -, -, rfl⟩ := approvalCancelled_eq_ok.mp hm'
  rintro run' ⟨⟩ id' record' hget hstatus
  by_cases hid : id' = id
  · subst hid
    rw [OrdMap.get?_insert_self] at hget
    cases hget
    cases hstatus
  · rw [OrdMap.get?_insert_ne _ _ (Ne.symm hid)] at hget
    exact (List.mem_cons.mp (h run hactive id' record' hget hstatus)).resolve_left hid

/-- The cancellations of every pending approval leave none. -/
theorem cancellations_backed {tail : List CoreAgentEventProposal} (hinv : EntriesInv s)
    (h : PendingWithin ids s)
    (htail : ∀ t, EntriesInv t → PendingWithin [] t → Backed base input t tail) :
    Backed base input s
      (ids.map (fun id => runProposal runId (.approval (.cancelled id runId))) ++ tail) := by
  induction ids generalizing s with
  | nil => exact htail s hinv h
  | cons id rest ih =>
    refine .cons rfl (warrants_of_free rfl (isJoined_of_none rfl)) fun seq ms t ht => ?_
    obtain ⟨hinv', h'⟩ := h.cancelled hinv ht
    exact ih hinv' h'

/-- Entries that are applied leave the approvals as they are. -/
theorem applied_backed {revision : Nat} {tail : List CoreAgentEventProposal} (hinv : EntriesInv s)
    (h : PendingWithin ids s)
    (htail : ∀ t, EntriesInv t → PendingWithin ids t → Backed base input t tail) :
    Backed base input s (appliedProposals runId revision entries ++ tail) := by
  unfold appliedProposals
  split_ifs
  · exact htail s hinv h
  · refine .cons rfl (warrants_of_free rfl (isJoined_of_none rfl)) fun seq ms t ht => ?_
    obtain ⟨hinv', h'⟩ := h.context hinv rfl ht
    exact htail t hinv' h'

theorem pendingApprovalCancellations_eq (run : ActiveRun) :
    pendingApprovalCancellations run =
      (run.pendingApprovals.map (fun record => record.request.approvalId)).map
        (fun id => runProposal run.runId (.approval (.cancelled id run.runId))) := by
  rw [pendingApprovalCancellations, List.map_map]
  rfl

theorem failRun_backed (h : Inv s) {messageRef : BlobRef} (hactive : s.runs.active = some run)
    (hfail : failRunProposals s run messageRef = .ok proposals) :
    Backed s (.admitCommand (.failRun run.runId messageRef)) s proposals := by
  simp only [failRunProposals, bind_eq_ok, Except.ok.injEq] at hfail
  obtain ⟨closing, -, rfl⟩ := hfail
  rw [List.append_assoc, List.append_assoc, pendingApprovalCancellations_eq]
  refine applied_backed h.entries (.of_run h hactive) fun s₁ hinv₁ h₁ => ?_
  refine cancellations_backed hinv₁ h₁ fun s₂ hinv₂ h₂ => ?_
  refine applied_backed hinv₂ h₂ fun s₃ _ h₃ => ?_
  refine .one (by rintro _ ⟨⟩; rfl) fun run' hactive' => ?_
  exact ⟨.inr (.inl ⟨run, messageRef, hactive, rfl, rfl⟩), h₃.pendingApprovals run' hactive'⟩

/-- A forced close ends the approvals of the active run before the run. -/
theorem forceClose_backed (h : Inv s) :
    Backed s input s (forceCloseProposals s ++ [sessionProposal (.lifecycle .closed)]) := by
  have hrest : ∀ proposal ∈ s.runs.queued.map (fun queued => runProposal queued.runId
        (.run (.queuedCancelled queued.runId))) ++
      (s.promises.pending.filter (fun promise => promise.scope == .session)).map
        (fun promise => sessionProposal (.promise (.cancelled promise.promiseId))) ++
      [sessionProposal (.lifecycle .closed)], proposal.event.isFree = true ∧ proposal.isJoined := by
    intro proposal hmem
    simp only [List.mem_append, List.mem_map, List.mem_singleton] at hmem
    rcases hmem with (⟨queued, -, rfl⟩ | ⟨promise, -, rfl⟩) | rfl
    · exact ⟨rfl, by rintro _ ⟨⟩; rfl⟩
    · exact ⟨rfl, isJoined_of_none rfl⟩
    · exact ⟨rfl, isJoined_of_none rfl⟩
  have habandon : ∀ ids tail, PendingWithin ids s →
      (∀ t, EntriesInv t → PendingWithin ids t → Backed s input t tail) →
      Backed s input s ((if s.context.compaction.isPending ∨ s.context.compaction.isQueued then
        [compactionAbandonedProposal s] else []) ++ tail) := by
    intro ids tail hwithin htail
    split_ifs
    · refine .cons rfl (warrants_of_free rfl (isJoined_of_none rfl)) fun seq ms t ht => ?_
      obtain ⟨hinv', hwithin'⟩ := hwithin.context h.entries rfl ht
      exact htail t hinv' hwithin'
    · exact htail s h.entries hwithin
  unfold forceCloseProposals
  cases hactive : s.runs.active with
  | none =>
    dsimp only
    rw [List.append_nil, List.append_assoc, List.append_assoc]
    refine habandon [] _ (fun run hrun => ?_) fun t _ _ => ?_
    · rw [hactive] at hrun
      cases hrun
    · rw [← List.append_assoc]
      exact .free hrest
  | some run =>
    dsimp only
    simp only [List.append_assoc]
    refine habandon _ _ (.of_run h hactive) fun s₁ hinv₁ h₁ => ?_
    rw [pendingApprovalCancellations_eq]
    refine cancellations_backed hinv₁ h₁ fun s₂ hinv₂ h₂ => ?_
    refine .ended (warrants_of_knew (by rintro _ ⟨⟩; rfl) fun run' hactive' => .inl ?_) ?_
    · exact h₂.pendingApprovals run' hactive'
    · intro proposal hmem t
      rw [← List.append_assoc] at hmem
      obtain ⟨hfree, hjoined⟩ := hrest proposal hmem
      exact warrants_of_free hfree hjoined

theorem forceCancel_backed (h : Inv s) {closing : List ContextEntry}
    (hactive : s.runs.active = some run) :
    Backed s (.admitCommand (.forceCancelRun run.runId)) s
      (appliedProposals run.runId s.context.revision closing ++
        [runProposal run.runId (.run (.forceCancelled run.runId))]) := by
  by_cases hpending : run.pendingApprovals = []
  · have hnone : PendingWithin [] s := .of_nil fun run' hactive' => by
      obtain rfl : run = run' := Option.mem_unique hactive hactive'
      exact hpending
    refine applied_backed h.entries hnone fun t _ ht => ?_
    exact .one (by rintro _ ⟨⟩; rfl) fun run' hactive' => .inl (ht.pendingApprovals run' hactive')
  · refine applied_backed h.entries (.of_run h hactive) fun t _ _ => ?_
    exact .one (by rintro _ ⟨⟩; rfl) fun _ _ => .inr ⟨run, hactive, rfl, hpending⟩

/-- A context event leaves the status of the active run as it is. -/
theorem forActive_status_context {status : RunStatus} {event : ContextEvent} (hinv : EntriesInv s)
    (h : s.ForActive fun run => run.status = status) (hevent : proposal.event = .context event)
    (happly : applyEvent s (proposal.entry seq ms) = .ok t) :
    t.ForActive fun run => run.status = status := by
  obtain ⟨-, m, hm, rfl⟩ := applyEvent_eq_ok.mp happly
  have hm' : applyContextEvent s event.stored = .ok m := by
    simpa [applyEventKind, CoreAgentEventProposal.entry, hevent, CoreAgentEvent.stored] using hm
  intro run' hactive'
  obtain ⟨run, hactive, hkept⟩ := (applyContextEvent_frame hinv hm').active run' hactive'
  exact hkept.status.trans (h run hactive)

theorem overflowed_backed (h : Inv s) {plan : ContextCompactionPlan}
    {result : ContextCompactionResult} (hplan : s.context.compaction.pendingPlan = some plan)
    (hstatus : result.status = .failed) (hactive : s.runs.active = some run)
    (htrigger : plan.trigger = .contextLimit) :
    Backed s (.resumeContextCompaction result) s
      (sessionProposal (.context (.compactionFinished s.context.revision .failed
          result.failureRef result.usage result.calls)) ::
        overflowFailureProposals s run (s.context.revision + 1) result.failureRef) := by
  have hnone : PendingWithin [] s :=
    .of_nil fun run hactive => (h.compaction.overflow plan hplan htrigger run hactive).1
  have hrun : s.ForActive fun run' => run'.status = run.status := by
    intro run' hactive'
    rw [Option.mem_unique hactive' hactive]
  refine .cons rfl (warrants_of_free rfl (isJoined_of_none rfl)) fun seq ms s₁ ht => ?_
  obtain ⟨hinv₁, h₁⟩ := hnone.context h.entries rfl ht
  have hrun₁ := forActive_status_context h.entries hrun rfl ht
  have hfailed : ∀ t, PendingWithin [] t → (t.ForActive fun run' => run'.status = run.status) →
      Backed s (.resumeContextCompaction result) t
        [runProposal run.runId (.run (.failed run.runId
          (runFailure .contextFailure result.failureRef contextLimitFailureContent)))] := by
    intro t hpending hrun'
    refine .one (by rintro _ ⟨⟩; rfl) fun run' hactive' => ?_
    exact ⟨.inr (.inr ⟨run, hactive, (hrun' run' hactive').symm, result, plan, rfl, hstatus, hplan,
      htrigger⟩), hpending.pendingApprovals run' hactive'⟩
  unfold overflowFailureProposals
  dsimp only
  split_ifs
  · refine .cons rfl (warrants_of_free rfl (isJoined_of_none rfl)) fun seq ms s₂ ht => ?_
    exact hfailed s₂ (h₁.context hinv₁ rfl ht).2 (forActive_status_context hinv₁ hrun₁ rfl ht)
  · exact hfailed s₁ h₁ hrun₁

/-! ## Generations -/

/-- A turn that queues its calls has some, with distinct ids. -/
theorem usable_of_toolCallsQueued (h : turnOutcomeForGenerationResult result = .toolCallsQueued) :
    result.facts.toolCalls ≠ [] ∧ (result.facts.toolCalls.map ObservedToolCall.callId).Nodup := by
  unfold turnOutcomeForGenerationResult at h
  split at h
  · cases h
  · cases h
  · split_ifs at h
  · unfold succeededTurnOutcome at h
    split_ifs at h with hcalls husable
    · unfold generatedToolCallsAreUsable at husable
      simp only [Bool.and_eq_true, decide_eq_true_eq] at husable
      exact ⟨hcalls.2, husable.1.1⟩
    · cases h
    · split at h <;> cases h

theorem callIds_stored (calls : List ObservedToolCall) :
    (calls.map ObservedToolCall.stored).map ObservedToolCall.callId =
      calls.map ObservedToolCall.callId := by
  rw [List.map_map]
  rfl

theorem stored_eq_toolCallsQueued {outcome : TurnOutcome} (h : outcome.stored = .toolCallsQueued) :
    outcome = .toolCallsQueued := by
  cases outcome <;> first | rfl | cases h

/-- The active turn has settled with these facts. -/
def SettledWith (turnId : TurnId) (facts : LlmGenerationFacts) (s : CoreAgentState) : Prop :=
  s.ForActive fun run => run.activeTurnId = some turnId ∧
    ∃ turn, run.turns.get? turnId = some turn ∧ turn.facts = some facts

theorem settledWith_of_completed
    (h : applyEvent s ((turnProposal result.runId result.turnId (.turn (.generationCompleted
      result.turnId result.runId result.status result.facts))).entry seq ms) = .ok t) :
    SettledWith result.turnId result.facts.stored t := by
  obtain ⟨-, m, hm, rfl⟩ := applyEvent_eq_ok.mp h
  obtain ⟨run, turn, hactive, -, hid, hget, -, context, -, -, -, rfl⟩ := generationCompleted_ok hm
  rintro run' ⟨⟩
  unfold ActiveRun.settleTurn
  dsimp only
  split_ifs <;> exact ⟨hid, _, OrdMap.get?_insert_self _ _ _, rfl⟩

theorem generation_backed {requests : List ObservedApprovalRequest} :
    Backed base input s (generationProposals s result entries requests) := by
  let propose := turnProposal result.runId result.turnId
  -- Once the turn has settled, its approvals keep its facts, which its outcome agrees with.
  have hsettled : ∀ t, SettledWith result.turnId result.facts.stored t → Backed base input t
      ((approvalRequestsAfter result.runId s.idCursors.lastApprovalId requests).map
          (fun approval => propose (.approval (.requested approval))) ++
        [propose (.turn (.completed result.turnId (turnOutcomeForGenerationResult result)))]) := by
    intro t ht
    refine .of_stable (P := SettledWith result.turnId result.facts.stored) ?_ ?_ ?_ ?_ ht
    · intro proposal hmem
      obtain ⟨approval, -, rfl⟩ := List.mem_map.mp hmem
      rfl
    · intro proposal hmem u hu
      obtain ⟨approval, -, rfl⟩ := List.mem_map.mp hmem
      refine warrants_of_knew (isJoined_of_none rfl) fun run hactive => .inl ?_
      simp [(hu run hactive).1]
    · intro proposal hmem u seq ms v hu hv
      obtain ⟨approval, -, rfl⟩ := List.mem_map.mp hmem
      obtain ⟨-, m, hm, rfl⟩ := applyEvent_eq_ok.mp hv
      obtain ⟨run, hactive, -, -, -, -, rfl⟩ := approvalRequested_eq_ok.mp hm
      rintro run' ⟨⟩
      exact hu run hactive
    · intro u hu
      refine .one (isJoined_of_none rfl) fun houtcome run hactive turn hget => ?_
      obtain ⟨hcalls, hdistinct⟩ := usable_of_toolCallsQueued (stored_eq_toolCallsQueued houtcome)
      obtain ⟨-, turn', hget', hfacts⟩ := hu run hactive
      obtain rfl : turn = turn' := Option.mem_unique hget hget'
      refine ⟨_, hfacts, ?_, ?_⟩
      · simpa [LlmGenerationFacts.stored] using hcalls
      · rw [LlmGenerationFacts.stored, callIds_stored]
        exact hdistinct
  have hcompleted : ∀ t, Backed base input t
      (propose (.turn (.generationCompleted result.turnId result.runId result.status result.facts)) ::
        ((approvalRequestsAfter result.runId s.idCursors.lastApprovalId requests).map
            (fun approval => propose (.approval (.requested approval))) ++
          [propose (.turn (.completed result.turnId (turnOutcomeForGenerationResult result)))])) :=
    fun t => .cons rfl (warrants_of_free rfl (by rintro _ ⟨⟩; rfl)) fun seq ms u hu =>
      hsettled u (settledWith_of_completed hu)
  unfold generationProposals
  dsimp only
  split_ifs
  · simpa [List.append_assoc] using hcompleted s
  · simp only [List.cons_append, List.nil_append]
    exact .cons rfl (warrants_of_free rfl (isJoined_of_none rfl)) fun seq ms t _ => hcompleted t

/-! ## Every input -/

theorem worksOn_of_matches {result : ToolInvocationBatchResult} {requireParked : Bool}
    (h : validateResultMatchesActiveToolBatch s result requireParked = .ok ()) :
    ∃ run, s.runs.active = some run ∧ run.runId = result.runId ∧
      run.activeToolBatchId = some result.batchId := by
  simp only [validateResultMatchesActiveToolBatch, bind_eq_ok, orError_eq_ok, require_eq_ok,
    exists_unit] at h
  obtain ⟨run, hactive, ⟨hrun, hid⟩, -⟩ := h
  exact ⟨run, hactive, hrun, hid⟩

theorem worksOn_of_active {batchId : ToolBatchId} (hactive : s.runs.active = some run)
    (hid : run.activeToolBatchId = some batchId) : WorksOn batchId s := by
  intro run' hactive'
  obtain rfl : run = run' := Option.mem_unique hactive hactive'
  exact hid

/-- A code call that is open was made for the batch that the active run works on. -/
theorem worksOn_of_codeCall (h : Inv s) {origin : CodeToolOrigin} {call : CodeToolCall}
    {parent : WorkflowToolInvocation} (hcall : codeToolCall s origin = some call)
    (hstatus : call.status = .pending) (hparent : codeToolCallParent s origin = .ok parent) :
    ∃ run, s.runs.active = some run ∧ run.runId = parent.runId ∧
      run.activeToolBatchId = some parent.toolBatchId := by
  simp only [codeToolCallParent, bind_eq_ok, orError_eq_ok] at hparent
  obtain ⟨scope, hscope, hparent⟩ := hparent
  rw [codeToolCall, hscope, Option.bind_some] at hcall
  obtain ⟨parent', run, parked, hparent', hactive, hrun, hparked, hbatch⟩ :=
    h.code scope (OrdMap.mem_values.mpr ⟨_, hscope⟩) call (OrdMap.mem_values.mpr ⟨_, hcall⟩)
      (by rw [hstatus]; rfl)
  obtain rfl : parent = parent' := Except.ok.inj (hparent.symm.trans hparent')
  exact ⟨run, hactive, hrun, hbatch ▸ (h.run run hactive).parked parked hparked⟩

theorem unpark_backed (h : Inv s) {parked : ParkedToolBatch} {command : UnparkToolBatchCommand}
    {result : ToolInvocationBatchResult} {completed : List CoreAgentEventProposal}
    {observedAtMs : Nat} {cancelled : List PromiseId} (hactive : s.runs.active = some run)
    (hparked : run.parkedToolBatch = some parked) (hrun : run.runId = command.runId)
    (hbatch : parked.batchId = command.batchId)
    (hclaim : overtakenUnparkClaim s command observedAtMs = none)
    (hmatches : validateResultMatchesActiveToolBatch s result true = .ok ())
    (hcompleted : toolCallCompletedProposals s (result.scope none) result.results = .ok completed) :
    Backed base input s (cancelled.map
        (fun promiseId => ⟨result.joins, .promise (.cancelled promiseId)⟩) ++
      [⟨result.joins, .tool (.batchUnparked result.runId result.turnId result.batchId)⟩] ++
      completed) := by
  obtain ⟨run', hactive', hrun', hid⟩ := worksOn_of_matches hmatches
  obtain rfl : run = run' := Option.mem_unique hactive hactive'
  have hbatchId : result.batchId = command.batchId := by
    have := hid.symm.trans ((h.run run hactive).parked parked hparked)
    exact (Option.some.inj this).trans hbatch
  have hfree : s.codeTools.scopes.values.any
      (fun scope => scope.holdsUp s command.runId command.batchId) = false := by
    by_contra hheld
    rw [Bool.not_eq_false] at hheld
    simp [overtakenUnparkClaim, hactive, hparked, hrun, hbatch, hheld] at hclaim
  have hheld : ∀ scope ∈ s.codeTools.scopes.values,
      scope.holdsUp s result.runId result.batchId = false := by
    intro scope hscope
    rw [← hrun', hrun, hbatchId]
    simpa using List.any_eq_false.mp hfree scope hscope
  obtain ⟨hevents, -⟩ := toolCallCompletedProposals_spec hcompleted
  rw [List.append_assoc]
  -- Cancelling promises moves neither the runs, nor the scopes, nor the invocations behind them.
  refine .of_stable (P := fun t => t.runs = s.runs ∧ t.codeTools = s.codeTools ∧
    t.workflowTools = s.workflowTools) ?_ ?_ ?_ ?_ ⟨rfl, rfl, rfl⟩
  · intro proposal hmem
    obtain ⟨id, -, rfl⟩ := List.mem_map.mp hmem
    rfl
  · intro proposal hmem t _
    obtain ⟨id, -, rfl⟩ := List.mem_map.mp hmem
    exact warrants_of_quiet rfl
  · rintro proposal hmem t seq ms u ⟨hruns, hcode, hworkflow⟩ hu
    obtain ⟨id, -, rfl⟩ := List.mem_map.mp hmem
    obtain ⟨-, m, hm, rfl⟩ := applyEvent_eq_ok.mp hu
    obtain ⟨promise, -, -, rfl⟩ := promiseCancelled_eq_ok.mp hm
    exact ⟨hruns, hcode, hworkflow⟩
  · rintro t ⟨hruns, hcode, hworkflow⟩
    refine .cons rfl (warrants_of_knew (isJoined_of_none rfl) ?_) fun seq ms u hu => ?_
    · intro scope hscope
      rw [hcode] at hscope
      have hparent : codeToolParent t scope.spec = codeToolParent s scope.spec := by
        rw [codeToolParent, codeToolParent, hworkflow]
      have := hheld scope hscope
      rwa [CodeToolScope.holdsUp, hparent]
    · obtain ⟨-, m, hm, rfl⟩ := applyEvent_eq_ok.mp hu
      obtain ⟨run', batch, hactive', -, hid', -, -, -, -, rfl⟩ := batchUnparked_eq_ok.mp hm
      refine results_backed_alone hevents ?_
      rintro _ ⟨⟩
      exact hid'

theorem kind_stored_isSupplied (input : ContextEntryInput) :
    input.stored.kind.isSupplied = input.kind.isSupplied := by
  unfold ContextEntryInput.stored
  cases input.kind <;> rfl

theorem supplied_stored {entries : List ContextEntryInput}
    (h : ∀ entry ∈ entries, entry.kind.isSupplied = true) :
    ∀ entry ∈ entries.map ContextEntryInput.stored, entry.kind.isSupplied = true := by
  intro entry hentry
  obtain ⟨entry, hmem, rfl⟩ := List.mem_map.mp hentry
  rw [kind_stored_isSupplied]
  exact h entry hmem

theorem decide_backed {command : DecideApprovalCommand} {unparked : List CoreAgentEventProposal}
    (hactive : s.runs.active = some run)
    (hunparked : unparked =
      if run.status = .parked ∧ run.parkedToolBatch.isNone ∧ run.pendingApprovals.length = 1 then
        [runProposal command.runId (.approval (.runUnparked command.runId))] else []) :
    Backed base input s (runProposal command.runId
        (.approval (.decided command.approvalId command.runId command.decision command.note)) ::
      unparked ++ appliedProposals command.runId s.context.revision entries) := by
  have happlied : ∀ t, Backed base input t
      (appliedProposals command.runId s.context.revision entries) := by
    intro t
    unfold appliedProposals
    split_ifs
    · exact .plain (by simp)
    · exact .oneFree rfl (isJoined_of_none rfl)
  refine .cons rfl (warrants_of_free rfl (isJoined_of_none rfl)) fun seq ms t ht => ?_
  change Backed base input t (unparked ++ _)
  by_cases hpark : run.status = .parked ∧ run.parkedToolBatch.isNone ∧
      run.pendingApprovals.length = 1
  · rw [hunparked, if_pos hpark]
    obtain ⟨-, m, hm, rfl⟩ := applyEvent_eq_ok.mp ht
    have hdecided : applyApprovalEvent s ms (.decided command.approvalId command.runId
        command.decision (command.note.map replaceNul)) = .ok m := hm
    obtain ⟨run', record, hactive', -, -, -, -, rfl⟩ := decided_eq_ok.mp hdecided
    obtain rfl : run = run' := Option.mem_unique hactive hactive'
    refine .cons rfl (warrants_of_knew (isJoined_of_none rfl) ?_) fun _ _ u _ => happlied u
    rintro _ ⟨⟩
    exact Option.isNone_iff_eq_none.mp hpark.2.1
  · rw [hunparked, if_neg hpark, List.nil_append]
    exact happlied t

theorem validateAwaitSpec_eq_ok {spec : AwaitSpec}
    (h : validateAwaitSpecForActiveRun s runId spec = .ok ()) : spec.promiseIds ≠ [] ∧
      ∀ id ∈ spec.promiseIds, s.promises.promises.contains id = true := by
  simp only [validateAwaitSpecForActiveRun, bind_eq_ok, require_eq_ok, forM_eq_ok, orError_eq_ok,
    exists_unit] at h
  refine ⟨h.1, fun id hid => ?_⟩
  obtain ⟨promise, hget, -⟩ := h.2 id hid
  exact OrdMap.contains_iff.mpr ⟨promise, hget⟩

theorem proposed_backed (h : Inv s) (hsettled : s.ForActive RunSettled)
    (hproposed : Proposed sessionId s input proposals) : Backed s input s proposals := by
  cases hproposed with
  | quiet hquiet => exact .plain fun proposal hmem _ => warrants_of_quiet (hquiet proposal hmem).1
  | plan hplan => exact planned_backed h hsettled hplan
  | accept hpending hid hfresh hkinds hlimit =>
    exact .one (by rintro _ ⟨⟩; rfl) ⟨hfresh, supplied_stored hkinds⟩
  | steer hactive hkinds => exact .one (by rintro _ ⟨⟩; rfl) (supplied_stored hkinds)
  | cancelRun hactive hstatus =>
    refine .free fun proposal hmem => ?_
    rcases List.mem_cons.mp hmem with rfl | hmem
    · exact ⟨rfl, by rintro _ ⟨⟩; rfl⟩
    · obtain ⟨record, -, rfl⟩ := List.mem_map.mp hmem
      exact ⟨rfl, isJoined_of_none rfl⟩
  | cancelQueued => exact .oneFree rfl (by rintro _ ⟨⟩; rfl)
  | decide hactive hrun hrecord hstatus hresponse hunparked => exact decide_backed hactive hunparked
  | edit hpending hedit => cases hedit <;> exact .oneFree rfl (isJoined_of_none rfl)
  | compact hpending hqueued hcovers =>
    unfold manualCompactionRequestedProposal
    split_ifs
    · exact .one (isJoined_of_none rfl) nofun
    · exact .oneFree rfl (isJoined_of_none rfl)
  | close | compactionFailed hplan hrun => exact .oneFree rfl (isJoined_of_none rfl)
  | forceClose => exact forceClose_backed h
  | forceCancel hactive hclosing => exact forceCancel_backed h hactive
  | failRun hactive hfail => exact failRun_backed h hactive hfail
  | unpark hactive hparked hrun hbatch hclaim hresult hmatches hcompleted =>
    exact unpark_backed h hactive hparked hrun hbatch hclaim hmatches hcompleted
  | tools hfrozen => exact .one (isJoined_of_none rfl) hfrozen
  | reserve hvalid => exact .one (isJoined_of_none rfl) hvalid
  | generation hactive hrun hturn => exact generation_backed
  | compacted hplan hstatus =>
    refine .free fun proposal hmem => ?_
    simp only [List.mem_cons, List.not_mem_nil, or_false] at hmem
    rcases hmem with rfl | rfl | rfl <;> exact ⟨rfl, isJoined_of_none rfl⟩
  | overflowed hplan hstatus hactive htrigger =>
    exact overflowed_backed h hplan hstatus hactive htrigger
  | @results input result proposals hmatches hproposals =>
    obtain ⟨hevents, -⟩ := toolCallCompletedProposals_spec hproposals
    obtain ⟨run, hactive, -, hid⟩ := worksOn_of_matches hmatches
    exact results_backed_alone hevents (worksOn_of_active hactive hid)
  | @codeResults input origin call parent result proposals hcall hstatus hparent hproposals =>
    obtain ⟨hevents, -⟩ := toolCallCompletedProposals_spec hproposals
    obtain ⟨run, hactive, -, hid⟩ := worksOn_of_codeCall h hcall hstatus hparent
    exact results_backed_alone hevents (worksOn_of_active hactive hid)
  | park hactive hid hbatch hmatches hvalid hcompleted =>
    obtain ⟨hevents, -⟩ := toolCallCompletedProposals_spec hcompleted
    obtain ⟨run, hactive, -, hid⟩ := worksOn_of_matches hmatches
    obtain ⟨hne, hthere⟩ := validateAwaitSpec_eq_ok hvalid
    exact results_parked_backed h.entries hevents (worksOn_of_active hactive hid) hne hthere
  | @approve batchId run batch approvals requested hactive hid hbatch hrequested =>
    refine .of_stable (P := WorksOn batchId) ?_ ?_ ?_ (fun _ _ => .oneFree rfl (isJoined_of_none rfl))
      (worksOn_of_active hactive hid)
    · intro proposal hmem
      obtain ⟨approval, heq⟩ := hrequested proposal hmem
      rw [heq]
      rfl
    · intro proposal hmem t ht
      obtain ⟨approval, heq⟩ := hrequested proposal hmem
      refine warrants_of_knew (isJoined_of_none (by rw [heq]; rfl)) ?_
      rw [heq]
      exact fun run' hactive' => .inr (by simp [ht run' hactive'])
    · intro proposal hmem t seq ms u ht hu
      obtain ⟨approval, heq⟩ := hrequested proposal hmem
      obtain ⟨joins, event⟩ := proposal
      obtain rfl : event = .approval (.requested approval) := heq
      obtain ⟨-, m, hm, rfl⟩ := applyEvent_eq_ok.mp hu
      obtain ⟨run', hactive', -, -, -, -, rfl⟩ := approvalRequested_eq_ok.mp hm
      rintro _ ⟨⟩
      exact ht run' hactive'

end Lightspeed.Harness
