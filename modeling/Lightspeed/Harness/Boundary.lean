import Lightspeed.Harness.Warranted

/-!
# Between two appends

An append may pass through states that no session is ever left in: a turn that has settled without an
outcome, a run that is being cancelled with its approvals still pending. `RunSettled` holds again when the
append is over, so it holds of every state that a session reaches, and `Inv` with it.
-/

namespace Lightspeed.Harness

open Lib

variable {sessionId : SessionId} {base s t : CoreAgentState} {input : DriveInput}
  {entry : CoreAgentEntry} {proposal : CoreAgentEventProposal}
  {proposals : List CoreAgentEventProposal} {log entries : List CoreAgentEntry} {ms seq : Nat}
  {run : ActiveRun} {runId : RunId} {contexts : List ContextEntry} {result : LlmGenerationResult}
  {requests : List ObservedApprovalRequest}

/-! ## Appends -/

theorem mem_entriesFrom (h : entry ∈ entriesFrom ms seq proposals) :
    ∃ proposal ∈ proposals, entry.event = proposal.event.stored := by
  induction proposals generalizing seq with
  | nil => cases h
  | cons first rest ih =>
    rcases List.mem_cons.mp h with rfl | h
    · exact ⟨first, List.mem_cons_self, rfl⟩
    · obtain ⟨proposal, hproposal, heq⟩ := ih h
      exact ⟨proposal, List.mem_cons_of_mem _ hproposal, heq⟩

/-- What an append adds to the log: the stored events of its proposals, and the cancellations that the
end of a run owes its promises. -/
theorem mem_uncommitted (h : entry ∈ uncommitted s ms proposals) :
    (∃ proposal ∈ proposals, entry.event = proposal.event.stored) ∨
      ∃ id, entry.event = .promise (.cancelled id) := by
  obtain ⟨proposal, hproposal, heq⟩ := mem_entriesFrom h
  rcases mem_runTerminalSideEffects hproposal with hmem | ⟨runId, id, rfl⟩
  · exact .inl ⟨proposal, hmem, heq⟩
  · exact .inr ⟨id, heq⟩

/-- An append that the drive commits, with the form of its proposals. -/
theorem proposeEntries_cases (h : proposeEntries sessionId s (ms, input) = .ok entries) :
    ∃ proposals, inputProposals sessionId s ms input = .ok proposals ∧
      Proposed sessionId s input proposals ∧ entries = uncommitted s ms proposals := by
  simp only [proposeEntries, appendAction, bind_eq_ok, driven_eq_ok, Except.ok.injEq] at h
  obtain ⟨proposals, hproposals, _, -, rfl⟩ := h
  exact ⟨proposals, hproposals, inputProposals_cases hproposals, rfl⟩

/-- What every warranted event keeps, an append keeps. -/
theorem append_preserves {P : CoreAgentState → Prop} (h : Inv s) (hsettled : s.ForActive RunSettled)
    (hproposed : Proposed sessionId s input proposals)
    (hstep : ∀ u entry v, Inv u → P u → Warrant s input u entry →
      entry ∈ uncommitted s ms proposals → applyEvent u entry = .ok v → P v)
    (hcommit : (uncommitted s ms proposals).foldlM applyEvent s = .ok t) (hs : P s) :
    Inv t ∧ P t := by
  have hw : EventSource.Warranted applyEvent (Warrant s input) s (uncommitted s ms proposals) :=
    (proposed_backed h hsettled hproposed).warranted [] s.nextSeq ms
  have hwm := hw.and_mem (p := fun entry => entry ∈ uncommitted s ms proposals) (fun _ h => h)
  refine hwm.preserves (P := fun u _ => Inv u ∧ P u) [] ?_ hcommit ⟨h, hs⟩
  rintro u _ a v ⟨hinv, hp⟩ ⟨hwarrant, hmem⟩ hv
  exact ⟨inv_step hinv hwarrant hv, hstep u a v hinv hp hwarrant hmem hv⟩

/-! ## Calm events -/

/-- Events that leave a settled run settled, whatever comes next. -/
def CoreAgentEvent.isCalm : CoreAgentEvent → Bool
  | .turn (.generationCompleted _ _ _ _) | .approval (.decided _ _ _ _)
  | .approval (.cancelled _ _) | .run (.cancellationRequested _) => false
  | _ => true

theorem isCalm_stored (event : CoreAgentEvent) : event.stored.isCalm = event.isCalm := by
  cases event with
  | run event | approval event | turn event => cases event <;> rfl
  | _ => rfl

/-- Pruning a run's records leaves its pending approvals. -/
theorem pendingApprovals_prune (run : ActiveRun) :
    (pruneSettledRunRecords run).pendingApprovals = run.pendingApprovals := by
  simp only [ActiveRun.pendingApprovals, pruneSettledRunRecords, pruneTerminalApprovals,
    OrdMap.values, OrdMap.filter, List.filter_map, List.filter_filter]
  refine congrArg _ (List.filter_congr fun e _ => ?_)
  cases hstatus : e.2.status <;> simp [hstatus, ApprovalStatus.isTerminal]

theorem RunSettled.of_turn (hturn : run.activeTurnId = none)
    (hparked : run.status = .parked → run.parkedToolBatch = none → run.pendingApprovals ≠ [])
    (hcancelling : run.status = .cancelling → run.pendingApprovals = []) : RunSettled run :=
  ⟨fun _ _ hid => by simp [hturn] at hid, hparked, hcancelling⟩

theorem settled_run {event : RunEvent} (h : s.ForActive RunSettled)
    (hcalm : (CoreAgentEvent.run event).isCalm = true)
    (happly : applyRunEvent s seq ms event = .ok t) : t.ForActive RunSettled := by
  cases applyRunEvent_moves happly with
  | queues hqueues hactive => exact fun run hrun => h run (hactive ▸ hrun)
  | starts =>
    rintro run ⟨⟩
    exact .of_turn rfl nofun nofun
  | steers hactive =>
    rintro run' ⟨⟩
    exact ⟨(h _ hactive).turn, (h _ hactive).parked, (h _ hactive).cancelling⟩
  | stops => cases hcalm
  | ends => rintro run' ⟨⟩

theorem settled_approval {event : ApprovalEvent} (h : s.ForActive RunSettled)
    (hcalm : (CoreAgentEvent.approval event).isCalm = true)
    (happly : applyApprovalEvent s ms event = .ok t) : t.ForActive RunSettled := by
  cases event with
  | requested approval =>
    obtain ⟨run, hactive, -, hstatus, -, -, rfl⟩ := approvalRequested_eq_ok.mp happly
    rintro run' ⟨⟩
    refine ⟨(h run hactive).turn, fun hparked => ?_, fun hcancelling => ?_⟩
    · rw [hstatus] at hparked
      cases hparked
    · rw [hstatus] at hcancelling
      cases hcancelling
  | runParked runId =>
    obtain ⟨run, hactive, -, hpending, -, hturn, -, rfl⟩ := runParked_eq_ok.mp happly
    exact forActive_setActive.mpr (.of_turn hturn (fun _ _ => hpending) nofun)
  | runUnparked runId =>
    obtain ⟨run, hactive, -, -, rfl⟩ := runUnparked_eq_ok.mp happly
    exact forActive_setActive.mpr ⟨(h run hactive).turn, nofun, nofun⟩
  | decided id runId decision note => cases hcalm
  | cancelled id runId => cases hcalm

theorem settled_turn {event : TurnEvent} (h : s.ForActive RunSettled)
    (hcalm : (CoreAgentEvent.turn event).isCalm = true)
    (happly : applyTurnEvent s event = .ok t) : t.ForActive RunSettled := by
  have hwrite : ∀ {run : ActiveRun} {turnId : TurnId} {turn : TurnState},
      run.activeTurnId = some turnId → turn.status ≠ .generationSettled → ∀ id turn',
        run.activeTurnId = some id → (run.setTurn turnId turn).turns.get? id = some turn' →
          turn'.status ≠ .generationSettled := by
    intro run turnId turn hid hstatus id turn' hid' hget
    obtain rfl : turnId = id := Option.mem_unique hid hid'
    rw [ActiveRun.setTurn, OrdMap.get?_insert_self] at hget
    exact Option.some.inj hget ▸ hstatus
  cases event with
  | started turnId runId =>
    obtain ⟨run, hactive, -, -, hstatus, -, rfl⟩ := turnStarted_eq_ok.mp happly
    rintro run' ⟨⟩
    refine ⟨fun id turn hid hget => ?_, fun hparked => ?_, fun hcancelling => ?_⟩
    · obtain rfl : turnId = id := Option.some.inj hid
      rw [ActiveRun.setTurn, OrdMap.get?_insert_self] at hget
      cases hget
      simp
    · cases hstatus.symm.trans hparked
    · cases hstatus.symm.trans hcancelling
  | planned turnId runId fingerprint configRevision contextRevision toolsetRevision =>
    obtain ⟨run, turn, hactive, -, hid, hget, -, -, -, hstarted, -, rfl⟩ := planned_eq_ok.mp happly
    have hmarked : (markConsumed run turnId (plannedContextEntryIds s)).activeTurnId = some turnId := hid
    exact forActive_setActive.mpr
      ⟨hwrite hmarked (by simp), (h run hactive).parked, (h run hactive).cancelling⟩
  | generationRequested turnId runId =>
    obtain ⟨run, turn, hactive, -, hid, hget, -, -, rfl⟩ := generationRequested_eq_ok.mp happly
    exact forActive_setActive.mpr
      ⟨hwrite hid (by simp), (h run hactive).parked, (h run hactive).cancelling⟩
  | generationCompleted turnId runId status facts => cases hcalm
  | completed turnId outcome =>
    obtain ⟨run, turn, hactive, -, -, -, rfl⟩ := turnCompleted_eq_ok.mp happly
    refine forActive_setActive.mpr (.of_turn rfl ?_ ?_)
    · rw [pendingApprovals_prune]
      exact (h run hactive).parked
    · rw [pendingApprovals_prune]
      exact (h run hactive).cancelling
  | cancelled turnId runId =>
    obtain ⟨run, turn, hactive, -, -, -, -, -, rfl⟩ := turnCancelled_eq_ok.mp happly
    exact forActive_setActive.mpr
      (.of_turn rfl (h run hactive).parked (h run hactive).cancelling)

theorem settled_tool {event : ToolEvent} (h : s.ForActive RunSettled)
    (happly : applyToolEvent s event = .ok t) : t.ForActive RunSettled := by
  cases applyToolEvent_moves happly with
  | works cursor hworks hactive hrun =>
    rintro run' ⟨⟩
    rw [hrun]
    exact ⟨(h _ hactive).turn, (h _ hactive).parked, (h _ hactive).cancelling⟩
  | parks hactive => exact forActive_setActive.mpr ⟨(h _ hactive).turn, nofun, nofun⟩
  | unparks hactive =>
    refine forActive_setActive.mpr ⟨(h _ hactive).turn, fun hparked => ?_, fun hcancelling => ?_⟩
    · dsimp only at hparked
      split_ifs at hparked with hstatus
      exact absurd hparked hstatus
    · dsimp only at hcancelling
      split_ifs at hcancelling
      exact (h _ hactive).cancelling hcancelling
  | completes hactive =>
    rintro run' ⟨⟩
    refine ⟨fun id turn hid hget => ?_, ?_, ?_⟩
    · have hget' := get?_of_pruned hget
      exact (h _ hactive).turn id turn hid hget'
    · rw [pendingApprovals_prune]
      exact (h _ hactive).parked
    · rw [pendingApprovals_prune]
      exact (h _ hactive).cancelling

/-- A calm event leaves a settled run settled. -/
theorem settled_step (hinv : EntriesInv s) (h : s.ForActive RunSettled)
    (hcalm : entry.event.isCalm = true) (happly : applyEvent s entry = .ok t) :
    t.ForActive RunSettled := by
  obtain ⟨-, m, hm, rfl⟩ := applyEvent_eq_ok.mp happly
  change m.ForActive RunSettled
  cases applyEventKind_moves hm with
  | run heq hm => exact settled_run h (heq ▸ hcalm) hm
  | approval heq hm => exact settled_approval h (heq ▸ hcalm) hm
  | turn heq hm => exact settled_turn h (heq ▸ hcalm) hm
  | context heq hm =>
    intro run' hactive'
    obtain ⟨run, hactive, hkept⟩ := (applyContextEvent_frame hinv hm).active run' hactive'
    rw [hkept.run]
    exact ⟨(h run hactive).turn, (h run hactive).parked, (h run hactive).cancelling⟩
  | tool heq hm => exact settled_tool h hm
  | rests hspares hruns => exact fun run hactive => h run (hruns ▸ hactive)

/-! ## Settling -/

/-- An append of calm events leaves a settled run settled. -/
theorem settled_of_calm (h : Inv s) (hs : s.ForActive RunSettled)
    (hproposed : Proposed sessionId s input proposals)
    (hcalm : ∀ proposal ∈ proposals, proposal.event.isCalm = true)
    (hcommit : (uncommitted s ms proposals).foldlM applyEvent s = .ok t) :
    t.ForActive RunSettled := by
  refine (append_preserves h hs hproposed (P := fun u => u.ForActive RunSettled) ?_ hcommit hs).2
  intro u entry v hinv hu _ hmem hv
  refine settled_step hinv.entries hu ?_ hv
  rcases mem_uncommitted hmem with ⟨proposal, hproposal, heq⟩ | ⟨id, heq⟩
  · rw [heq, isCalm_stored]
    exact hcalm proposal hproposal
  · rw [heq]
    rfl

theorem isCalm_of_quiet {event : CoreAgentEvent} (h : event.isQuiet = true) :
    event.isCalm = true := by
  cases event <;> first | rfl | cases h

theorem isCalm_of_result {scope : ResultScope} {event : CoreAgentEvent}
    (h : ResultEvent base scope event) : event.isCalm = true := by
  cases h with
  | quiet hquiet => exact isCalm_of_quiet hquiet
  | _ => rfl

/-- Whether an event can be planned. -/
def CoreAgentEvent.isPlanned : CoreAgentEvent → Bool
  | .run (.accepted _) | .run (.cancellationRequested _) | .turn (.generationCompleted _ _ _ _) => false
  | .run _ | .turn _ | .context _ | .tool _ | .approval (.runParked _) => true
  | _ => false

theorem isCalm_of_planned {event : CoreAgentEvent} (h : event.isPlanned = true) :
    event.isCalm = true := by
  cases event with
  | run event | turn event | approval event => cases event <;> first | rfl | cases h
  | _ => rfl

theorem planned_isPlanned (hplan : Planned s proposals) (hmem : proposal ∈ proposals) :
    proposal.event.isPlanned = true := by
  cases hplan with
  | startCalls | cancelCalls =>
    obtain ⟨call, -, rfl⟩ := List.mem_map.mp hmem
    rfl
  | completeBatch => rcases mem_batchProposals hmem with rfl | rfl <;> rfl
  | pruneContext hopen hcompaction hproposal =>
    rw [List.mem_singleton.mp hmem, (providerCompactedPrune_eq_some hproposal).2]
    rfl
  | endRun hopen hactive hstatus hturn hbatch happroval hlast hevent hsteering =>
    rw [List.mem_singleton.mp hmem]
    rcases turnTerminalEvent_cases hevent with ⟨output, rfl, -⟩ | ⟨-, failure, rfl⟩ <;> rfl
  | _ =>
    rw [List.mem_singleton.mp hmem]
    rfl

/-! ## Appends that end a run -/

/-- Without an active run, only a start makes one. -/
theorem inactive_step (hinv : EntriesInv s) (h : s.runs.active = none)
    (hstart : ∀ runId, entry.event ≠ .run (.started runId)) (happly : applyEvent s entry = .ok t) :
    t.runs.active = none := by
  cases hrun : entry.event.isRun with
  | false =>
    cases hactive : t.runs.active with
    | none => rfl
    | some run =>
      obtain ⟨run', hactive', -⟩ := (applyEvent_runsFrame hinv hrun happly).active run hactive
      rw [h] at hactive'
      cases hactive'
  | true =>
    obtain ⟨-, m, hm, rfl⟩ := applyEvent_eq_ok.mp happly
    change m.runs.active = none
    cases hkind : entry.event with
    | run event =>
      rw [applyEventKind, hkind] at hm
      cases applyRunEvent_moves hm with
      | queues hqueues hactive => rw [hactive, h]
      | starts => exact absurd hkind (hstart _)
      | steers hactive | stops hactive => cases h.symm.trans hactive
      | ends => rfl
    | _ => rw [hkind] at hrun; cases hrun

/-- The end of a run leaves none active. -/
theorem inactive_of_terminal (hevent : entry.event.terminalRunId = some runId)
    (happly : applyEvent s entry = .ok t) : t.runs.active = none := by
  obtain ⟨-, m, hm, rfl⟩ := applyEvent_eq_ok.mp happly
  change m.runs.active = none
  cases hkind : entry.event with
  | run event =>
    rw [applyEventKind, hkind] at hm
    rw [hkind] at hevent
    cases applyRunEvent_moves hm with
    | queues hqueues => cases event <;> first | cases hqueues; done | cases hevent
    | starts | steers | stops => cases hevent
    | ends => rfl
  | _ => rw [hkind] at hevent; cases hevent

theorem fold_inactive (hinv : EntriesInv s) (h : s.runs.active = none)
    (hstart : ∀ entry ∈ entries, ∀ runId, entry.event ≠ .run (.started runId))
    (hfold : entries.foldlM applyEvent s = .ok t) : t.runs.active = none := by
  induction entries generalizing s with
  | nil =>
    rw [List.foldlM_nil, pure_eq_ok] at hfold
    exact hfold ▸ h
  | cons first rest ih =>
    obtain ⟨m, hm, hfold⟩ := foldlM_cons_eq_ok.mp hfold
    exact ih (applyEvent_entriesInv hinv hm)
      (inactive_step hinv h (hstart first List.mem_cons_self) hm)
      (fun entry hmem => hstart entry (List.mem_cons_of_mem _ hmem)) hfold

theorem fold_entriesInv (hinv : EntriesInv s) (hfold : entries.foldlM applyEvent s = .ok t) :
    EntriesInv t :=
  foldlM_preserves (fun _ _ _ _ hstep hinv => applyEvent_entriesInv hinv hstep) hfold hinv

/-- An append that ends a run and starts none leaves none active. -/
theorem fold_ends (hinv : EntriesInv s) (hmem : entry ∈ entries)
    (hevent : entry.event.terminalRunId = some runId)
    (hstart : ∀ entry ∈ entries, ∀ runId, entry.event ≠ .run (.started runId))
    (hfold : entries.foldlM applyEvent s = .ok t) : t.runs.active = none := by
  obtain ⟨before, after, rfl⟩ := List.append_of_mem hmem
  obtain ⟨m, hbefore, hfold⟩ := foldlM_append_eq_ok.mp hfold
  obtain ⟨u, hu, hafter⟩ := foldlM_cons_eq_ok.mp hfold
  have hinv' := applyEvent_entriesInv (fold_entriesInv hinv hbefore) hu
  refine fold_inactive hinv' (inactive_of_terminal hevent hu) (fun entry hentry => ?_) hafter
  exact hstart entry (List.mem_append_right _ (List.mem_cons_of_mem _ hentry))

/-! ## What an append holds -/

theorem mem_runTerminalSideEffects_of_mem {cancelled : List PromiseId} (h : proposal ∈ proposals) :
    proposal ∈ runTerminalSideEffects base cancelled proposals := by
  induction proposals generalizing cancelled with
  | nil => cases h
  | cons first rest ih =>
    unfold runTerminalSideEffects
    rcases List.mem_cons.mp h with rfl | h
    · split <;> exact List.mem_cons_self
    · split
      · exact List.mem_cons_of_mem _ (ih h)
      · exact List.mem_append_right _ (ih h)

/-- Every proposal becomes an entry. -/
theorem exists_uncommitted (s : CoreAgentState) (ms : Nat) (h : proposal ∈ proposals) :
    ∃ entry ∈ uncommitted s ms proposals, entry.event = proposal.event.stored := by
  have hfrom : ∀ (proposals : List CoreAgentEventProposal) (seq : Nat), proposal ∈ proposals →
      ∃ entry ∈ entriesFrom ms seq proposals, entry.event = proposal.event.stored := by
    intro proposals
    induction proposals with
    | nil => intro seq hmem; cases hmem
    | cons first rest ih =>
      intro seq hmem
      rcases List.mem_cons.mp hmem with rfl | hmem
      · exact ⟨_, List.mem_cons_self, rfl⟩
      · obtain ⟨entry, hentry, heq⟩ := ih (seq + 1) hmem
        exact ⟨entry, List.mem_cons_of_mem _ hentry, heq⟩
  exact hfrom _ _ (mem_runTerminalSideEffects_of_mem h)

theorem runTerminalSideEffects_eq {cancelled : List PromiseId}
    (h : ∀ proposal ∈ proposals, proposal.event.terminalRunId = none) :
    runTerminalSideEffects base cancelled proposals = proposals := by
  induction proposals with
  | nil => rfl
  | cons first rest ih =>
    rw [runTerminalSideEffects, h first List.mem_cons_self,
      ih fun proposal hmem => h proposal (List.mem_cons_of_mem _ hmem)]

/-- Proposals that end no run are stored as they are. -/
theorem uncommitted_eq (h : ∀ proposal ∈ proposals, proposal.event.terminalRunId = none) :
    uncommitted s ms proposals = entriesFrom ms s.nextSeq proposals := by
  rw [uncommitted, withRunTerminalSideEffects, runTerminalSideEffects_eq h]

theorem entriesFrom_append (ms seq : Nat) (first second : List CoreAgentEventProposal) :
    entriesFrom ms seq (first ++ second) =
      entriesFrom ms seq first ++ entriesFrom ms (seq + first.length) second := by
  induction first generalizing seq with
  | nil => rfl
  | cons proposal rest ih =>
    rw [List.cons_append, entriesFrom, ih, entriesFrom, List.cons_append, List.length_cons,
      Nat.add_right_comm, Nat.add_assoc]

theorem ne_started_stored {event : CoreAgentEvent} (h : event ≠ .run (.started runId)) :
    event.stored ≠ .run (.started runId) := by
  intro hstored
  refine h ?_
  cases event with
  | run event => cases event <;> first | exact hstored | cases hstored
  | _ => cases hstored

/-- An append that fails a run, or force-cancels it, leaves none active. -/
theorem append_ends (h : Inv s) (hmem : proposal ∈ proposals)
    (hevent : proposal.event.terminalRunId = some runId)
    (hstart : ∀ proposal ∈ proposals, ∀ runId, proposal.event ≠ .run (.started runId))
    (hcommit : (uncommitted s ms proposals).foldlM applyEvent s = .ok t) : t.runs.active = none := by
  obtain ⟨entry, hentry, heq⟩ := exists_uncommitted s ms hmem
  refine fold_ends h.entries hentry (by rw [heq, terminalRunId_stored, hevent]) ?_ hcommit
  intro entry' hentry' runId'
  rcases mem_uncommitted hentry' with ⟨proposal', hproposal', heq'⟩ | ⟨id, heq'⟩
  · rw [heq']
    exact ne_started_stored (hstart proposal' hproposal' runId')
  · rw [heq']
    nofun

/-! ## Appends that pass through unsettled states -/

/-- A run that stays as settled as `run` is, its active turn apart. -/
def RestsAs (run : ActiveRun) (s : CoreAgentState) : Prop :=
  s.ForActive fun run' => run'.status = run.status ∧ run'.parkedToolBatch = run.parkedToolBatch ∧
    (run'.pendingApprovals = run.pendingApprovals ∨ run'.status = .running)

theorem settleTurn_rests (run : ActiveRun) (turnId : TurnId) (turn : TurnState)
    (status : LlmGenerationStatus) (facts : LlmGenerationFacts) (usage : Option LlmUsage) :
    ((run.settleTurn turnId turn status facts).chargeUsage usage).status = run.status ∧
      ((run.settleTurn turnId turn status facts).chargeUsage usage).parkedToolBatch =
        run.parkedToolBatch ∧
      ((run.settleTurn turnId turn status facts).chargeUsage usage).pendingApprovals =
        run.pendingApprovals := by
  unfold ActiveRun.settleTurn
  dsimp only
  split_ifs <;> exact ⟨rfl, rfl, rfl⟩

/-- The events of a generation's result leave the run as settled as it was. -/
theorem generation_rests (hinv : Inv s) (h : RestsAs run s)
    (hevent : (∃ event, entry.event = .context event) ∨
      (∃ turnId runId status facts,
        entry.event = .turn (.generationCompleted turnId runId status facts)) ∨
      (∃ approval, entry.event = .approval (.requested approval)) ∨
      ∃ turnId outcome, entry.event = .turn (.completed turnId outcome))
    (happly : applyEvent s entry = .ok t) : RestsAs run t := by
  obtain ⟨-, m, hm, rfl⟩ := applyEvent_eq_ok.mp happly
  change RestsAs run m
  unfold applyEventKind at hm
  rcases hevent with ⟨event, heq⟩ | ⟨turnId, runId, status, facts, heq⟩ | ⟨approval, heq⟩ |
    ⟨turnId, outcome, heq⟩
  · rw [heq] at hm
    intro run' hactive'
    obtain ⟨old, hactive, hkept⟩ := (applyContextEvent_frame hinv.entries hm).active run' hactive'
    rw [hkept.run]
    exact h old hactive
  · rw [heq] at hm
    obtain ⟨old, turn, hactive, -, -, -, -, context, -, -, -, rfl⟩ := generationCompleted_ok hm
    obtain ⟨hstatus, hparked, hpending⟩ := settleTurn_rests old turnId turn status facts facts.usage
    refine forActive_setActive.mpr ?_
    rw [hstatus, hparked, hpending]
    exact h old hactive
  · rw [heq] at hm
    obtain ⟨old, hactive, -, hstatus, -, -, rfl⟩ := approvalRequested_eq_ok.mp hm
    rintro run' ⟨⟩
    exact ⟨(h old hactive).1, (h old hactive).2.1, .inr hstatus⟩
  · rw [heq] at hm
    obtain ⟨old, turn, hactive, -, -, -, rfl⟩ := turnCompleted_eq_ok.mp hm
    refine forActive_setActive.mpr ?_
    rw [pendingApprovals_prune]
    exact h old hactive

theorem RestsAs.settled (h : RestsAs run s) (hsettled : RunSettled run)
    (hturn : s.ForActive fun run => run.activeTurnId = none) : s.ForActive RunSettled := by
  intro run' hactive
  obtain ⟨hstatus, hparked, hpending⟩ := h run' hactive
  refine .of_turn (hturn run' hactive) (fun hpark hnone => ?_) fun hcancelling => ?_
  · rcases hpending with hpending | hrunning
    · rw [hpending]
      exact hsettled.parked (hstatus ▸ hpark) (hparked ▸ hnone)
    · exact absurd (hpark.symm.trans hrunning) nofun
  · rcases hpending with hpending | hrunning
    · rw [hpending]
      exact hsettled.cancelling (hstatus ▸ hcancelling)
    · exact absurd (hcancelling.symm.trans hrunning) nofun

/-- What a generation's result proposes. -/
theorem mem_generationProposals (h : proposal ∈ generationProposals s result contexts requests) :
    proposal.event = .context (.entriesApplied s.context.revision contexts) ∨
      proposal.event = .turn (.generationCompleted result.turnId result.runId result.status
        result.facts) ∨
      (∃ approval, proposal.event = .approval (.requested approval)) ∨
      proposal.event = .turn (.completed result.turnId (turnOutcomeForGenerationResult result)) := by
  simp only [generationProposals, List.mem_append, List.mem_map, List.mem_singleton] at h
  rcases h with ((h | rfl) | ⟨approval, -, rfl⟩) | rfl
  · split_ifs at h
    · cases h
    · rw [List.mem_singleton.mp h]
      exact .inl rfl
  · exact .inr (.inl rfl)
  · exact .inr (.inr (.inl ⟨approval, rfl⟩))
  · exact .inr (.inr (.inr rfl))

theorem generation_terminalRunId (h : proposal ∈ generationProposals s result contexts requests) :
    proposal.event.terminalRunId = none := by
  rcases mem_generationProposals h with heq | heq | ⟨_, heq⟩ | heq <;> rw [heq] <;> rfl

/-- A generation's result ends its turn. -/
theorem generation_ends_turn
    (hcommit : (uncommitted s ms (generationProposals s result contexts requests)).foldlM applyEvent
      s = .ok t) : t.ForActive fun run => run.activeTurnId = none := by
  rw [uncommitted_eq fun _ hmem => generation_terminalRunId hmem, generationProposals,
    entriesFrom_append] at hcommit
  obtain ⟨m, -, hlast⟩ := foldlM_append_eq_ok.mp hcommit
  obtain ⟨u, hu, hnil⟩ := foldlM_cons_eq_ok.mp hlast
  rw [entriesFrom, List.foldlM_nil, pure_eq_ok] at hnil
  subst hnil
  obtain ⟨-, v, hv, rfl⟩ := applyEvent_eq_ok.mp hu
  obtain ⟨run, turn, hactive, -, -, -, rfl⟩ := turnCompleted_eq_ok.mp hv
  exact forActive_setActive.mpr rfl

theorem generation_settled (h : Inv s) (hs : s.ForActive RunSettled)
    (hactive : s.runs.active = some run)
    (hproposed : Proposed sessionId s input (generationProposals s result contexts requests))
    (hcommit : (uncommitted s ms (generationProposals s result contexts requests)).foldlM applyEvent
      s = .ok t) : t.ForActive RunSettled := by
  refine RestsAs.settled ?_ (hs run hactive) (generation_ends_turn hcommit)
  refine (append_preserves h hs hproposed (P := RestsAs run) ?_ hcommit ?_).2
  · intro u entry v hinv hu _ hmem hv
    rcases mem_uncommitted hmem with ⟨proposal, hproposal, heq⟩ | ⟨id, heq⟩
    · refine generation_rests hinv hu ?_ hv
      rcases mem_generationProposals hproposal with hevent | hevent | ⟨_, hevent⟩ | hevent
      · exact .inl ⟨_, by rw [heq, hevent]; rfl⟩
      · exact .inr (.inl ⟨_, _, _, _, by rw [heq, hevent]; rfl⟩)
      · exact .inr (.inr (.inl ⟨_, by rw [heq, hevent]; rfl⟩))
      · exact .inr (.inr (.inr ⟨_, _, by rw [heq, hevent]; rfl⟩))
    · intro run' hactive'
      rw [applyEvent_runs (by rw [heq]; rfl) hv] at hactive'
      exact hu run' hactive'
  · intro run' hactive'
    obtain rfl : run = run' := Option.mem_unique hactive hactive'
    exact ⟨rfl, rfl, .inl rfl⟩

/-- Two of a map's values cannot stand under one key. -/
theorem exists_other {κ α : Type} [LinearOrder κ] {m : OrdMap κ α} {p : α → Bool} (k : κ)
    (h : 2 ≤ (m.values.filter p).length) : ∃ k' a, k' ≠ k ∧ m.get? k' = some a ∧ p a = true := by
  by_contra hnone
  push Not at hnone
  have hlength : ((m.entries.filter (fun e => p e.2)).map Prod.fst).length =
      (m.values.filter p).length := by
    rw [OrdMap.values, List.filter_map, List.length_map, List.length_map]
    rfl
  have hnodup : ((m.entries.filter (fun e => p e.2)).map Prod.fst).Nodup :=
    (List.filter_sublist.map Prod.fst).nodup m.keys_nodup
  have hsame : ∀ k' ∈ (m.entries.filter (fun e => p e.2)).map Prod.fst, k' = k := by
    intro k' hk'
    obtain ⟨⟨k', a⟩, hmem, rfl⟩ := List.mem_map.mp hk'
    obtain ⟨hentry, hp⟩ := List.mem_filter.mp hmem
    by_contra hne
    exact hnone k' a hne (OrdMap.get?_eq_some_iff.mpr hentry) hp
  rw [← hlength] at h
  rcases hkeys : (m.entries.filter (fun e => p e.2)).map Prod.fst with _ | ⟨first, _ | ⟨second, rest⟩⟩
  · simp [hkeys] at h
  · simp [hkeys] at h
  · rw [hkeys] at hnodup hsame
    have hfirst := hsame first (by simp)
    have hsecond := hsame second (by simp)
    simp [hfirst, hsecond] at hnodup

/-- A run whose approval is decided while others are pending stays parked on them. -/
theorem pendingApprovals_insert_ne_nil {id : ApprovalId} {record : ApprovalRecord}
    (h : 2 ≤ run.pendingApprovals.length) :
    ({ run with approvals := run.approvals.insert id record } : ActiveRun).pendingApprovals ≠ [] := by
  obtain ⟨id', other, hne, hget, hpending⟩ := exists_other id h
  have hget' : (run.approvals.insert id record).get? id' = some other := by
    rw [OrdMap.get?_insert_ne _ _ (Ne.symm hne)]
    exact hget
  exact pendingApprovals_ne_nil hget' (beq_iff_eq.mp hpending)

/-- Calm entries leave a settled run settled. -/
theorem settled_fold (hinv : EntriesInv s) (h : s.ForActive RunSettled)
    (hcalm : ∀ entry ∈ entries, entry.event.isCalm = true)
    (hfold : entries.foldlM applyEvent s = .ok t) : t.ForActive RunSettled := by
  have hboth : EntriesInv t ∧ t.ForActive RunSettled := by
    refine foldlM_preserves (P := fun u => EntriesInv u ∧ u.ForActive RunSettled) ?_ hfold ⟨hinv, h⟩
    rintro entry hmem u v hv ⟨hinv, hu⟩
    exact ⟨applyEvent_entriesInv hinv hv, settled_step hinv hu (hcalm entry hmem) hv⟩
  exact hboth.2

theorem applied_calm (h : ∀ proposal ∈ proposals, ∃ event, proposal.event = .context event)
    (seq : Nat) : ∀ entry ∈ entriesFrom ms seq proposals, entry.event.isCalm = true := by
  intro entry hentry
  obtain ⟨proposal, hproposal, heq⟩ := mem_entriesFrom hentry
  obtain ⟨event, hevent⟩ := h proposal hproposal
  rw [heq, isCalm_stored, hevent]
  rfl

theorem decide_settled {command : DecideApprovalCommand} {unparked : List CoreAgentEventProposal}
    (h : Inv s) (hs : s.ForActive RunSettled) (hactive : s.runs.active = some run)
    (hstatus : run.status.acceptsInput = true)
    (hunparked : unparked =
      if run.status = .parked ∧ run.parkedToolBatch.isNone ∧ run.pendingApprovals.length = 1 then
        [runProposal command.runId (.approval (.runUnparked command.runId))] else [])
    (hcommit : (uncommitted s ms (runProposal command.runId
        (.approval (.decided command.approvalId command.runId command.decision command.note)) ::
      unparked ++ appliedProposals command.runId s.context.revision contexts)).foldlM applyEvent s =
      .ok t) : t.ForActive RunSettled := by
  have happlied : ∀ proposal ∈ appliedProposals command.runId s.context.revision contexts,
      ∃ event, proposal.event = .context event := by
    intro proposal hmem
    unfold appliedProposals at hmem
    split_ifs at hmem
    · cases hmem
    · rw [List.mem_singleton.mp hmem]
      exact ⟨_, rfl⟩
  have hterminal : ∀ proposal ∈ runProposal command.runId (.approval (.decided command.approvalId
      command.runId command.decision command.note)) :: unparked ++
      appliedProposals command.runId s.context.revision contexts,
      proposal.event.terminalRunId = none := by
    intro proposal hmem
    rw [List.cons_append, List.mem_cons, List.mem_append] at hmem
    rcases hmem with rfl | hmem | hmem
    · rfl
    · rw [hunparked] at hmem
      split_ifs at hmem
      · rw [List.mem_singleton.mp hmem]
        rfl
      · cases hmem
    · obtain ⟨event, heq⟩ := happlied proposal hmem
      rw [heq]
      rfl
  rw [uncommitted_eq hterminal, List.cons_append] at hcommit
  obtain ⟨u, hu, hcommit⟩ := foldlM_cons_eq_ok.mp hcommit
  have hinv := applyEvent_entriesInv h.entries hu
  obtain ⟨-, m, hm, rfl⟩ := applyEvent_eq_ok.mp hu
  have hdecided : applyApprovalEvent s ms (.decided command.approvalId command.runId
      command.decision (command.note.map replaceNul)) = .ok m := hm
  obtain ⟨run', record, hactive', -, -, -, -, rfl⟩ := decided_eq_ok.mp hdecided
  obtain rfl : run = run' := Option.mem_unique hactive hactive'
  by_cases hpark : run.status = .parked ∧ run.parkedToolBatch.isNone ∧
      run.pendingApprovals.length = 1
  · rw [hunparked, if_pos hpark, List.singleton_append] at hcommit
    obtain ⟨v, hv, hcommit⟩ := foldlM_cons_eq_ok.mp hcommit
    refine settled_fold (applyEvent_entriesInv hinv hv) ?_ (applied_calm happlied _) hcommit
    obtain ⟨-, m, hm, rfl⟩ := applyEvent_eq_ok.mp hv
    have hunpark : applyApprovalEvent _ ms (.runUnparked command.runId) = .ok m := hm
    obtain ⟨run', hactive', -, -, rfl⟩ := runUnparked_eq_ok.mp hunpark
    cases hactive'
    exact forActive_setActive.mpr ⟨(hs run hactive).turn, nofun, nofun⟩
  · rw [hunparked, if_neg hpark, List.nil_append] at hcommit
    refine settled_fold hinv ?_ (applied_calm happlied _) hcommit
    refine forActive_setActive.mpr ⟨(hs run hactive).turn, fun hparked hnone => ?_, ?_⟩
    · refine pendingApprovals_insert_ne_nil ?_
      have hne := (hs run hactive).parked hparked hnone
      have hpos := List.length_pos_of_ne_nil hne
      have hone : run.pendingApprovals.length ≠ 1 := fun hone =>
        hpark ⟨hparked, Option.isNone_iff_eq_none.mpr hnone, hone⟩
      omega
    · intro hcancelling
      have : run.status = .cancelling := hcancelling
      rw [this] at hstatus
      cases hstatus

/-- The cancellations of every pending approval leave none, and the run's status and turns as they
are. -/
theorem cancellations_settle {ids : List ApprovalId} {P : ActiveRun → Prop}
    (hP : ∀ run approvals, P run → P { run with approvals }) (hinv : EntriesInv s)
    (hwithin : PendingWithin ids s) (h : s.ForActive P)
    (hfold : (entriesFrom ms seq (ids.map (fun id =>
      runProposal runId (.approval (.cancelled id runId))))).foldlM applyEvent s = .ok t) :
    EntriesInv t ∧ PendingWithin [] t ∧ t.ForActive P := by
  induction ids generalizing s seq with
  | nil =>
    rw [List.map_nil, entriesFrom, List.foldlM_nil, pure_eq_ok] at hfold
    exact hfold ▸ ⟨hinv, hwithin, h⟩
  | cons id rest ih =>
    obtain ⟨u, hu, hfold⟩ := foldlM_cons_eq_ok.mp hfold
    obtain ⟨hinv', hwithin'⟩ := hwithin.cancelled hinv hu
    refine ih hinv' hwithin' ?_ hfold
    obtain ⟨-, m, hm, rfl⟩ := applyEvent_eq_ok.mp hu
    have hcancelled : applyApprovalEvent s ms (.cancelled id runId) = .ok m := hm
    obtain ⟨run, record, hactive, -, -, -, -, rfl⟩ := approvalCancelled_eq_ok.mp hcancelled
    exact forActive_setActive.mpr (hP run _ (h run hactive))

theorem cancelRun_settled (h : Inv s) (hs : s.ForActive RunSettled)
    (hactive : s.runs.active = some run)
    (hcommit : (uncommitted s ms (runProposal run.runId (.run (.cancellationRequested run.runId)) ::
      pendingApprovalCancellations run)).foldlM applyEvent s = .ok t) : t.ForActive RunSettled := by
  rw [uncommitted_eq, pendingApprovalCancellations_eq] at hcommit
  · obtain ⟨u, hu, hcommit⟩ := foldlM_cons_eq_ok.mp hcommit
    have hinv := applyEvent_entriesInv h.entries hu
    obtain ⟨-, m, hm, rfl⟩ := applyEvent_eq_ok.mp hu
    have hrequested : applyRunEvent s s.nextSeq ms (.cancellationRequested run.runId) = .ok m := hm
    obtain ⟨run', hactive', -, -, rfl⟩ := cancellationRequested_eq_ok.mp hrequested
    obtain rfl : run = run' := Option.mem_unique hactive hactive'
    let P : ActiveRun → Prop := fun run => run.status = .cancelling ∧
      ∀ id turn, run.activeTurnId = some id → run.turns.get? id = some turn →
        turn.status ≠ .generationSettled
    have hwithin := PendingWithin.of_run h hactive
    have hsettled : EntriesInv t ∧ PendingWithin [] t ∧ t.ForActive P := by
      refine cancellations_settle (P := P) (fun _ _ hrun => hrun) hinv ?_ ?_ hcommit
      · rintro _ ⟨⟩
        exact hwithin run hactive
      · exact forActive_setActive.mpr ⟨rfl, (hs run hactive).turn⟩
    obtain ⟨-, hnone, hrun⟩ := hsettled
    intro run' hactive'
    obtain ⟨hstatus, hturn⟩ := hrun run' hactive'
    refine ⟨hturn, fun hparked => ?_, fun _ => hnone.pendingApprovals run' hactive'⟩
    exact absurd (hstatus.symm.trans hparked) nofun
  · intro proposal hmem
    rcases List.mem_cons.mp hmem with rfl | hmem
    · rfl
    · obtain ⟨record, -, rfl⟩ := List.mem_map.mp hmem
      rfl

/-! ## Every reachable state -/

theorem mem_appliedProposals {revision : Nat}
    (h : proposal ∈ appliedProposals runId revision contexts) :
    proposal = runProposal runId (.context (.entriesApplied revision contexts)) := by
  unfold appliedProposals at h
  split_ifs at h
  · cases h
  · exact List.mem_singleton.mp h

theorem mem_cancelRunProposals
    (h : proposal ∈ runProposal run.runId (.run (.cancellationRequested run.runId)) ::
      pendingApprovalCancellations run) :
    proposal.event = .run (.cancellationRequested run.runId) ∨
      ∃ id, proposal.event = .approval (.cancelled id run.runId) := by
  rcases List.mem_cons.mp h with rfl | h
  · exact .inl rfl
  · obtain ⟨record, -, rfl⟩ := List.mem_map.mp h
    exact .inr ⟨_, rfl⟩

theorem mem_forceCancelProposals {revision : Nat} {event : RunEvent}
    (h : proposal ∈ appliedProposals runId revision contexts ++ [runProposal runId (.run event)]) :
    proposal = runProposal runId (.context (.entriesApplied revision contexts)) ∨
      proposal = runProposal runId (.run event) :=
  (List.mem_append.mp h).imp mem_appliedProposals List.mem_singleton.mp

/-- What the decision of an approval proposes. -/
theorem mem_decideProposals {p : Prop} [Decidable p] {first : CoreAgentEventProposal} {revision : Nat}
    {unparked : List CoreAgentEventProposal}
    (hunparked : unparked = if p then [runProposal runId (.approval (.runUnparked runId))] else [])
    (h : proposal ∈ first :: unparked ++ appliedProposals runId revision contexts) :
    proposal = first ∨ proposal = runProposal runId (.approval (.runUnparked runId)) ∨
      proposal = runProposal runId (.context (.entriesApplied revision contexts)) := by
  rw [List.cons_append, List.mem_cons, List.mem_append, hunparked] at h
  rcases h with h | h | h
  · exact .inl h
  · split_ifs at h
    · exact .inr (.inl (List.mem_singleton.mp h))
    · cases h
  · exact .inr (.inr (mem_appliedProposals h))

/-- What unparks a batch stands before the results of its calls. -/
theorem mem_unparkProposals {ids : List PromiseId} {joins : CoreAgentJoins} {event : ToolEvent}
    (h : proposal ∈ ids.map (fun id => ⟨joins, .promise (.cancelled id)⟩) ++ [⟨joins, .tool event⟩] ++
      proposals) :
    (∃ id, proposal = ⟨joins, .promise (.cancelled id)⟩) ∨ proposal = ⟨joins, .tool event⟩ ∨
      proposal ∈ proposals := by
  simp only [List.mem_append, List.mem_map, List.mem_singleton] at h
  rcases h with (⟨id, -, rfl⟩ | rfl) | h
  · exact .inl ⟨id, rfl⟩
  · exact .inr (.inl rfl)
  · exact .inr (.inr h)

/-- What a failed recovery of an overflow proposes. -/
theorem mem_overflowedProposals {first : CoreAgentEventProposal} {revision : Nat}
    {failureRef : Option BlobRef}
    (h : proposal ∈ first :: overflowFailureProposals s run revision failureRef) :
    proposal = first ∨
      proposal = runProposal run.runId (.context (.entriesApplied revision (missingSteeringEntries s))) ∨
      proposal = runProposal run.runId (.run (.failed run.runId
        (runFailure .contextFailure failureRef contextLimitFailureContent))) := by
  unfold overflowFailureProposals at h
  rcases List.mem_cons.mp h with h | h
  · exact .inl h
  · rcases List.mem_append.mp h with h | h
    · split_ifs at h
      · exact .inr (.inl (List.mem_singleton.mp h))
      · cases h
    · exact .inr (.inr (List.mem_singleton.mp h))

theorem mem_approveProposals {last : CoreAgentEventProposal}
    (hrequested : ∀ proposal ∈ proposals, ∃ approval, proposal.event = .approval (.requested approval))
    (h : proposal ∈ proposals ++ [last]) :
    (∃ approval, proposal.event = .approval (.requested approval)) ∨ proposal.event = last.event := by
  rcases List.mem_append.mp h with h | h
  · exact .inl (hrequested proposal h)
  · exact .inr (congrArg _ (List.mem_singleton.mp h))

/-- What the end of a run by `FailRun` proposes. -/
theorem mem_failRunProposals {messageRef : BlobRef}
    (h : failRunProposals s run messageRef = .ok proposals) :
    (∃ proposal ∈ proposals, proposal.event = .run (.failed run.runId
      { kind := .internal, messageRef := some messageRef })) ∧
    ∀ proposal ∈ proposals,
      (∃ revision contexts, proposal.event = .context (.entriesApplied revision contexts) ∧
        (openToolGroupClosingEntries s run = .ok contexts ∨
          ∃ last, contexts ∈ [[], missingSteeringEntriesAfter s last])) ∨
      (∃ id, proposal.event = .approval (.cancelled id run.runId)) ∨
      proposal.event = .run (.failed run.runId
        { kind := .internal, messageRef := some messageRef }) := by
  simp only [failRunProposals, bind_eq_ok, Except.ok.injEq] at h
  obtain ⟨closing, hclosing, rfl⟩ := h
  refine ⟨⟨_, List.mem_append_right _ List.mem_cons_self, rfl⟩, fun proposal hmem => ?_⟩
  simp only [List.mem_append, List.mem_singleton] at hmem
  rcases hmem with ((hmem | hmem) | hmem) | rfl
  · exact .inl ⟨_, closing, by rw [mem_appliedProposals hmem]; rfl, .inl hclosing⟩
  · obtain ⟨record, -, rfl⟩ := List.mem_map.mp hmem
    exact .inr (.inl ⟨_, rfl⟩)
  · refine .inl ⟨_, _, by rw [mem_appliedProposals hmem]; rfl, .inr
      ⟨(closing.getLast?.map ContextEntry.entryId).getD s.idCursors.lastContextEntryId, ?_⟩⟩
    split_ifs
    · exact List.mem_cons_self
    · exact List.mem_cons_of_mem _ List.mem_cons_self
  · exact .inr (.inr rfl)

/-- What a forced close proposes. -/
theorem mem_forceCloseProposals (h : proposal ∈ forceCloseProposals s) :
    proposal = compactionAbandonedProposal s ∨
      (∃ run, s.runs.active = some run ∧ proposal ∈ pendingApprovalCancellations run) ∨
      (∃ run, s.runs.active = some run ∧
        proposal = runProposal run.runId (.run (.forceCancelled run.runId))) ∨
      (∃ queued ∈ s.runs.queued,
        proposal = runProposal queued.runId (.run (.queuedCancelled queued.runId))) ∨
      ∃ promise ∈ s.promises.pending, promise.scope = .session ∧
        proposal = sessionProposal (.promise (.cancelled promise.promiseId)) := by
  simp only [forceCloseProposals, List.mem_append, List.mem_map] at h
  rcases h with ((h | h) | ⟨queued, hqueued, rfl⟩) | ⟨promise, hpromise, rfl⟩
  · split_ifs at h
    · exact .inl (List.mem_singleton.mp h)
    · cases h
  · split at h
    next run hactive =>
      rcases List.mem_append.mp h with h | h
      · exact .inr (.inl ⟨run, hactive, h⟩)
      · exact .inr (.inr (.inl ⟨run, hactive, List.mem_singleton.mp h⟩))
    · cases h
  · exact .inr (.inr (.inr (.inl ⟨queued, hqueued, rfl⟩)))
  · obtain ⟨hpending, hscope⟩ := List.mem_filter.mp hpromise
    exact .inr (.inr (.inr (.inr ⟨promise, hpending, by simpa using hscope, rfl⟩)))

theorem forceClose_event (h : proposal ∈ forceCloseProposals s) :
    proposal.event = (compactionAbandonedProposal s).event ∨
      (∃ id runId, proposal.event = .approval (.cancelled id runId)) ∨
      (∃ runId, proposal.event = .run (.forceCancelled runId)) ∨
      (∃ runId, proposal.event = .run (.queuedCancelled runId)) ∨
      ∃ id, proposal.event = .promise (.cancelled id) := by
  rcases mem_forceCloseProposals h with rfl | ⟨run, -, hmem⟩ | ⟨run, -, rfl⟩ | ⟨queued, -, rfl⟩ |
    ⟨promise, -, -, rfl⟩
  · exact .inl rfl
  · obtain ⟨record, -, rfl⟩ := List.mem_map.mp hmem
    exact .inr (.inl ⟨_, _, rfl⟩)
  · exact .inr (.inr (.inl ⟨_, rfl⟩))
  · exact .inr (.inr (.inr (.inl ⟨_, rfl⟩)))
  · exact .inr (.inr (.inr (.inr ⟨_, rfl⟩)))

/-- A forced close leaves no active run. -/
theorem forceClose_inactive (h : Inv s)
    (hcommit : (uncommitted s ms (forceCloseProposals s ++
      [sessionProposal (.lifecycle .closed)])).foldlM applyEvent s = .ok t) :
    t.runs.active = none := by
  have hstart : ∀ proposal ∈ forceCloseProposals s ++ [sessionProposal (.lifecycle .closed)],
      ∀ runId, proposal.event ≠ .run (.started runId) := by
    intro proposal hmem runId
    rcases List.mem_append.mp hmem with hmem | hmem
    · rcases forceClose_event hmem with heq | ⟨_, _, heq⟩ | ⟨_, heq⟩ | ⟨_, heq⟩ | ⟨_, heq⟩ <;>
        rw [heq] <;> nofun
    · rw [List.mem_singleton.mp hmem]
      nofun
  cases hactive : s.runs.active with
  | none =>
    refine fold_inactive h.entries hactive (fun entry hentry runId => ?_) hcommit
    rcases mem_uncommitted hentry with ⟨proposal, hproposal, heq⟩ | ⟨id, heq⟩
    · rw [heq]
      exact ne_started_stored (hstart proposal hproposal runId)
    · rw [heq]
      nofun
  | some run =>
    have hmem : runProposal run.runId (.run (.forceCancelled run.runId)) ∈
        forceCloseProposals s ++ [sessionProposal (.lifecycle .closed)] := by
      simp [forceCloseProposals, hactive]
    exact append_ends h hmem rfl hstart hcommit

/-- An append leaves a settled run settled. -/
theorem settled_append (h : Inv s) (hs : s.ForActive RunSettled)
    (hproposed : Proposed sessionId s input proposals)
    (hcommit : (uncommitted s ms proposals).foldlM applyEvent s = .ok t) :
    t.ForActive RunSettled := by
  have hcalm : (∀ proposal ∈ proposals, proposal.event.isCalm = true) → t.ForActive RunSettled :=
    fun hcalm => settled_of_calm h hs hproposed hcalm hcommit
  have hended : t.runs.active = none → t.ForActive RunSettled := by
    intro hnone run hactive
    rw [hnone] at hactive
    cases hactive
  have hform := hproposed
  cases hproposed with
  | quiet hquiet => exact hcalm fun proposal hmem => isCalm_of_quiet (hquiet proposal hmem).1
  | plan hplan => exact hcalm fun _ hmem => isCalm_of_planned (planned_isPlanned hplan hmem)
  | cancelRun hactive hstatus => exact cancelRun_settled h hs hactive hcommit
  | decide hactive hrun hrecord hstatus hresponse hunparked =>
    exact decide_settled h hs hactive hstatus hunparked hcommit
  | compact hpending hqueued hcovers =>
    refine hcalm fun proposal hmem => ?_
    rw [List.mem_singleton.mp hmem, manualCompactionRequestedProposal]
    split_ifs <;> rfl
  | forceClose => exact hended (forceClose_inactive h hcommit)
  | @forceCancel run closing hactive hclosing =>
    have hmem : runProposal run.runId (.run (.forceCancelled run.runId)) ∈
        appliedProposals run.runId s.context.revision closing ++
          [runProposal run.runId (.run (.forceCancelled run.runId))] := by simp
    refine hended (append_ends h hmem rfl (fun proposal hproposal runId => ?_) hcommit)
    rcases mem_forceCancelProposals hproposal with rfl | rfl <;> nofun
  | failRun hactive hfail =>
    obtain ⟨⟨failed, hmem, heq⟩, hevents⟩ := mem_failRunProposals hfail
    refine hended (append_ends h hmem (by rw [heq]; rfl) (fun proposal hproposal runId => ?_) hcommit)
    rcases hevents proposal hproposal with ⟨_, _, heq, -⟩ | ⟨_, heq⟩ | heq <;> rw [heq] <;> nofun
  | unpark hactive hparked hrun hbatch hclaim hresult hmatches hcompleted =>
    refine hcalm fun proposal hmem => ?_
    rcases mem_unparkProposals hmem with ⟨_, rfl⟩ | rfl | hmem
    · rfl
    · rfl
    · exact isCalm_of_result ((toolCallCompletedProposals_spec hcompleted).1 proposal hmem)
  | generation hactive hrun hturn => exact generation_settled h hs hactive hform hcommit
  | compacted hplan hstatus =>
    refine hcalm fun proposal hmem => ?_
    simp only [List.mem_cons, List.not_mem_nil, or_false] at hmem
    rcases hmem with rfl | rfl | rfl <;> rfl
  | overflowed hplan hstatus hactive htrigger =>
    refine hcalm fun proposal hmem => ?_
    rcases mem_overflowedProposals hmem with rfl | rfl | rfl <;> rfl
  | results hmatches hproposals | codeResults hcall hstatus hparent hproposals =>
    exact hcalm fun proposal hmem =>
      isCalm_of_result ((toolCallCompletedProposals_spec hproposals).1 proposal hmem)
  | park hactive hid hbatch hmatches hvalid hcompleted =>
    refine hcalm fun proposal hmem => ?_
    rcases List.mem_append.mp hmem with hmem | hmem
    · exact isCalm_of_result ((toolCallCompletedProposals_spec hcompleted).1 proposal hmem)
    · rw [List.mem_singleton.mp hmem]
      rfl
  | approve hactive hid hbatch hrequested =>
    refine hcalm fun proposal hmem => ?_
    rcases mem_approveProposals hrequested hmem with ⟨_, heq⟩ | heq <;> rw [heq] <;> rfl
  | _ => exact hcalm fun _ hmem => List.mem_singleton.mp hmem ▸ rfl

/-- Every state that a session reaches satisfies the invariant, and its run is settled. -/
theorem reachable_inv (h : Reachable sessionId s log) : Inv s ∧ s.ForActive RunSettled := by
  refine EventSource.Reaches.invariant (P := fun s _ => Inv s ∧ s.ForActive RunSettled)
    ⟨inv_init, by rintro run ⟨⟩⟩ ?_ h
  rintro s log ⟨ms, input⟩ entries t - ⟨hinv, hsettled⟩ hpropose hcommit
  obtain ⟨proposals, -, hproposed, rfl⟩ := proposeEntries_cases hpropose
  refine ⟨?_, settled_append hinv hsettled hproposed hcommit⟩
  exact (append_preserves hinv hsettled hproposed (P := fun _ => True)
    (fun _ _ _ _ _ _ _ _ => trivial) hcommit trivial).1

/-- What a session appends is warranted. -/
theorem append_warranted {entries : List CoreAgentEntry} (hreached : Reachable sessionId s log)
    (hpropose : proposeEntries sessionId s (ms, input) = .ok entries) :
    EventSource.Warranted applyEvent (Warrant s input) s entries := by
  obtain ⟨hinv, hsettled⟩ := reachable_inv hreached
  obtain ⟨proposals, -, hproposed, rfl⟩ := proposeEntries_cases hpropose
  exact (proposed_backed hinv hsettled hproposed).warranted [] s.nextSeq ms

/-- What every warranted event keeps, of the state and of its log, holds in every state that a session
reaches. -/
theorem reachable_preserves {P : CoreAgentState → List CoreAgentEntry → Prop}
    (hinit : P CoreAgentState.new [])
    (hstep : ∀ base input s log entry t, Inv s → P s log → Warrant base input s entry →
      applyEvent s entry = .ok t → P t (log ++ [entry]))
    (h : Reachable sessionId s log) : P s log := by
  refine EventSource.Reaches.invariant hinit ?_ h
  rintro s log ⟨ms, input⟩ entries t hreached hs hpropose hcommit
  have hboth := (append_warranted hreached hpropose).preserves (P := fun u log => Inv u ∧ P u log) log ?_
    hcommit ⟨(reachable_inv hreached).1, hs⟩
  · exact hboth.2
  · rintro u log a v ⟨hu, hp⟩ hwarrant hv
    exact ⟨inv_step hu hwarrant hv, hstep s input u log a v hu hp hwarrant hv⟩

/-- What every warranted event keeps holds all along a log, and not only between appends. -/
theorem reachable_throughout {P : CoreAgentState → List CoreAgentEntry → Prop}
    (hinit : P CoreAgentState.new [])
    (hstep : ∀ base input s log entry t, Inv s → P s log → Warrant base input s entry →
      applyEvent s entry = .ok t → P t (log ++ [entry]))
    (h : Reachable sessionId s log) {before : List CoreAgentEntry} (hbefore : before <+: log)
    {u : CoreAgentState} (hu : before.foldlM applyEvent CoreAgentState.new = .ok u) : P u before := by
  have hall := reachable_preserves (P := fun s log => P s log ∧
    log.foldlM applyEvent CoreAgentState.new = .ok s ∧
    ∀ before, before <+: log → ∀ u, before.foldlM applyEvent CoreAgentState.new = .ok u → P u before)
    ⟨hinit, rfl, ?_⟩ ?_ h
  · exact hall.2.2 before hbefore u hu
  · intro before hbefore u hu
    obtain rfl := List.prefix_nil.mp hbefore
    obtain rfl : CoreAgentState.new = u := by simpa using hu
    exact hinit
  · rintro base input s log entry t hinv ⟨hs, hlog, hprefix⟩ hw happly
    have ht := hstep base input s log entry t hinv hs hw happly
    have hfold : (log ++ [entry]).foldlM applyEvent CoreAgentState.new = .ok t :=
      foldlM_append_eq_ok.mpr ⟨s, hlog, foldlM_cons_eq_ok.mpr ⟨t, happly, rfl⟩⟩
    refine ⟨ht, hfold, fun before hbefore u hu => ?_⟩
    rcases List.prefix_concat_iff.mp hbefore with rfl | hbefore
    · obtain rfl : t = u := Except.ok.inj (hfold.symm.trans hu)
      exact ht
    · exact hprefix before hbefore u hu

/-! ## A session to run -/

/-- A configuration under which sessions are run below. -/
def sampleConfig : SessionConfig where
  model := { apiKind := .openAiResponses, providerId := "openai", model := "model" }

/-- A user's message. -/
def sampleMessage : ContextEntryInput where
  kind := .message .user
  content := { contentRef := ⟨"hello"⟩ }

/-- What an assistant says. -/
def sampleAnswer : ContextEntryInput where
  kind := .message .assistant
  content := { contentRef := ⟨"answer"⟩ }

/-- The planning that takes an accepted run to its first generation. -/
def planTurn (ms : Nat) : List (Nat × DriveInput) := List.replicate 5 (ms, .nextAction)

/-- What a provider asks before it calls a tool of its own. -/
def sampleApproval : ObservedApprovalRequest where
  subject := .mcpToolCall "server" "label" "tool" ⟨"args"⟩
  continuation := .providerMcp "request"

end Lightspeed.Harness
