import Lightspeed.Harness.LimitedRuns
import Lightspeed.Harness.PromiseLedger
import Lightspeed.Harness.Removals

/-!
# The calls of a run at its turn limit

A turn that queued its calls hands them to a batch, and the batch completes only over a context that shows a
result of every call. `AnswersInv` carries that along the log: a turn of the active run that queued calls
has shown their results, or is its latest turn and still owes them. A run that ends at its turn limit owes
none.
-/

namespace Lightspeed.Harness

open Lib

variable {sessionId : SessionId} {s t u : CoreAgentState} {run : ActiveRun} {entry : CoreAgentEntry}
  {log later : List CoreAgentEntry} {runId : RunId} {turnId : TurnId} {facts : LlmGenerationFacts}
  {callId : ToolCallId}

/-! ## What a log says of a turn -/

/-- A generation of the turn has settled with these facts. -/
def GeneratedIn (log : List CoreAgentEntry) (turnId : TurnId) (runId : RunId)
    (facts : LlmGenerationFacts) : Prop :=
  ∃ entry ∈ log, ∃ status, entry.event = .turn (.generationCompleted turnId runId status facts)

/-- The turn has completed with its calls queued. -/
def QueuedIn (log : List CoreAgentEntry) (turnId : TurnId) : Prop :=
  ∃ entry ∈ log, entry.event = .turn (.completed turnId .toolCallsQueued)

/-- Whether an entry is the result of a call of a turn. -/
def ContextEntry.isResultOf (entry : ContextEntry) (runId : RunId) (turnId : TurnId)
    (callId : ToolCallId) : Bool :=
  entry.isToolOf runId turnId &&
    match entry.kind with
    | .toolResult id _ => id == callId
    | _ => false

/-- The context has held a result of the call, at some point of the log. -/
def ShownIn (log : List CoreAgentEntry) (runId : RunId) (turnId : TurnId) (callId : ToolCallId) : Prop :=
  ∃ front back w, log = front ++ back ∧ front.foldlM applyEvent CoreAgentState.new = .ok w ∧
    ∃ shown ∈ w.context.entries, shown.isResultOf runId turnId callId = true

theorem ShownIn.append (h : ShownIn log runId turnId callId) (later : List CoreAgentEntry) :
    ShownIn (log ++ later) runId turnId callId := by
  obtain ⟨front, back, w, rfl, hw, hshown⟩ := h
  exact ⟨front, back ++ later, w, List.append_assoc front back later, hw, hshown⟩

theorem generatedIn_append : GeneratedIn (log ++ [entry]) turnId runId facts ↔
    GeneratedIn log turnId runId facts ∨
      ∃ status, entry.event = .turn (.generationCompleted turnId runId status facts) := by
  simp only [GeneratedIn, List.mem_append, List.mem_singleton, or_and_right, exists_or,
    exists_eq_left]

theorem queuedIn_append : QueuedIn (log ++ [entry]) turnId ↔
    QueuedIn log turnId ∨ entry.event = .turn (.completed turnId .toolCallsQueued) := by
  simp only [QueuedIn, List.mem_append, List.mem_singleton, or_and_right, exists_or, exists_eq_left]

/-! ## Results that a batch has shown -/

/-- A completing batch shows the result of each of its calls. -/
theorem shown_of_settled {call : ToolCallState} {result : ToolCallResult}
    (h : settledResult s runId turnId call = .ok result) :
    ∃ shown ∈ s.context.entries, shown.isResultOf runId turnId call.call.callId = true := by
  simp only [settledResult, bind_eq_ok, require_eq_ok, orError_eq_ok, exists_unit] at h
  obtain ⟨-, result, -, ⟨hcall, -⟩, hexists, -⟩ := h
  unfold toolResultContextEntryExists at hexists
  split at hexists
  swap
  · cases hexists
  next inputs hinputs =>
    simp only [toolResultContextInputs, bind_eq_ok, require_eq_ok, forM_eq_ok, exists_unit,
      Except.ok.injEq] at hinputs
    obtain ⟨-, hvalid, hany, rfl⟩ := hinputs
    obtain ⟨input, hinput, hkind⟩ := List.any_eq_true.mp hany
    -- The one entry of a result that must be there answers its call.
    obtain ⟨isError, heq⟩ : ∃ isError, input.kind = .toolResult call.call.callId isError := by
      have hcheck := hvalid input hinput
      unfold validateModelVisibleToolEntry at hcheck
      cases hinputKind : input.kind with
      | toolResult id isError =>
        simp only [hinputKind, require_eq_ok] at hcheck
        exact ⟨isError, by rw [hcheck.1, hcall]⟩
      | _ => rw [hinputKind] at hkind; cases hkind
    have hshown := List.all_eq_true.mp hexists _ (List.mem_map_of_mem hinput)
    obtain ⟨shown, hmem, hshown⟩ := List.any_eq_true.mp hshown
    simp only [Bool.and_eq_true, beq_iff_eq] at hshown
    refine ⟨shown, hmem, ?_⟩
    have hkind' : shown.kind = .toolResult call.call.callId isError := by
      rw [hshown.1.1.1.1.1.2, ← heq]
      unfold withProviderKind
      split_ifs <;> rfl
    rw [ContextEntry.isResultOf, hkind', hshown.1.1.1.1.1.1]
    simp

/-- What the log shows of the turns of the active run. -/
structure ActiveRun.Answers (run : ActiveRun) (log : List CoreAgentEntry) : Prop where
  facts : ∀ turnId facts, GeneratedIn log turnId run.runId facts → ∀ turn,
    run.turns.get? turnId = some turn → turn.facts = some facts
  completed : ∀ batch ∈ run.completedToolBatches.values, run.activeTurnId ≠ some batch.turnId ∧
    ∀ turn facts, run.turns.get? batch.turnId = some turn → turn.facts = some facts →
      ∀ call ∈ facts.toolCalls, ShownIn log run.runId batch.turnId call.callId
  owed : ∀ turnId facts, GeneratedIn log turnId run.runId facts → QueuedIn log turnId →
    (∀ call ∈ facts.toolCalls, ShownIn log run.runId turnId call.callId) ∨
      (run.activeTurnId = none ∧ ∃ turn, run.turns.last? = some (turnId, turn) ∧
        turn.outcome = some .toolCallsQueued)
  ended : ∀ turnId, QueuedIn log turnId → run.activeTurnId ≠ some turnId

/-- What a log says of generations, and what it shows of the turns of the active run. -/
structure AnswersInv (s : CoreAgentState) (log : List CoreAgentEntry) : Prop where
  replay : log.foldlM applyEvent CoreAgentState.new = .ok s
  ledger : LedgerInv s log
  turnId : ∀ turnId runId facts, GeneratedIn log turnId runId facts → turnId ≤ s.idCursors.lastTurnId
  queued : ∀ turnId, QueuedIn log turnId → turnId ≤ s.idCursors.lastTurnId
  runId : ∀ turnId runId facts, GeneratedIn log turnId runId facts → HasStarted s runId
  run : s.ForActive fun run => run.Answers log

/-- At a boundary the results of all queued calls have been shown. -/
theorem answered_of_boundary {cursors : IdCursors} {revision : Nat}
    (hinv : RunInv cursors revision run) (h : run.Answers log) (hidle : run.AtBoundary)
    (hgenerated : GeneratedIn log turnId run.runId facts) (hqueued : QueuedIn log turnId) :
    ∀ call ∈ facts.toolCalls, ShownIn log run.runId turnId call.callId := by
  rcases h.owed turnId facts hgenerated hqueued with hshown | ⟨-, turn, hlast, houtcome⟩
  · exact hshown
  have hget := OrdMap.get?_of_last? hlast
  have hbatch := hinv.hasBatchOf_of_boundary hidle hget houtcome
  rcases hasBatchOf_iff.mp hbatch with ⟨batch, hmem, -⟩ | ⟨batch, hmem, rfl⟩
  · obtain ⟨id, hopen⟩ := OrdMap.mem_values.mp hmem
    have hnone := hinv.toolBatches_of_none hidle.batch
    have hkey := OrdMap.mem_keys.mpr ⟨batch, hopen⟩
    rw [hnone] at hkey
    cases hkey
  · exact (h.completed batch hmem).2 turn facts hget (h.facts _ _ hgenerated turn hget)

/-- Whether an event says something of a turn's generation or end. -/
def CoreAgentEvent.settlesTurn : CoreAgentEvent → Bool
  | .turn (.generationCompleted _ _ _ _) | .turn (.completed _ _) => true
  | _ => false

theorem generatedIn_of_other (hevent : entry.event.settlesTurn = false) :
    GeneratedIn (log ++ [entry]) turnId runId facts ↔ GeneratedIn log turnId runId facts := by
  rw [generatedIn_append]
  refine or_iff_left ?_
  rintro ⟨status, heq⟩
  rw [heq] at hevent
  cases hevent

theorem queuedIn_of_other (hevent : entry.event.settlesTurn = false) :
    QueuedIn (log ++ [entry]) turnId ↔ QueuedIn log turnId := by
  rw [queuedIn_append]
  refine or_iff_left fun heq => ?_
  rw [heq] at hevent
  cases hevent

/-- A run at the same turns and batches shows what it showed. -/
theorem ActiveRun.Answers.of_same {a b : ActiveRun} (h : a.Answers log)
    (hevent : entry.event.settlesTurn = false) (hrun : b.runId = a.runId) (hturns : b.turns = a.turns)
    (hturn : b.activeTurnId = a.activeTurnId)
    (hcompleted : b.completedToolBatches = a.completedToolBatches) :
    b.Answers (log ++ [entry]) where
  facts := by
    intro turnId facts hgenerated
    rw [hturns]
    exact h.facts turnId facts (hrun ▸ (generatedIn_of_other hevent).mp hgenerated)
  completed := by
    intro batch hbatch
    rw [hturns, hturn, hrun]
    obtain ⟨hidle, hshown⟩ := h.completed batch (hcompleted ▸ hbatch)
    exact ⟨hidle, fun turn facts hget hfacts call hcall =>
      (hshown turn facts hget hfacts call hcall).append [entry]⟩
  owed := by
    intro turnId facts hgenerated hqueued
    rw [hturns, hturn, hrun]
    rw [hrun, generatedIn_of_other hevent] at hgenerated
    rw [queuedIn_of_other hevent] at hqueued
    exact (h.owed turnId facts hgenerated hqueued).imp_left fun hshown call hcall =>
      (hshown call hcall).append [entry]
  ended := by
    intro turnId hqueued
    rw [hturn]
    exact h.ended turnId ((queuedIn_of_other hevent).mp hqueued)

/-! ## Steps -/

/-- What an event about the open turn has to say for its run to keep showing results. -/
theorem ActiveRun.Answers.of_turn {a b : ActiveRun} (turn : TurnState) (h : a.Answers log)
    (hopen : a.activeTurnId = some turnId) (hrun : b.runId = a.runId)
    (hturns : ∀ id turn', b.turns.get? id = some turn' →
      (a.setTurn turnId turn).turns.get? id = some turn')
    (hcompleted : ∀ batch ∈ b.completedToolBatches.values, batch ∈ a.completedToolBatches.values)
    (hturn : b.activeTurnId = some turnId ∨ b.activeTurnId = none)
    (hfacts : ∀ facts, GeneratedIn (log ++ [entry]) turnId a.runId facts → turn.facts = some facts)
    (hgenerated : ∀ id facts, GeneratedIn (log ++ [entry]) id a.runId facts →
      id = turnId ∨ GeneratedIn log id a.runId facts)
    (hqueued : ∀ id, QueuedIn (log ++ [entry]) id → QueuedIn log id ∨
      (id = turnId ∧ b.activeTurnId = none ∧ ∃ turn', b.turns.last? = some (turnId, turn') ∧
        turn'.outcome = some .toolCallsQueued)) : b.Answers (log ++ [entry]) := by
  have hother : ∀ id, id ≠ turnId → ∀ turn', b.turns.get? id = some turn' →
      a.turns.get? id = some turn' := by
    intro id hne turn' hget
    have hset := hturns id turn' hget
    rwa [ActiveRun.setTurn, OrdMap.get?_insert_ne _ _ hne.symm] at hset
  have hactive : ∀ id, id ≠ turnId → b.activeTurnId ≠ some id := by
    intro id hne heq
    rcases hturn with hsame | hnone
    · exact hne (Option.mem_unique heq hsame)
    · rw [hnone] at heq
      cases heq
  refine ⟨?_, ?_, ?_, ?_⟩
  · intro id facts hgen turn' hget
    rw [hrun] at hgen
    by_cases hid : id = turnId
    · subst hid
      have hset := hturns id turn' hget
      rw [ActiveRun.setTurn, OrdMap.get?_insert_self] at hset
      obtain rfl := Option.some.inj hset
      exact hfacts facts hgen
    · have hold := (hgenerated id facts hgen).resolve_left hid
      exact h.facts id facts hold turn' (hother id hid turn' hget)
  · intro batch hbatch
    obtain ⟨hidle, hshown⟩ := h.completed batch (hcompleted batch hbatch)
    have hne : batch.turnId ≠ turnId := by
      rintro heq
      exact hidle (hopen.trans (by rw [heq]))
    refine ⟨hactive _ hne, fun turn' facts hget hturnFacts call hcall => ?_⟩
    rw [hrun]
    exact (hshown turn' facts (hother _ hne turn' hget) hturnFacts call hcall).append [entry]
  · intro id facts hgen hqueuedId
    rw [hrun] at hgen ⊢
    rcases hqueued id hqueuedId with hold | ⟨rfl, hnone, hlast⟩
    · have hne : id ≠ turnId := fun heq => h.ended id hold (heq ▸ hopen)
      have hgenOld := (hgenerated id facts hgen).resolve_left hne
      rcases h.owed id facts hgenOld hold with hshown | ⟨hnone, -⟩
      · exact .inl fun call hcall => (hshown call hcall).append [entry]
      · rw [hopen] at hnone
        cases hnone
    · exact .inr ⟨hnone, hlast⟩
  · intro id hqueuedId
    rcases hqueued id hqueuedId with hold | ⟨-, hnone, -⟩
    · exact hactive id fun heq => h.ended id hold (heq ▸ hopen)
    · rw [hnone]
      simp

theorem shownAnswers_turn {event : TurnEvent} (hinv : Inv s) (hplan : PlanKnew s entry.event)
    (hevent : entry.event = .turn event) (h : AnswersInv s log)
    (happly : applyTurnEvent s event = .ok t) : t.ForActive fun run => run.Answers (log ++ [entry]) := by
  -- An event that neither settles a generation nor ends a turn says nothing of them.
  have hold : (CoreAgentEvent.turn event).settlesTurn = false →
      (∀ id runId facts, GeneratedIn (log ++ [entry]) id runId facts → GeneratedIn log id runId facts) ∧
        ∀ id, QueuedIn (log ++ [entry]) id → QueuedIn log id := by
    intro hquiet
    rw [← hevent] at hquiet
    exact ⟨fun id runId facts hgen => (generatedIn_of_other hquiet).mp hgen,
      fun id hqueued => (queuedIn_of_other hquiet).mp hqueued⟩
  cases event with
  | started turnId runId =>
    obtain ⟨run, hactive, -, hid, -, hturn, rfl⟩ := turnStarted_eq_ok.mp happly
    obtain ⟨hgenOld, hqueuedOld⟩ := hold rfl
    rw [hevent] at hplan
    obtain ⟨run', hstarts, -⟩ := hplan
    obtain rfl : run = run' := Option.mem_unique hactive hstarts.active
    have hrun := h.run run hactive
    have hrunInv := hinv.run run hactive
    have hfresh : ∀ id, id ≤ s.idCursors.lastTurnId → id ≠ turnId := by
      rintro id hle rfl
      rw [hid] at hle
      exact absurd hle (Nat.not_succ_le_self _)
    rintro b ⟨⟩
    refine ⟨?_, ?_, ?_, ?_⟩
    · intro id facts hgen turn hget
      have hgen' := hgenOld id _ facts hgen
      have hne := hfresh id (h.turnId id _ facts hgen')
      have hget' : (run.setTurn turnId { turnId, runId, status := .started }).turns.get? id =
        some turn := hget
      rw [ActiveRun.setTurn, OrdMap.get?_insert_ne _ _ hne.symm] at hget'
      exact hrun.facts id facts hgen' turn hget'
    · intro batch hbatch
      have hne := hfresh batch.turnId (hrunInv.completedTurn batch hbatch)
      refine ⟨fun heq => hne (Option.some.inj heq).symm, fun turn facts hget hfacts call hcall => ?_⟩
      have hget' : (run.setTurn turnId { turnId, runId, status := .started }).turns.get? batch.turnId =
        some turn := hget
      rw [ActiveRun.setTurn, OrdMap.get?_insert_ne _ _ hne.symm] at hget'
      exact ((hrun.completed batch hbatch).2 turn facts hget' hfacts call hcall).append [entry]
    · -- The turn before has shown its results, or no other could start.
      intro id facts hgen hqueued
      refine .inl fun call hcall => ShownIn.append ?_ [entry]
      exact answered_of_boundary hrunInv hrun hstarts.boundary (hgenOld id _ facts hgen)
        (hqueuedOld id hqueued) call hcall
    · intro id hqueued heq
      exact hfresh id (h.queued id (hqueuedOld id hqueued)) (Option.some.inj heq).symm
  | planned turnId runId fingerprint configRevision contextRevision toolsetRevision =>
    obtain ⟨run, turn, hactive, -, hturn, hget, -, -, -, -, -, rfl⟩ := planned_eq_ok.mp happly
    obtain ⟨hgenOld, hqueuedOld⟩ := hold rfl
    have hrun := h.run run hactive
    rintro b ⟨⟩
    exact hrun.of_turn _ hturn rfl (fun _ _ hget => hget) (fun _ hmem => hmem) (.inl hturn)
      (fun facts hgen => hrun.facts turnId facts (hgenOld _ _ _ hgen) turn hget)
      (fun id facts hgen => .inr (hgenOld _ _ _ hgen)) (fun id hqueued => .inl (hqueuedOld _ hqueued))
  | generationRequested turnId runId =>
    obtain ⟨run, turn, hactive, -, hturn, hget, -, -, rfl⟩ := generationRequested_eq_ok.mp happly
    obtain ⟨hgenOld, hqueuedOld⟩ := hold rfl
    have hrun := h.run run hactive
    rintro b ⟨⟩
    exact hrun.of_turn _ hturn rfl (fun _ _ hget => hget) (fun _ hmem => hmem) (.inl hturn)
      (fun facts hgen => hrun.facts turnId facts (hgenOld _ _ _ hgen) turn hget)
      (fun id facts hgen => .inr (hgenOld _ _ _ hgen)) (fun id hqueued => .inl (hqueuedOld _ hqueued))
  | generationCompleted turnId runId status facts =>
    obtain ⟨run, turn, hactive, hrunId, hturn, hget, hpending, context, -, -, -, rfl⟩ :=
      generationCompleted_ok happly
    have hrun := h.run run hactive
    have hunanswered : turn.facts = none := by
      obtain ⟨turn', hlast, hopen⟩ := (hinv.run run hactive).openTurn turnId hturn
      obtain rfl : turn = turn' := Option.some.inj (hget.symm.trans (OrdMap.get?_of_last? hlast))
      exact (hopen.unanswered (by simp [hpending])).1
    have hsettled : ∃ after, (run.settleTurn turnId turn status facts).turns =
        (run.setTurn turnId after).turns ∧ after.facts = some facts ∧
        (run.settleTurn turnId turn status facts).runId = run.runId ∧
        (run.settleTurn turnId turn status facts).completedToolBatches = run.completedToolBatches ∧
        (run.settleTurn turnId turn status facts).activeTurnId = run.activeTurnId := by
      unfold ActiveRun.settleTurn
      dsimp only
      split_ifs <;> exact ⟨_, rfl, rfl, rfl, rfl, rfl⟩
    obtain ⟨after, hturns, hafter, hsame, hcompleted, hopen⟩ := hsettled
    rintro b ⟨⟩
    refine hrun.of_turn after hturn hsame (fun id turn' hget => ?_) (fun batch hmem => ?_)
      (.inl (hopen.trans hturn)) (fun facts' hgen => ?_) (fun id facts' hgen => ?_)
      (fun id hqueued => .inl ?_)
    · rw [← hturns]
      exact hget
    · rw [← hcompleted]
      exact hmem
    · rcases generatedIn_append.mp hgen with hgen | ⟨status', heq⟩
      · rw [hrun.facts turnId facts' hgen turn hget] at hunanswered
        cases hunanswered
      · rw [hevent] at heq
        cases heq
        exact hafter
    · refine (generatedIn_append.mp hgen).symm.imp_left ?_
      rintro ⟨status', heq⟩
      rw [hevent] at heq
      cases heq
      rfl
    · refine (queuedIn_append.mp hqueued).resolve_right fun heq => ?_
      rw [hevent] at heq
      cases heq
  | completed turnId outcome =>
    obtain ⟨run, turn, hactive, hturn, hget, -, rfl⟩ := turnCompleted_eq_ok.mp happly
    have hrun := h.run run hactive
    have hgenOld : ∀ id runId facts, GeneratedIn (log ++ [entry]) id runId facts →
        GeneratedIn log id runId facts := by
      intro id runId facts hgen
      refine (generatedIn_append.mp hgen).resolve_right ?_
      rintro ⟨status, heq⟩
      rw [hevent] at heq
      cases heq
    rintro b ⟨⟩
    refine hrun.of_turn { turn with outcome := some outcome, status := outcome.status } hturn
      rfl (fun id turn' hget => get?_of_pruned hget) (fun batch hmem => ?_) (.inr rfl)
      (fun facts hgen => hrun.facts turnId facts (hgenOld _ _ _ hgen) turn hget)
      (fun id facts hgen => .inr (hgenOld _ _ _ hgen)) (fun id hqueued => ?_)
    · obtain ⟨batchId, hgetBatch⟩ := OrdMap.mem_values.mp hmem
      exact OrdMap.mem_values.mpr ⟨batchId, (get?_pruned_completed.mp hgetBatch).1⟩
    · refine (queuedIn_append.mp hqueued).imp_right fun heq => ?_
      rw [hevent] at heq
      cases heq
      obtain ⟨turn', hlast, -⟩ := (hinv.run run hactive).openTurn turnId hturn
      refine ⟨rfl, rfl, { turn with
        outcome := some .toolCallsQueued, status := TurnOutcome.toolCallsQueued.status }, ?_, rfl⟩
      rw [last?_pruneSettledRunRecords]
      exact OrdMap.last?_insert_last _ hlast
  | cancelled turnId runId =>
    obtain ⟨run, turn, hactive, -, -, hturn, hget, -, rfl⟩ := turnCancelled_eq_ok.mp happly
    obtain ⟨hgenOld, hqueuedOld⟩ := hold rfl
    have hrun := h.run run hactive
    rintro b ⟨⟩
    exact hrun.of_turn _ hturn rfl (fun _ _ hget => hget) (fun _ hmem => hmem) (.inr rfl)
      (fun facts hgen => hrun.facts turnId facts (hgenOld _ _ _ hgen) turn hget)
      (fun id facts hgen => .inr (hgenOld _ _ _ hgen)) (fun id hqueued => .inl (hqueuedOld _ hqueued))

/-- The batch that completes has shown the results of its turn. -/
theorem shownAnswers_closed {batchId : ToolBatchId} (hinv : Inv s) (hevent : entry.event.settlesTurn = false)
    (h : AnswersInv s log) (happly : applyToolEvent s (.batchCompleted runId turnId batchId) = .ok t) :
    t.ForActive fun run => run.Answers (log ++ [entry]) := by
  obtain ⟨run, batch, results, hactive, rfl, hid, -, hget, -, rfl, -, hresults, rfl⟩ :=
    batchCompleted_eq_ok.mp happly
  have hrun := h.run run hactive
  obtain ⟨batch', turn, facts, hget', -, -, -, hlast, -, hfacts, hcalls⟩ :=
    (hinv.run run hactive).openBatch batchId hid
  obtain rfl : batch = batch' := Option.mem_unique hget hget'
  have hidle : run.activeTurnId = none := by
    by_contra hturn
    have hnone := (hinv.run run hactive).openAlone hturn
    rw [hid] at hnone
    cases hnone
  have hshown : ∀ call ∈ facts.toolCalls,
      ShownIn (log ++ [entry]) run.runId batch.turnId call.callId := by
    intro call hcall
    rw [← hcalls] at hcall
    obtain ⟨state, hmem, rfl⟩ := List.mem_map.mp hcall
    obtain ⟨result, hsettled⟩ := exists_of_mapM hresults hmem
    exact ⟨log, [entry], s, rfl, h.replay, shown_of_settled hsettled⟩
  have hturns : ∀ id turn', (pruneSettledRunRecords (run.closeBatch
      ⟨batchId, run.runId, batch.turnId, results⟩)).turns.get? id = some turn' →
        run.turns.get? id = some turn' := by
    intro id turn' hkept
    have hclosed : (run.closeBatch ⟨batchId, run.runId, batch.turnId, results⟩).turns.get? id =
      some turn' := get?_of_pruned hkept
    exact hclosed
  rintro b ⟨⟩
  refine ⟨?_, ?_, ?_, ?_⟩
  · intro id facts' hgen turn' hturn'
    exact hrun.facts id facts' ((generatedIn_of_other hevent).mp hgen) turn' (hturns id turn' hturn')
  · intro other hother
    obtain ⟨otherId, hgetOther⟩ := OrdMap.mem_values.mp hother
    have hheld := (get?_pruned_completed.mp hgetOther).1
    rw [ActiveRun.closeBatch, OrdMap.get?_insert] at hheld
    split_ifs at hheld with heq
    · obtain rfl := Option.some.inj hheld
      refine ⟨fun hturn => ?_, fun turn' facts' hturn' hfacts' => ?_⟩
      · have hopen : run.activeTurnId = some batch.turnId := hturn
        rw [hidle] at hopen
        cases hopen
      · have hsame := (hturns _ turn' hturn').symm.trans (OrdMap.get?_of_last? hlast)
        obtain rfl := Option.some.inj hsame
        obtain rfl : facts = facts' := Option.mem_unique hfacts hfacts'
        exact hshown
    · obtain ⟨hnot, hold⟩ := hrun.completed other (OrdMap.mem_values.mpr ⟨otherId, hheld⟩)
      exact ⟨hnot, fun turn' facts' hturn' hfacts' call hcall =>
        (hold turn' facts' (hturns _ turn' hturn') hfacts' call hcall).append [entry]⟩
  · intro id facts' hgen hqueued
    rw [last?_pruneSettledRunRecords]
    exact (hrun.owed id facts' ((generatedIn_of_other hevent).mp hgen)
      ((queuedIn_of_other hevent).mp hqueued)).imp_left fun hold call hcall =>
        (hold call hcall).append [entry]
  · intro id hqueued
    exact hrun.ended id ((queuedIn_of_other hevent).mp hqueued)

theorem shownAnswers_step (h : AnswersInv s log) (htakes : Takes s entry)
    (happly : applyEvent s entry = .ok t) : t.ForActive fun run => run.Answers (log ++ [entry]) := by
  have hinv := htakes.inv
  by_cases hmoves : entry.event.counts = true ∨ entry.event.closesBatch = true
  swap
  · rw [not_or, Bool.not_eq_true, Bool.not_eq_true] at hmoves
    have hquiet : entry.event.settlesTurn = false := by
      cases hevent : entry.event with
      | turn event => rw [hevent] at hmoves; cases hmoves.1
      | _ => rfl
    intro b hb
    obtain ⟨a, ha, hab⟩ := unturned_step hinv.entries hmoves.1 hmoves.2 happly b hb
    exact (h.run a ha).of_same hquiet hab.runId hab.turns hab.turn hab.completed
  obtain ⟨-, m, hm, rfl⟩ := applyEvent_eq_ok.mp happly
  change m.ForActive fun run => run.Answers (log ++ [entry])
  cases hevent : entry.event with
  | turn event =>
    rw [applyEventKind, hevent] at hm
    exact shownAnswers_turn hinv htakes.plan hevent h hm
  | tool event =>
    have hquiet : entry.event.settlesTurn = false := by rw [hevent]; rfl
    rw [applyEventKind, hevent] at hm
    cases event with
    | batchCompleted runId turnId batchId => exact shownAnswers_closed hinv hquiet h hm
    | _ => rw [hevent] at hmoves; rcases hmoves with hmoves | hmoves <;> cases hmoves
  | context event =>
    have hquiet : entry.event.settlesTurn = false := by rw [hevent]; rfl
    rw [applyEventKind, hevent] at hm
    intro b hb
    obtain ⟨a, ha, hab⟩ := (applyContextEvent_frame hinv.entries hm).active b hb
    rw [hab.run]
    exact (h.run a ha).of_same hquiet rfl rfl rfl rfl
  | run event =>
    have hquiet : entry.event.settlesTurn = false := by rw [hevent]; rfl
    rw [applyEventKind, hevent] at hm
    cases event with
    | started startedId =>
      -- A run that starts has no turns yet, and the log says nothing of it.
      obtain ⟨-, -, queued, rest, hqueue, -, rfl⟩ := started_eq_ok.mp hm
      have hnone : ∀ turnId facts, ¬ GeneratedIn log turnId queued.runId facts := by
        intro turnId facts hgen
        exact (h.runId turnId _ facts hgen).waiting queued (hqueue ▸ List.mem_cons_self) rfl
      rintro b ⟨⟩
      refine ⟨fun turnId facts hgen => ?_, fun batch hbatch => ?_, fun turnId facts hgen => ?_,
        fun _ _ => by rintro ⟨⟩⟩
      · exact absurd ((generatedIn_of_other hquiet).mp hgen) (hnone turnId facts)
      · cases hbatch
      · exact absurd ((generatedIn_of_other hquiet).mp hgen) (hnone turnId facts)
    | _ => rw [hevent] at hmoves; rcases hmoves with hmoves | hmoves <;> cases hmoves
  | _ => rw [hevent] at hmoves; rcases hmoves with hmoves | hmoves <;> cases hmoves

/-- A generation that settles, and a turn that completes, are of the open turn of the active run. -/
theorem openTurn_of_settles (htakes : Takes s entry) (happly : applyEvent s entry = .ok t) :
    (∀ turnId runId status facts, entry.event = .turn (.generationCompleted turnId runId status facts) →
      turnId ≤ s.idCursors.lastTurnId ∧ ∃ run, s.runs.active = some run ∧ run.runId = runId) ∧
    ∀ turnId outcome, entry.event = .turn (.completed turnId outcome) →
      turnId ≤ s.idCursors.lastTurnId := by
  obtain ⟨-, m, hm, -⟩ := applyEvent_eq_ok.mp happly
  have hbound : ∀ run turnId turn, s.runs.active = some run → run.turns.get? turnId = some turn →
      turnId ≤ s.idCursors.lastTurnId := by
    intro run turnId turn hactive hget
    exact (htakes.inv.run run hactive).turnBound turnId (OrdMap.mem_keys.mpr ⟨turn, hget⟩)
  constructor
  · intro turnId runId status facts hevent
    rw [applyEventKind, hevent] at hm
    obtain ⟨run, turn, hactive, hrun, -, hget, -⟩ := generationCompleted_ok hm
    exact ⟨hbound run turnId turn hactive hget, run, hactive, hrun⟩
  · intro turnId outcome hevent
    rw [applyEventKind, hevent] at hm
    obtain ⟨run, turn, hactive, -, hget, -⟩ := turnCompleted_eq_ok.mp hm
    exact hbound run turnId turn hactive hget

theorem shownInv_step (h : AnswersInv s log) (htakes : Takes s entry)
    (happly : applyEvent s entry = .ok t) : AnswersInv t (log ++ [entry]) := by
  have hinv := htakes.inv
  have hle := lastTurnId_step hinv.entries happly
  obtain ⟨hgenerates, hcompletes⟩ := openTurn_of_settles htakes happly
  obtain ⟨base, input, hwarrant⟩ := htakes.warrant
  refine ⟨?_, ledger_step hinv h.ledger hwarrant happly, ?_, ?_, ?_, shownAnswers_step h htakes happly⟩
  · exact foldlM_append_eq_ok.mpr ⟨s, h.replay, foldlM_cons_eq_ok.mpr ⟨t, happly, rfl⟩⟩
  · intro turnId runId facts hgen
    rcases generatedIn_append.mp hgen with hgen | ⟨status, hevent⟩
    · exact (h.turnId turnId runId facts hgen).trans hle
    · exact (hgenerates turnId runId status facts hevent).1.trans hle
  · intro turnId hqueued
    rcases queuedIn_append.mp hqueued with hqueued | hevent
    · exact (h.queued turnId hqueued).trans hle
    · exact (hcompletes turnId _ hevent).trans hle
  · intro turnId runId facts hgen
    have hstarted : HasStarted s runId := by
      rcases generatedIn_append.mp hgen with hgen | ⟨status, hevent⟩
      · exact h.runId turnId runId facts hgen
      · obtain ⟨-, run, hactive, rfl⟩ := hgenerates turnId runId status facts hevent
        exact hasStarted_of_active h.ledger hactive
    exact (hasStarted_step hinv.entries hstarted happly).1

theorem shownInv_init : AnswersInv CoreAgentState.new [] where
  replay := rfl
  ledger := ledgerInv_init
  turnId := by
    rintro turnId runId facts ⟨entry, hmem, -⟩
    cases hmem
  queued := by
    rintro turnId ⟨entry, hmem, -⟩
    cases hmem
  runId := by
    rintro turnId runId facts ⟨entry, hmem, -⟩
    cases hmem
  run := by
    intro run hactive
    cases hactive

theorem takes_shown (hw : EventSource.Warranted applyEvent Takes CoreAgentState.new log)
    (h : log.foldlM applyEvent CoreAgentState.new = .ok s) : AnswersInv s log :=
  EventSource.Warranted.preserves (P := AnswersInv) []
    (fun _ _ _ _ hs htakes happly => shownInv_step hs htakes happly) hw h shownInv_init

/-! ## Runs that end at their limit -/

/-- The context that a log leads to holds a result of the call, or has held one that an event of the log has
taken out since. -/
def AnsweredIn (log : List CoreAgentEntry) (s : CoreAgentState) (runId : RunId) (turnId : TurnId)
    (callId : ToolCallId) : Prop :=
  ∃ front back w, log = front ++ back ∧ front.foldlM applyEvent CoreAgentState.new = .ok w ∧
    ∃ shown ∈ w.context.entries, shown.isResultOf runId turnId callId = true ∧
      ((∀ entry ∈ back, entry.event.removesEntry shown = false) →
        ∃ kept ∈ s.context.entries, kept.entryId = shown.entryId ∧
          kept.isResultOf runId turnId callId = true)

theorem isResultOf_of_stays {first last : ContextEntry} (h : first.Stays last) :
    last.isResultOf runId turnId callId = first.isResultOf runId turnId callId := by
  rw [ContextEntry.isResultOf, ContextEntry.isResultOf, ContextEntry.isToolOf, ContextEntry.isToolOf,
    h.kind, h.source]

/-- What a log has shown is still in context, unless the log took it out. -/
theorem ShownIn.answered (h : ShownIn log runId turnId callId)
    (hreplay : log.foldlM applyEvent CoreAgentState.new = .ok s)
    (hentries : ∀ front back w, log = front ++ back →
      front.foldlM applyEvent CoreAgentState.new = .ok w → EntriesInv w) :
    AnsweredIn log s runId turnId callId := by
  obtain ⟨front, back, w, rfl, hw, shown, hmem, hshown⟩ := h
  refine ⟨front, back, w, rfl, hw, shown, hmem, hshown, fun hkeeps => ?_⟩
  obtain ⟨w', hw', hback⟩ := foldlM_append_eq_ok.mp hreplay
  obtain rfl : w = w' := Except.ok.inj (hw.symm.trans hw')
  obtain ⟨kept, hkept, hstays⟩ :=
    entry_stays_list (hentries front back w rfl hw) hmem hkeeps hback
  exact ⟨kept, hkept, hstays.entryId, (isResultOf_of_stays hstays).trans hshown⟩

/-- A run that ends at its turn limit has the results of the calls that it queued. -/
theorem answered_of_limit (hw : EventSource.Warranted applyEvent Takes CoreAgentState.new (log ++ [entry]))
    {failure : RunFailure} (hevent : entry.event = .run (.failed runId failure))
    (hkind : failure.kind = .limitExceeded)
    (hreplay : log.foldlM applyEvent CoreAgentState.new = .ok s)
    (hgenerated : GeneratedIn log turnId runId facts) (hqueued : QueuedIn log turnId) :
    ∀ call ∈ facts.toolCalls, AnsweredIn log s runId turnId call.callId := by
  have hshown : AnswersInv s log := takes_shown hw.left hreplay
  have htakes : Takes s entry := EventSource.warranted_singleton.mp (hw.right hreplay)
  have hknew := htakes.plan
  rw [hevent] at hknew
  obtain ⟨run, hactive, rfl, hidle, -⟩ := hknew hkind
  have hrunInv := htakes.inv.run run hactive
  intro call hcall
  refine (answered_of_boundary hrunInv (hshown.run run hactive) hidle hgenerated hqueued call
    hcall).answered hreplay ?_
  rintro front back w rfl hfront
  exact EventSource.Warranted.preserves (P := fun s _ => EntriesInv s) []
    (fun _ _ _ _ _ htakes happly => applyEvent_entriesInv htakes.inv.entries happly) hw.left.left hfront
    inv_init.entries

/-- A run with a turn limit never starts more turns than that, and none is planned for it beyond the limit.
When it ends as `LimitExceeded`, the context holds a result of every call that one of its turns queued, or
held one that has been taken out since. The bound on the limit is the width of its field. -/
theorem turn_limit {limit : Nat} (h : Reachable sessionId s log) (hactive : s.runs.active = some run)
    (hlimit : effectiveMaxTurns s run.runConfig = some limit) (hbound : limit < u32Bound)
    (hlater : Reachable sessionId t (log ++ later)) :
    (∀ proposals, planNext t = .ok proposals →
      turnStarts (log ++ later) run.runId + plannedStarts proposals run.runId ≤ limit) ∧
    ∀ before entry after u failure, log ++ later = before ++ entry :: after →
      entry.event = .run (.failed run.runId failure) → failure.kind = .limitExceeded →
      before.foldlM applyEvent CoreAgentState.new = .ok u →
        ∀ turnId facts, GeneratedIn before turnId run.runId facts → QueuedIn before turnId →
          ∀ call ∈ facts.toolCalls, AnsweredIn before u run.runId turnId call.callId := by
  have hw := reachable_warranted hlater
  constructor
  · intro proposals hplan
    have hstart : LimitedRun run.runId limit s log :=
      limitedRun_of_active (takes_limited hw.left h.replay) hactive hlimit hbound
    obtain ⟨m, hm, hrest⟩ := foldlM_append_eq_ok.mp hlater.replay
    obtain rfl : s = m := Except.ok.inj (h.replay.symm.trans hm)
    have hend : LimitedRun run.runId limit t (log ++ later) :=
      EventSource.Warranted.preserves (P := LimitedRun run.runId limit) log
        (fun _ _ _ _ hs htakes happly => limitedRun_step hbound hs htakes happly) (hw.right h.replay)
        hrest hstart
    exact planned_within (reachable_inv hlater).1 (reachable_limitInv hlater) hend hbound hplan
  · intro before entry after u failure hlog hevent hkind hu turnId facts hgenerated hqueued
    rw [hlog, List.append_cons] at hw
    exact answered_of_limit hw.left hevent hkind hu hgenerated hqueued

/-- A run with one turn, which calls a tool. The session is asked to compact its context while the call
runs. -/
def squeezedRun : List (Nat × DriveInput) :=
  [(0, .admitCommand (.openSession sampleConfig)),
    (1, .admitCommand (.replaceTools none (OrdMap.ofList [("read_file", sampleReadTool)]))),
    (2, .admitCommand (.requestRun
      { source := ⟨[sampleMessage]⟩, runConfig := { maxTurns := some 1 } }))] ++
  planTurn 3 ++
  [(8, .resumeGeneration (sampleCalls 1 ["call"])), (9, .nextAction), (10, .nextAction),
    (11, .admitCommand .compactContext),
    (12, .resumeToolBatch ⟨1, 1, 1, [sampleResult "call" []]⟩), (13, .nextAction), (14, .nextAction),
    (15, .nextAction), (16, .nextAction),
    (17, .resumeContextCompaction { sampleSummary with contextRevision := 4 })]

/-- What the failure that a plan consists of says, if it does. -/
def plannedFailure (s : CoreAgentState) (ms : Nat) : Option (RunId × RunFailureKind) :=
  match proposeEntries "session" s (ms, .nextAction) with
  | .ok [entry] =>
    match entry.event with
    | .run (.failed runId failure) =>
      if (applyEvent s entry).toBool then some (runId, failure.kind) else none
    | _ => none
  | _ => none

theorem plannedFailure_spec {ms : Nat} {kind : RunFailureKind}
    (h : plannedFailure s ms = some (runId, kind)) : ∃ entry t failure,
      proposeEntries "session" s (ms, .nextAction) = .ok [entry] ∧ applyEvent s entry = .ok t ∧
        entry.event = .run (.failed runId failure) ∧ failure.kind = kind := by
  unfold plannedFailure at h
  split at h
  swap
  · cases h
  next entry hpropose =>
    split at h
    swap
    · cases h
    next id failure hevent =>
      split_ifs at h with happlies
      obtain ⟨rfl, rfl⟩ := Prod.mk.inj (Option.some.inj h)
      cases happly : applyEvent s entry with
      | error e => rw [happly] at happlies; cases happlies
      | ok t => exact ⟨entry, t, failure, hpropose, happly, hevent, rfl⟩

/-- Whether the run's one turn has asked for its call. -/
def asksForCall : CoreAgentEvent → Bool
  | .turn (.generationCompleted 1 1 _ facts) => facts.toolCalls.map ObservedToolCall.callId = ["call"]
  | _ => false

/-- The next thing that happens to the run is that it fails, over a context without the call's result. -/
theorem squeezedRun_ends : ∃ s log run t entry failure,
    Reachable "session" s log ∧ s.runs.active = some run ∧
      effectiveMaxTurns s run.runConfig = some 1 ∧ Reachable "session" t (log ++ [entry]) ∧
      entry.event = .run (.failed run.runId failure) ∧ failure.kind = .limitExceeded ∧
      (∃ facts, GeneratedIn log 1 run.runId facts ∧
        facts.toolCalls.map ObservedToolCall.callId = ["call"]) ∧
      QueuedIn log 1 ∧ ∀ e ∈ s.context.entries, e.isResultOf run.runId 1 "call" = false := by
  have hrun : ((drive "session").exec squeezedRun).bind (fun p => p.1.runs.active.map fun run =>
      (run.runId, effectiveMaxTurns p.1 run.runConfig, plannedFailure p.1 18)) =
        some (1, some 1, some (1, .limitExceeded)) := by
    decide +kernel
  have hcalls : ((drive "session").exec squeezedRun).map (fun p =>
      (p.2.any (fun entry => asksForCall entry.event),
      p.2.any (fun entry => decide (entry.event = .turn (.completed 1 .toolCallsQueued))),
      p.1.context.entries.all (fun e => !e.isResultOf 1 1 "call"))) = some (true, true, true) := by
    decide +kernel
  obtain ⟨⟨s, log⟩, hexec, hrun⟩ := Option.bind_eq_some_iff.mp hrun
  obtain ⟨run, hactive, hrun⟩ := Option.map_eq_some_iff.mp hrun
  simp only [Prod.mk.injEq] at hrun
  obtain ⟨hid, hlimit, hfailure⟩ := hrun
  obtain ⟨entry, t, failure, hpropose, happly, hevent, hkind⟩ := plannedFailure_spec hfailure
  rw [hexec, Option.map_some, Option.some_inj, Prod.mk.injEq, Prod.mk.injEq] at hcalls
  obtain ⟨hgenerated, hqueued, hgone⟩ := hcalls
  obtain ⟨generated, hmem, hmatches⟩ := List.any_eq_true.mp hgenerated
  obtain ⟨queued, hmemQueued, hcompleted⟩ := List.any_eq_true.mp hqueued
  have hcommit : [entry].foldlM applyEvent s = .ok t := foldlM_cons_eq_ok.mpr ⟨t, happly, rfl⟩
  have hreached : Reachable "session" s log := EventSource.exec_reaches hexec
  refine ⟨s, log, run, t, entry, failure, hreached, hactive, hlimit,
    .append hreached hpropose hcommit, hid ▸ hevent, hkind, ?_,
    ⟨queued, hmemQueued, of_decide_eq_true hcompleted⟩, ?_⟩
  · rw [hid]
    unfold asksForCall at hmatches
    split at hmatches
    next status facts hsettled =>
      exact ⟨facts, ⟨generated, hmem, status, hsettled⟩, of_decide_eq_true hmatches⟩
    · cases hmatches
  · intro e he
    rw [hid]
    simpa using List.all_eq_true.mp hgone e he

theorem turn_limit_squeezedRun : ∃ (s t : CoreAgentState) (log : List CoreAgentEntry) (run : ActiveRun)
    (entry : CoreAgentEntry) (failure : RunFailure) (facts : LlmGenerationFacts) (call : ObservedToolCall),
    s.runs.active = some run ∧ effectiveMaxTurns s run.runConfig = some 1 ∧
      Reachable "session" t (log ++ [entry]) ∧ entry.event = .run (.failed run.runId failure) ∧
      failure.kind = .limitExceeded ∧ call ∈ facts.toolCalls ∧
      AnsweredIn log s run.runId 1 call.callId ∧
      ∀ proposals, planNext t = .ok proposals →
        turnStarts (log ++ [entry]) run.runId + plannedStarts proposals run.runId ≤ 1 := by
  obtain ⟨s, log, run, t, entry, failure, hreached, hactive, hlimit, hlater, hevent, hkind,
    ⟨facts, hgenerated, hcalls⟩, hqueued, -⟩ := squeezedRun_ends
  have hlimited := turn_limit hreached hactive hlimit (by decide) hlater
  obtain ⟨call, hcall⟩ : ∃ call, call ∈ facts.toolCalls := by
    apply List.exists_mem_of_ne_nil
    rintro hnil
    rw [hnil] at hcalls
    cases hcalls
  have hanswered := hlimited.2 log entry [] s failure rfl hevent hkind hreached.replay 1 facts hgenerated
    hqueued call hcall
  exact ⟨s, t, log, run, entry, failure, facts, call, hactive, hlimit, hlater, hevent, hkind, hcall,
    hanswered, hlimited.1⟩

/-- A compaction that was asked for while a call ran comes before the failure, and takes the call's result
out of context. -/
theorem limited_run_without_result : ∃ (s t : CoreAgentState) (log : List CoreAgentEntry)
    (run : ActiveRun) (entry : CoreAgentEntry) (failure : RunFailure) (facts : LlmGenerationFacts)
    (call : ObservedToolCall),
    Reachable "session" s log ∧ s.runs.active = some run ∧
      effectiveMaxTurns s run.runConfig = some 1 ∧ Reachable "session" t (log ++ [entry]) ∧
      entry.event = .run (.failed run.runId failure) ∧ failure.kind = .limitExceeded ∧
      GeneratedIn log 1 run.runId facts ∧ QueuedIn log 1 ∧ call ∈ facts.toolCalls ∧
      ∀ e ∈ s.context.entries, e.isResultOf run.runId 1 call.callId = false := by
  obtain ⟨s, log, run, t, entry, failure, hreached, hactive, hlimit, hlater, hevent, hkind,
    ⟨facts, hgenerated, hcalls⟩, hqueued, hgone⟩ := squeezedRun_ends
  obtain ⟨call, hcall, hcallId⟩ : ∃ call ∈ facts.toolCalls, call.callId = "call" := by
    rw [← List.mem_map, hcalls, List.mem_singleton]
  rw [← hcallId] at hgone
  exact ⟨s, t, log, run, entry, failure, facts, call, hreached, hactive, hlimit, hlater, hevent, hkind,
    hgenerated, hqueued, hcall, hgone⟩

end Lightspeed.Harness
