import Lightspeed.Harness.Scanned

/-!
# The invariant of an active run

What holds of the run in the active slot between any two events: its latest turn is the only one that
can be open or owe a batch, it has at most one open batch and that batch belongs to its latest turn,
a call has a result exactly when it is terminal, and every id it holds was counted out by a cursor.
Each lemma is one kind of event.
-/

namespace Lightspeed.Harness

open Lib

/-- A call waits without a result, or is terminal with its own. -/
structure CallInv (call : ToolCallState) : Prop where
  waiting : call.status.isTerminal = false → call.result = none
  settled : call.status.isTerminal = true → ∃ result, call.result = some result ∧
    result.callId = call.call.callId ∧ result.status = call.status

/-- The calls of a batch have distinct ids. -/
structure CallsInv (calls : List ToolCallState) : Prop where
  distinct : (calls.map (fun call => call.call.callId)).Nodup
  call : ∀ call ∈ calls, CallInv call

/-- Whether a turn still has a generation ahead of it. -/
def TurnStatus.isOpen : TurnStatus → Bool
  | .started | .planned | .generationPending | .generationSettled => true
  | _ => false

/-- A turn that is open: planned, unless it has just started, against the current toolset. -/
structure OpenTurn (revision : Nat) (turn : TurnState) : Prop where
  status : turn.status.isOpen = true
  unplanned : turn.status = .started → turn.plannedRequest = none
  planned : turn.status ≠ .started → ∃ planned, turn.plannedRequest = some planned ∧
    planned.toolsetRevision = revision
  unanswered : turn.status ≠ .generationSettled → turn.facts = none ∧ turn.generationStatus = none

/-- A turn that queued calls: it was planned, and its calls are a usable set. -/
structure QueuedTurn (turn : TurnState) (facts : LlmGenerationFacts)
    (planned : PlannedRequestState) : Prop where
  hasFacts : turn.facts = some facts
  hasPlan : turn.plannedRequest = some planned
  calls : facts.toolCalls ≠ []
  distinct : (facts.toolCalls.map ObservedToolCall.callId).Nodup

/-- The invariant of the active run, under the session's cursors and its toolset revision. -/
structure RunInv (cursors : IdCursors) (revision : Nat) (run : ActiveRun) : Prop where
  status : run.status = .running ∨ run.status = .parked ∨ run.status = .cancelling
  input : ∀ input ∈ run.source.input, input.kind.isSupplied = true
  turnBound : ∀ id ∈ run.turns.keys, id ≤ cursors.lastTurnId
  openTurn : ∀ id, run.activeTurnId = some id →
    ∃ turn, run.turns.last? = some (id, turn) ∧ OpenTurn revision turn
  openAlone : run.activeTurnId ≠ none → run.activeToolBatchId = none
  endedTurn : ∀ id turn, run.turns.get? id = some turn → run.activeTurnId ≠ some id →
    ∃ outcome, turn.outcome = some outcome ∧ turn.status = outcome.status
  queuedTurn : ∀ id turn, run.turns.get? id = some turn → run.activeTurnId ≠ some id →
    turn.outcome = some .toolCallsQueued → ∃ facts planned, QueuedTurn turn facts planned ∧
      (run.hasBatchOf id = true ∨
        (run.turns.last? = some (id, turn) ∧ planned.toolsetRevision = revision))
  openBatch : ∀ id, run.activeToolBatchId = some id → ∃ batch turn facts,
    run.toolBatches.get? id = some batch ∧ batch.batchId = id ∧ batch.runId = run.runId ∧
      CallsInv batch.calls ∧ run.turns.last? = some (batch.turnId, turn) ∧
      turn.outcome = some .toolCallsQueued ∧ turn.facts = some facts ∧
      batch.calls.map (fun call => call.call) = facts.toolCalls
  batchOnly : ∀ id ∈ run.toolBatches.keys, run.activeToolBatchId = some id
  batchBound : ∀ id ∈ run.toolBatches.keys, id ≤ cursors.lastToolBatchId
  completedBound : ∀ id ∈ run.completedToolBatches.keys, id ≤ cursors.lastToolBatchId
  completedBelow : ∀ id ∈ run.completedToolBatches.keys, ∀ open_ ∈ run.toolBatches.keys, id < open_
  completedTurn : ∀ batch ∈ run.completedToolBatches.values, batch.turnId ≤ cursors.lastTurnId
  completedLast : ∀ id turn, run.turns.last? = some (id, turn) →
    (∃ batch ∈ run.completedToolBatches.values, batch.turnId = id) →
    ∃ batchId batch, run.completedToolBatches.last? = some (batchId, batch) ∧ batch.turnId = id
  parked : ∀ parked, run.parkedToolBatch = some parked →
    run.activeToolBatchId = some parked.batchId
  approvals : ∀ id record, run.approvals.get? id = some record →
    record.request.approvalId = id ∧ record.request.runId = run.runId
  steeringSorted : (run.steering.map SteeringBatch.steeringId).Pairwise (· < ·)
  steeringBound : ∀ id ∈ run.steering.map SteeringBatch.steeringId, id ≤ cursors.lastSteeringId

variable {cursors cursors' : IdCursors} {revision : Nat} {run : ActiveRun} {turn : TurnState}
  {turnId : TurnId} {batch : ActiveToolBatch}

/-! ## Reading the invariant -/

/-- Cursors only move up. -/
structure IdCursors.Le (a b : IdCursors) : Prop where
  turn : a.lastTurnId ≤ b.lastTurnId
  batch : a.lastToolBatchId ≤ b.lastToolBatchId
  steering : a.lastSteeringId ≤ b.lastSteeringId

theorem RunInv.mono (h : RunInv cursors revision run) (hle : cursors.Le cursors') :
    RunInv cursors' revision run :=
  { h with
    turnBound := fun id hid => (h.turnBound id hid).trans hle.turn
    batchBound := fun id hid => (h.batchBound id hid).trans hle.batch
    completedBound := fun id hid => (h.completedBound id hid).trans hle.batch
    completedTurn := fun batch hbatch => (h.completedTurn batch hbatch).trans hle.turn
    steeringBound := fun id hid => (h.steeringBound id hid).trans hle.steering }

/-- Whether a run holds a batch of a turn. -/
theorem hasBatchOf_iff :
    run.hasBatchOf turnId = true ↔
      (∃ batch ∈ run.toolBatches.values, batch.turnId = turnId) ∨
        ∃ batch ∈ run.completedToolBatches.values, batch.turnId = turnId := by
  simp [ActiveRun.hasBatchOf]

/-- The latest turn owes a batch when it queued calls and no batch of it stands. -/
theorem RunInv.hasUnstarted_iff (h : RunInv cursors revision run)
    (hturn : run.activeTurnId = none) :
    hasUnstartedToolCallTurn run = true ↔ ∃ id turn, run.turns.last? = some (id, turn) ∧
      turn.outcome = some .toolCallsQueued ∧ run.hasBatchOf id = false := by
  unfold hasUnstartedToolCallTurn
  cases hlast : run.turns.last? with
  | none => simp
  | some e =>
    obtain ⟨id, turn⟩ := e
    have hget := (OrdMap.last?_eq_some_iff.mp hlast).1
    simp only [Option.any_some, Bool.and_eq_true, beq_iff_eq, Option.some.injEq,
      Prod.mk.injEq, Bool.not_eq_eq_eq_not, Bool.not_true]
    constructor
    · rintro ⟨⟨⟨⟨-, houtcome⟩, -⟩, hopen⟩, hcompleted⟩
      refine ⟨id, turn, ⟨rfl, rfl⟩, houtcome, ?_⟩
      rw [← Bool.not_eq_true, hasBatchOf_iff, not_or]
      constructor
      · rintro ⟨batch, hmem, heq⟩
        simp only [List.any_eq_false, beq_iff_eq] at hopen
        exact hopen batch hmem heq
      · intro hbatch
        obtain ⟨batchId, batch, hlastBatch, heq⟩ := h.completedLast id turn hlast hbatch
        rw [hlastBatch] at hcompleted
        simp [heq] at hcompleted
    · rintro ⟨_, _, ⟨rfl, rfl⟩, houtcome, hbatch⟩
      have hended := h.endedTurn id turn hget (by simp [hturn])
      obtain ⟨facts, planned, hqueued, -⟩ := h.queuedTurn id turn hget (by simp [hturn]) houtcome
      obtain ⟨outcome, houtcome', hstatus⟩ := hended
      obtain rfl : TurnOutcome.toolCallsQueued = outcome :=
        Option.mem_unique houtcome houtcome'
      rw [← Bool.not_eq_true, hasBatchOf_iff, not_or] at hbatch
      refine ⟨⟨⟨⟨hstatus, houtcome⟩, ?_⟩, ?_⟩, ?_⟩
      · simp [hqueued.hasFacts, hqueued.calls]
      · rw [List.any_eq_false]
        exact fun batch hmem heq => hbatch.1 ⟨batch, hmem, by simpa using heq⟩
      · cases hlastBatch : run.completedToolBatches.last? with
        | none => rfl
        | some e =>
          obtain ⟨batchId, batch⟩ := e
          have hmem : batch ∈ run.completedToolBatches.values :=
            OrdMap.mem_values.mpr ⟨batchId, (OrdMap.last?_eq_some_iff.mp hlastBatch).1⟩
          simp only [Option.any_some, beq_eq_false_iff_ne]
          exact fun heq => hbatch.2 ⟨batch, hmem, heq⟩

/-- At a boundary, every turn that queued calls has a batch. -/
theorem RunInv.hasBatchOf_of_boundary (h : RunInv cursors revision run) (hidle : run.AtBoundary)
    {id : TurnId} (hget : run.turns.get? id = some turn)
    (houtcome : turn.outcome = some .toolCallsQueued) : run.hasBatchOf id = true := by
  obtain ⟨facts, planned, -, hbatch | ⟨hlast, -⟩⟩ :=
    h.queuedTurn id turn hget (by simp [hidle.turn]) houtcome
  · exact hbatch
  · by_contra hnone
    have hunstarted := (h.hasUnstarted_iff hidle.turn).mpr
      ⟨id, turn, hlast, houtcome, by simpa using hnone⟩
    rw [hidle.started] at hunstarted
    cases hunstarted

/-! ## The run -/

theorem RunInv.start {queued : AcceptedRun} {ms : Nat}
    (hinput : ∀ input ∈ queued.source.input, input.kind.isSupplied = true) :
    RunInv cursors revision (queued.start ms) where
  status := .inl rfl
  input := hinput
  turnBound := by rintro id ⟨⟩
  openTurn := by rintro id ⟨⟩
  openAlone := fun _ => rfl
  endedTurn := by rintro id turn ⟨⟩
  queuedTurn := by rintro id turn ⟨⟩
  openBatch := by rintro id ⟨⟩
  batchOnly := by rintro id ⟨⟩
  batchBound := by rintro id ⟨⟩
  completedBound := by rintro id ⟨⟩
  completedBelow := by rintro id ⟨⟩
  completedTurn := by rintro batch ⟨⟩
  completedLast := by rintro id turn ⟨⟩
  parked := by rintro parked ⟨⟩
  approvals := by rintro id record ⟨⟩
  steeringSorted := .nil
  steeringBound := by rintro id ⟨⟩

theorem RunInv.withStatus (h : RunInv cursors revision run) {status : RunStatus}
    (hstatus : status = .running ∨ status = .parked ∨ status = .cancelling) :
    RunInv cursors revision { run with status := status } :=
  { h with status := hstatus }

theorem RunInv.steer (h : RunInv cursors revision run) {batch : SteeringBatch}
    (hid : batch.steeringId = cursors.lastSteeringId + 1) :
    RunInv { cursors with lastSteeringId := batch.steeringId } revision
      { run with steering := run.steering ++ [batch] } := by
  refine { h with steeringSorted := ?_, steeringBound := ?_ }
  · rw [List.map_append, List.pairwise_append]
    refine ⟨h.steeringSorted, by simp, fun id hmem id' hid' => ?_⟩
    rw [List.map_singleton, List.mem_singleton, hid] at hid'
    exact hid' ▸ Nat.lt_succ_of_le (h.steeringBound id hmem)
  · intro id hmem
    rw [List.map_append, List.mem_append] at hmem
    rcases hmem with hmem | hmem
    · exact (h.steeringBound id hmem).trans (hid ▸ Nat.le_succ _)
    · simp only [List.map_cons, List.map_nil, List.mem_singleton] at hmem
      exact hmem.le

theorem RunInv.insertApproval (h : RunInv cursors revision run) {record : ApprovalRecord}
    (hrun : record.request.runId = run.runId) :
    RunInv cursors revision
      { run with approvals := run.approvals.insert record.request.approvalId record } := by
  refine { h with approvals := fun id record' hget => ?_ }
  simp only [OrdMap.get?_insert] at hget
  split_ifs at hget with hid
  · cases hget
    exact ⟨hid, hrun⟩
  · exact h.approvals id record' hget

/-! ## Turns -/

/-- A turn starts at a boundary, behind every other turn. -/
theorem RunInv.startTurn (h : RunInv cursors revision run) (hidle : run.AtBoundary)
    (hid : turnId = cursors.lastTurnId + 1) {runId : RunId} {count : Nat} :
    RunInv { cursors with lastTurnId := turnId } revision
      { run.setTurn turnId { turnId, runId, status := .started } with
        turnCount := count, activeTurnId := some turnId } := by
  have hlt : ∀ id ∈ run.turns.keys, id < turnId := fun id hmem =>
    hid ▸ Nat.lt_succ_of_le (h.turnBound id hmem)
  have hlast := OrdMap.last?_insert_of_lt
    ({ turnId, runId, status := .started } : TurnState) hlt
  have hold : ∀ id turn, (run.setTurn turnId { turnId, runId, status := .started }).turns.get? id =
      some turn → some turnId ≠ some id → run.turns.get? id = some turn := by
    intro id turn hget hne
    rwa [ActiveRun.setTurn, OrdMap.get?_insert_ne _ _ fun heq => hne (congrArg some heq)] at hget
  refine { h with
    turnBound := ?_, openTurn := ?_, openAlone := fun _ => hidle.batch, endedTurn := ?_
    queuedTurn := ?_, completedTurn := ?_, completedLast := ?_
    openBatch := fun id hactive => absurd (hidle.batch.symm.trans hactive) (by simp) }
  · intro id hmem
    rcases OrdMap.mem_keys_insert.mp hmem with rfl | hmem
    · exact le_rfl
    · exact (hlt id hmem).le
  · rintro id ⟨⟩
    exact ⟨_, hlast, ⟨rfl, fun _ => rfl, fun hne => absurd rfl hne, fun _ => ⟨rfl, rfl⟩⟩⟩
  · intro id turn hget hne
    exact h.endedTurn id turn (hold id turn hget hne) (by simp [hidle.turn])
  · intro id turn hget hne houtcome
    have hget := hold id turn hget hne
    obtain ⟨facts, planned, hqueued, -⟩ :=
      h.queuedTurn id turn hget (by simp [hidle.turn]) houtcome
    exact ⟨facts, planned, hqueued, .inl (h.hasBatchOf_of_boundary hidle hget houtcome)⟩
  · exact fun batch hbatch => (h.completedTurn batch hbatch).trans (hid ▸ Nat.le_succ _)
  · rintro id turn hlast' ⟨batch, hbatch, heq⟩
    obtain ⟨rfl, -⟩ : turnId = id ∧ _ = turn := by
      simpa using Option.mem_unique hlast hlast'
    have hle := h.completedTurn batch hbatch
    rw [heq, hid] at hle
    exact absurd hle (Nat.not_succ_le_self _)

/-- The open turn moves on, and stays open. -/
theorem RunInv.setOpenTurn (h : RunInv cursors revision run) (hid : run.activeTurnId = some turnId)
    (hopen : OpenTurn revision turn) : RunInv cursors revision (run.setTurn turnId turn) := by
  obtain ⟨old, hlast, -⟩ := h.openTurn turnId hid
  have hlast' := OrdMap.last?_insert_last turn hlast
  have hold : ∀ id turn', (run.setTurn turnId turn).turns.get? id = some turn' →
      run.activeTurnId ≠ some id → run.turns.get? id = some turn' := by
    intro id turn' hget hne
    rwa [ActiveRun.setTurn, OrdMap.get?_insert_ne _ _ fun heq => hne (hid.trans (by rw [heq]))]
      at hget
  have hbatch : run.activeToolBatchId = none := h.openAlone (by simp [hid])
  refine { h with
    turnBound := ?_, openTurn := ?_, endedTurn := ?_, queuedTurn := ?_, completedLast := ?_
    openBatch := fun id hactive => absurd (hbatch.symm.trans hactive) (by simp) }
  · intro id hmem
    rcases OrdMap.mem_keys_insert.mp hmem with rfl | hmem
    · exact h.turnBound id (OrdMap.mem_keys.mpr ⟨old, OrdMap.get?_of_last? hlast⟩)
    · exact h.turnBound id hmem
  · intro id hactive
    obtain rfl : turnId = id := Option.mem_unique hid hactive
    exact ⟨turn, hlast', hopen⟩
  · exact fun id turn' hget hne => h.endedTurn id turn' (hold id turn' hget hne) hne
  · intro id turn' hget hne houtcome
    have hget := hold id turn' hget hne
    obtain ⟨facts, planned, hqueued, hbatch | ⟨hlastId, -⟩⟩ := h.queuedTurn id turn' hget hne houtcome
    · exact ⟨facts, planned, hqueued, .inl hbatch⟩
    · obtain ⟨rfl, -⟩ : turnId = id ∧ old = turn' := by
        simpa using Option.mem_unique hlast hlastId
      exact absurd hid hne
  · intro id turn' hlastId hcompleted
    obtain ⟨rfl, -⟩ : turnId = id ∧ turn = turn' := by
      simpa using Option.mem_unique hlast' hlastId
    exact h.completedLast turnId old hlast hcompleted

/-- The open turn ends. One that queued calls has them on record, a usable set. -/
theorem RunInv.endTurn (h : RunInv cursors revision run) (outcome : TurnOutcome)
    (hid : run.activeTurnId = some turnId) (hget : run.turns.get? turnId = some turn)
    (hcalls : outcome = .toolCallsQueued → turn.status ≠ .started ∧ ∃ facts,
      turn.facts = some facts ∧ facts.toolCalls ≠ [] ∧
        (facts.toolCalls.map ObservedToolCall.callId).Nodup) :
    RunInv cursors revision { run.setTurn turnId
        { turn with outcome := some outcome, status := outcome.status } with
      activeTurnId := none } := by
  obtain ⟨_, hlast, hopen⟩ := h.openTurn turnId hid
  obtain rfl : turn = _ := Option.some.inj (hget.symm.trans (OrdMap.get?_of_last? hlast))
  let ended : TurnState := { turn with outcome := some outcome, status := outcome.status }
  have hlast' := OrdMap.last?_insert_last ended hlast
  have hbatch : run.activeToolBatchId = none := h.openAlone (by simp [hid])
  have hold : ∀ id turn', (run.setTurn turnId ended).turns.get? id = some turn' →
      (turnId = id ∧ turn' = ended) ∨ (run.turns.get? id = some turn' ∧
        run.activeTurnId ≠ some id) := by
    intro id turn' hget'
    rw [ActiveRun.setTurn, OrdMap.get?_insert] at hget'
    split_ifs at hget' with heq
    · exact .inl ⟨heq, (Option.some.inj hget').symm⟩
    · refine .inr ⟨hget', fun hactive => heq ?_⟩
      exact Option.mem_unique hid hactive
  refine { h with
    turnBound := ?_, openTurn := by rintro id ⟨⟩, openAlone := fun hne => absurd rfl hne
    endedTurn := ?_, queuedTurn := ?_, completedLast := ?_
    openBatch := fun id hactive => absurd (hbatch.symm.trans hactive) (by simp) }
  · intro id hmem
    rcases OrdMap.mem_keys_insert.mp hmem with rfl | hmem
    · exact h.turnBound id (OrdMap.mem_keys.mpr ⟨turn, hget⟩)
    · exact h.turnBound id hmem
  · intro id turn' hget' _
    rcases hold id turn' hget' with ⟨rfl, rfl⟩ | ⟨hget', hne⟩
    · exact ⟨outcome, rfl, rfl⟩
    · exact h.endedTurn id turn' hget' hne
  · intro id turn' hget' _ houtcome
    rcases hold id turn' hget' with ⟨rfl, rfl⟩ | ⟨hget', hne⟩
    · obtain ⟨hstarted, facts, hfacts, hnonempty, hdistinct⟩ := hcalls (Option.some.inj houtcome)
      obtain ⟨planned, hplanned, hrevision⟩ := hopen.planned hstarted
      exact ⟨facts, planned, ⟨hfacts, hplanned, hnonempty, hdistinct⟩, .inr ⟨hlast', hrevision⟩⟩
    · obtain ⟨facts, planned, hqueued, hbatch | ⟨hlastId, -⟩⟩ :=
        h.queuedTurn id turn' hget' hne houtcome
      · exact ⟨facts, planned, hqueued, .inl hbatch⟩
      · obtain ⟨rfl, -⟩ : turnId = id ∧ turn = turn' := by
          simpa using Option.mem_unique hlast hlastId
        exact absurd hid hne
  · intro id turn' hlastId hcompleted
    obtain ⟨rfl, -⟩ : turnId = id ∧ ended = turn' := by
      simpa using Option.mem_unique hlast' hlastId
    exact h.completedLast turnId turn hlast hcompleted

/-! ## Pruning -/

theorem pruneSteering_sublist (n : Nat) (steering : List SteeringBatch) :
    (pruneSteering n steering).Sublist steering := by
  induction steering generalizing n with
  | nil => cases n <;> exact .slnil
  | cons batch rest ih =>
    cases n with
    | zero => exact .refl _
    | succ n =>
      rw [pruneSteering]
      split_ifs
      · exact (ih n).cons_cons batch
      · exact (ih n).cons batch

/-- Pruning keeps the latest turn, and the turns of open batches. -/
theorem last?_pruneSettledRunRecords (run : ActiveRun) :
    (pruneSettledRunRecords run).turns.last? = run.turns.last? := by
  cases hlast : run.turns.last? with
  | none =>
    have hnil := OrdMap.last?_eq_none_iff.mp hlast
    simp [pruneSettledRunRecords, pruneTerminalApprovals, OrdMap.last?, OrdMap.filter, hnil]
  | some e =>
    obtain ⟨id, turn⟩ := e
    exact OrdMap.last?_filter_of_last hlast (by simp [hlast])

/-- A turn that pruning keeps was there. -/
theorem get?_of_pruned {id : TurnId} (h : (pruneSettledRunRecords run).turns.get? id = some turn) :
    run.turns.get? id = some turn := by
  simp only [pruneSettledRunRecords, pruneTerminalApprovals, OrdMap.get?_filter,
    Option.filter_eq_some_iff] at h
  exact h.1

/-- A completed batch stays while its turn does. -/
theorem get?_pruned_completed {id : ToolBatchId} {batch : CompletedToolBatch} :
    (pruneSettledRunRecords run).completedToolBatches.get? id = some batch ↔
      run.completedToolBatches.get? id = some batch ∧
        (pruneSettledRunRecords run).turns.contains batch.turnId = true := by
  simp only [pruneSettledRunRecords, pruneTerminalApprovals, OrdMap.get?_filter,
    Option.filter_eq_some_iff]

theorem RunInv.prune (h : RunInv cursors revision run) :
    RunInv cursors revision (pruneSettledRunRecords run) := by
  have hlast := last?_pruneSettledRunRecords run
  have hcompleted : ∀ batch ∈ (pruneSettledRunRecords run).completedToolBatches.values,
      batch ∈ run.completedToolBatches.values := by
    intro batch hbatch
    obtain ⟨id, hget⟩ := OrdMap.mem_values.mp hbatch
    exact OrdMap.mem_values.mpr ⟨id, (get?_pruned_completed.mp hget).1⟩
  refine { h with
    turnBound := fun id hid => h.turnBound id (OrdMap.mem_keys_filter hid)
    openTurn := ?_, endedTurn := ?_, queuedTurn := ?_, openBatch := ?_
    completedBound := fun id hid => h.completedBound id (OrdMap.mem_keys_filter hid)
    completedBelow := fun id hid => h.completedBelow id (OrdMap.mem_keys_filter hid)
    completedTurn := fun batch hbatch => h.completedTurn batch (hcompleted batch hbatch)
    completedLast := ?_, approvals := ?_
    steeringSorted := h.steeringSorted.sublist ((pruneSteering_sublist _ _).map _)
    steeringBound := fun id hid =>
      h.steeringBound id (((pruneSteering_sublist _ _).map _).subset hid) }
  · intro id hactive
    rw [hlast]
    exact h.openTurn id hactive
  · exact fun id turn hget => h.endedTurn id turn (get?_of_pruned hget)
  · intro id turn hget hne houtcome
    obtain ⟨facts, planned, hqueued, hbatch⟩ :=
      h.queuedTurn id turn (get?_of_pruned hget) hne houtcome
    refine ⟨facts, planned, hqueued, ?_⟩
    rw [hlast]
    refine hbatch.imp_left fun hbatch => ?_
    rcases hasBatchOf_iff.mp hbatch with hopen | ⟨batch, hmem, rfl⟩
    · exact hasBatchOf_iff.mpr (.inl hopen)
    · obtain ⟨batchId, hgetBatch⟩ := OrdMap.mem_values.mp hmem
      refine hasBatchOf_iff.mpr (.inr ⟨batch, OrdMap.mem_values.mpr ⟨batchId, ?_⟩, rfl⟩)
      exact get?_pruned_completed.mpr ⟨hgetBatch, OrdMap.contains_iff.mpr ⟨turn, hget⟩⟩
  · intro id hactive
    obtain ⟨batch, turn, facts, hbatch⟩ := h.openBatch id hactive
    refine ⟨batch, turn, facts, ?_⟩
    rw [hlast]
    exact hbatch
  · rintro id turn hlastId ⟨batch, hmem, heq⟩
    have hkept : (pruneSettledRunRecords run).turns.contains id = true :=
      OrdMap.contains_iff.mpr ⟨turn, OrdMap.get?_of_last? hlastId⟩
    rw [hlast] at hlastId
    obtain ⟨batchId, last, hlastBatch, hturn⟩ :=
      h.completedLast id turn hlastId ⟨batch, hcompleted batch hmem, heq⟩
    refine ⟨batchId, last, OrdMap.last?_filter_of_last hlastBatch ?_, hturn⟩
    rw [hturn]
    exact hkept
  · intro id record hget
    simp only [pruneSettledRunRecords, pruneTerminalApprovals, OrdMap.get?_filter,
      Option.filter_eq_some_iff] at hget
    exact h.approvals id record hget.1

/-! ## Batches -/

/-- A turn that queued calls and has no batch is the latest one, and no turn is open. -/
theorem RunInv.latest_of_unstarted (h : RunInv cursors revision run)
    (hget : run.turns.get? turnId = some turn) (hstatus : turn.status = .completed)
    (houtcome : turn.outcome = some .toolCallsQueued) (hbatch : run.hasBatchOf turnId = false) :
    run.turns.last? = some (turnId, turn) ∧ run.activeTurnId = none := by
  have hne : run.activeTurnId ≠ some turnId := by
    intro hactive
    obtain ⟨_, hlast, hopen⟩ := h.openTurn turnId hactive
    obtain rfl : turn = _ := Option.some.inj (hget.symm.trans (OrdMap.get?_of_last? hlast))
    have := hopen.status
    rw [hstatus] at this
    cases this
  obtain ⟨facts, planned, -, hhas | ⟨hlast, -⟩⟩ := h.queuedTurn turnId turn hget hne houtcome
  · rw [hbatch] at hhas
    cases hhas
  · refine ⟨hlast, ?_⟩
    cases hactive : run.activeTurnId with
    | none => rfl
    | some id =>
      obtain ⟨_, hlastId, -⟩ := h.openTurn id hactive
      obtain ⟨rfl, -⟩ : turnId = id ∧ turn = _ := by
        simpa using Option.mem_unique hlast hlastId
      exact absurd hactive hne

/-- A run without an active batch holds none. -/
theorem RunInv.toolBatches_of_none (h : RunInv cursors revision run)
    (hbatch : run.activeToolBatchId = none) : run.toolBatches.keys = [] := by
  refine List.eq_nil_iff_forall_not_mem.mpr fun id hid => ?_
  have := h.batchOnly id hid
  rw [hbatch] at this
  cases this

/-- Only the active batch is parked. -/
theorem RunInv.parked_of_not_parkedOn (h : RunInv cursors revision run) {batchId : ToolBatchId}
    (hid : run.activeToolBatchId = some batchId) (hparked : run.isParkedOn batchId = false) :
    run.parkedToolBatch = none := by
  cases hpark : run.parkedToolBatch with
  | none => rfl
  | some parked =>
    have hbatch : parked.batchId = batchId :=
      Option.some.inj ((h.parked parked hpark).symm.trans hid)
    simp [ActiveRun.isParkedOn, hpark, hbatch] at hparked

theorem initialToolCallState_call (s : CoreAgentState) (turnId : TurnId) (call : ObservedToolCall) :
    (initialToolCallState s turnId call).call = call := by
  unfold initialToolCallState
  split_ifs <;> rfl

theorem initialToolCallState_inv (s : CoreAgentState) (turnId : TurnId) (call : ObservedToolCall) :
    CallInv (initialToolCallState s turnId call) := by
  unfold initialToolCallState
  split_ifs
  · exact ⟨fun _ => rfl, fun hterminal => by cases hterminal⟩
  · exact ⟨fun hopen => absurd hopen (by simp [ToolCallStatus.isTerminal]),
      fun _ => ⟨_, rfl, rfl, rfl⟩⟩

/-- The calls of a batch that opens are the turn's, each waiting or already answered. -/
theorem openBatch_calls (s : CoreAgentState) (runId : RunId) (turnId : TurnId)
    (batchId : ToolBatchId) {calls : List ObservedToolCall}
    (hdistinct : (calls.map ObservedToolCall.callId).Nodup) :
    (openBatch s runId turnId batchId calls).calls.map (fun call => call.call) = calls ∧
      CallsInv (openBatch s runId turnId batchId calls).calls := by
  have hcalls : (openBatch s runId turnId batchId calls).calls.map (fun call => call.call) =
      calls := by
    simp [openBatch, Function.comp_def, initialToolCallState_call]
  refine ⟨hcalls, ⟨?_, ?_⟩⟩
  · have hids := congrArg (List.map ObservedToolCall.callId) hcalls
    rw [List.map_map] at hids
    exact hids ▸ hdistinct
  · intro call hcall
    obtain ⟨observed, -, rfl⟩ := List.mem_map.mp hcall
    exact initialToolCallState_inv s turnId observed

/-- The latest turn opens its batch, above every other. -/
theorem RunInv.startBatch (h : RunInv cursors revision run) {facts : LlmGenerationFacts}
    (hrun : batch.runId = run.runId) (hcalls : CallsInv batch.calls)
    (hlast : run.turns.last? = some (batch.turnId, turn)) (hturn : run.activeTurnId = none)
    (houtcome : turn.outcome = some .toolCallsQueued) (hfacts : turn.facts = some facts)
    (hobserved : batch.calls.map (fun call => call.call) = facts.toolCalls)
    (hnone : run.activeToolBatchId = none) (hid : batch.batchId = cursors.lastToolBatchId + 1) :
    RunInv { cursors with lastToolBatchId := batch.batchId } revision { run with
      toolBatches := run.toolBatches.insert batch.batchId batch
      activeToolBatchId := some batch.batchId } := by
  have hempty := h.toolBatches_of_none hnone
  have hkeys : ∀ id ∈ (run.toolBatches.insert batch.batchId batch).keys, id = batch.batchId := by
    intro id hmem
    rcases OrdMap.mem_keys_insert.mp hmem with heq | hmem
    · exact heq
    · rw [hempty] at hmem
      cases hmem
  have hcompleted : ∀ id ∈ run.completedToolBatches.keys, id < batch.batchId := fun id hmem =>
    hid ▸ Nat.lt_succ_of_le (h.completedBound id hmem)
  refine { h with
    openAlone := fun hne => absurd hturn hne
    queuedTurn := ?_, openBatch := ?_
    batchOnly := fun id hmem => congrArg some (hkeys id hmem).symm
    batchBound := fun id hmem => (hkeys id hmem).le
    completedBound := fun id hmem => (hcompleted id hmem).le
    completedBelow := fun id hmem open_ hopen => (hkeys open_ hopen).symm ▸ hcompleted id hmem
    parked := fun parked hparked => absurd (hnone.symm.trans (h.parked parked hparked)) (by simp) }
  · intro id turn' hget hne houtcome'
    obtain ⟨facts', planned, hqueued, hbatch⟩ := h.queuedTurn id turn' hget hne houtcome'
    refine ⟨facts', planned, hqueued, hbatch.imp_left fun hbatch => ?_⟩
    rcases hasBatchOf_iff.mp hbatch with ⟨other, hmem, -⟩ | hcompleted'
    · obtain ⟨otherId, hother⟩ := OrdMap.mem_values.mp hmem
      have := OrdMap.mem_keys.mpr ⟨other, hother⟩
      rw [hempty] at this
      cases this
    · exact hasBatchOf_iff.mpr (.inr hcompleted')
  · rintro id ⟨⟩
    exact ⟨batch, turn, facts, OrdMap.get?_insert_self _ _ _, rfl, hrun, hcalls, hlast, houtcome,
      hfacts, hobserved⟩

/-- The batches of a run whose batch has other calls are still of the same turns. -/
theorem hasBatchOf_setBatchCalls (run : ActiveRun) (batchId : ToolBatchId)
    (calls : List ToolCallState) (turnId : TurnId) :
    (setBatchCalls run batchId calls).hasBatchOf turnId = run.hasBatchOf turnId := by
  have hturn : ∀ e : ToolBatchId × ActiveToolBatch,
      (if e.1 = batchId then { e.2 with calls } else e.2).turnId = e.2.turnId := by
    intro e
    split_ifs <;> rfl
  simp [ActiveRun.hasBatchOf, setBatchCalls, OrdMap.modify, OrdMap.mapValues, OrdMap.values,
    List.any_map, Function.comp_def, hturn]

/-- The calls of the active batch move on. -/
theorem RunInv.updateBatch (h : RunInv cursors revision run) {batchId : ToolBatchId}
    {calls : List ToolCallState} (hid : run.activeToolBatchId = some batchId)
    (hget : run.toolBatches.get? batchId = some batch) (hcalls : CallsInv calls)
    (hobserved : calls.map (fun call => call.call) = batch.calls.map (fun call => call.call)) :
    RunInv cursors revision (setBatchCalls run batchId calls) := by
  have hkeys : (setBatchCalls run batchId calls).toolBatches.keys = run.toolBatches.keys :=
    OrdMap.keys_modify _ _ _
  refine { h with
    queuedTurn := ?_, openBatch := ?_
    batchOnly := fun id hmem => h.batchOnly id (hkeys ▸ hmem)
    batchBound := fun id hmem => h.batchBound id (hkeys ▸ hmem)
    completedBelow := fun id hmem open_ hopen => h.completedBelow id hmem open_ (hkeys ▸ hopen) }
  · intro id turn hget' hne houtcome
    obtain ⟨facts, planned, hqueued, hbatch⟩ := h.queuedTurn id turn hget' hne houtcome
    refine ⟨facts, planned, hqueued, ?_⟩
    rwa [hasBatchOf_setBatchCalls]
  · intro id hactive
    obtain rfl : batchId = id := Option.mem_unique hid hactive
    obtain ⟨old, turn, facts, hold, hbatchId, hrun, -, hlast, houtcome, hfacts, hcalls'⟩ :=
      h.openBatch batchId hid
    obtain rfl : batch = old := Option.mem_unique hget hold
    refine ⟨{ batch with calls }, turn, facts, ?_, hbatchId, hrun, hcalls, hlast, houtcome, hfacts,
      hobserved.trans hcalls'⟩
    simp [setBatchCalls, OrdMap.get?_modify, hget]

/-- One call of a batch moves on. -/
theorem updateCall_inv {callId : ToolCallId} {f : ToolCallState → Result ToolCallState}
    {missing : DomainError} {calls calls' : List ToolCallState} (hinv : CallsInv calls)
    (hf : ∀ call ∈ calls, ∀ call', call.call.callId = callId → f call = .ok call' → CallInv call →
      call'.call = call.call ∧ CallInv call')
    (h : updateCall callId f missing calls = .ok calls') :
    calls'.map (fun call => call.call) = calls.map (fun call => call.call) ∧ CallsInv calls' := by
  have hmain : calls'.map (fun call => call.call) = calls.map (fun call => call.call) ∧
      ∀ call ∈ calls', CallInv call := by
    have hcall := hinv.call
    clear hinv
    induction calls generalizing calls' with
    | nil => cases h
    | cons call rest ih =>
      rw [updateCall] at h
      by_cases heq : call.call.callId = callId
      · rw [if_pos heq] at h
        obtain ⟨call', hcall', rfl⟩ := by simpa only [bind_eq_ok, Except.ok.injEq] using h
        obtain ⟨hsame, hinv'⟩ :=
          hf call List.mem_cons_self call' heq hcall' (hcall call List.mem_cons_self)
        refine ⟨by simp [hsame], fun c hc => ?_⟩
        rcases List.mem_cons.mp hc with rfl | hc
        · exact hinv'
        · exact hcall c (List.mem_cons_of_mem _ hc)
      · rw [if_neg heq] at h
        obtain ⟨rest', hrest, rfl⟩ := by simpa only [bind_eq_ok, Except.ok.injEq] using h
        obtain ⟨hsame, hinv'⟩ := ih (fun c hc => hf c (List.mem_cons_of_mem _ hc)) hrest
          fun c hc => hcall c (List.mem_cons_of_mem _ hc)
        refine ⟨by simp [hsame], fun c hc => ?_⟩
        rcases List.mem_cons.mp hc with rfl | hc
        · exact hcall c List.mem_cons_self
        · exact hinv' c hc
  refine ⟨hmain.1, ⟨?_, hmain.2⟩⟩
  have hids := congrArg (List.map ObservedToolCall.callId) hmain.1
  rw [List.map_map, List.map_map] at hids
  exact hids ▸ hinv.distinct

theorem startCall_inv {toolName : ToolName} {argumentsRef : BlobRef} {call call' : ToolCallState}
    (h : startCall toolName argumentsRef call = .ok call') :
    call'.call = call.call ∧ CallInv call' := by
  simp only [startCall, bind_eq_ok, require_eq_ok, exists_unit, Except.ok.injEq,
    Option.isNone_iff_eq_none] at h
  obtain ⟨-, hresult, -, rfl⟩ := h
  exact ⟨rfl, ⟨fun _ => hresult, fun hterminal => by cases hterminal⟩⟩

theorem completeCall_inv {result : ToolCallResult} {call call' : ToolCallState}
    (hid : call.call.callId = result.callId)
    (hstatus : result.status = .succeeded ∨ result.status = .failed ∨ result.status = .cancelled)
    (h : completeCall result call = .ok call') : call'.call = call.call ∧ CallInv call' := by
  simp only [completeCall, bind_eq_ok, require_eq_ok, exists_unit, Except.ok.injEq] at h
  obtain ⟨-, -, rfl⟩ := h
  refine ⟨rfl, ⟨fun hopen => ?_, fun _ => ⟨result, rfl, hid.symm, rfl⟩⟩⟩
  rcases hstatus with hstatus | hstatus | hstatus <;> rw [hstatus] at hopen <;> cases hopen

/-- The active batch parks, or the one that was parked runs again. -/
theorem RunInv.withParked (h : RunInv cursors revision run) {status : RunStatus}
    {parked : Option ParkedToolBatch}
    (hstatus : status = .running ∨ status = .parked ∨ status = .cancelling)
    (hparked : ∀ p, parked = some p → run.activeToolBatchId = some p.batchId) :
    RunInv cursors revision { run with parkedToolBatch := parked, status := status } :=
  { h with status := hstatus, parked := hparked }

/-- The active batch completes. -/
theorem RunInv.closeBatch (h : RunInv cursors revision run) {completed : CompletedToolBatch}
    (hid : run.activeToolBatchId = some completed.batchId)
    (hget : run.toolBatches.get? completed.batchId = some batch)
    (hturn : batch.turnId = completed.turnId) (hparked : run.isParkedOn completed.batchId = false) :
    RunInv cursors revision (run.closeBatch completed) := by
  obtain ⟨old, turn, facts, hold, -, -, -, hlast, -⟩ := h.openBatch _ hid
  obtain rfl : batch = old := Option.mem_unique hget hold
  rw [hturn] at hlast
  have hopen : completed.batchId ∈ run.toolBatches.keys := OrdMap.mem_keys.mpr ⟨batch, hget⟩
  have hlt : ∀ id ∈ run.completedToolBatches.keys, id < completed.batchId := fun id hmem =>
    h.completedBelow id hmem _ hopen
  have hkeys : (run.closeBatch completed).toolBatches.keys = [] := by
    refine List.eq_nil_iff_forall_not_mem.mpr fun id hmem => ?_
    obtain ⟨other, hother⟩ := OrdMap.mem_keys.mp hmem
    simp only [ActiveRun.closeBatch, OrdMap.get?_erase] at hother
    split_ifs at hother with hne
    have := h.batchOnly id (OrdMap.mem_keys.mpr ⟨other, hother⟩)
    exact hne (Option.mem_unique this hid)
  have hvalues : ∀ b, b ∈ (run.closeBatch completed).completedToolBatches.values ↔
      b = completed ∨ b ∈ run.completedToolBatches.values := by
    intro b
    simp only [ActiveRun.closeBatch, OrdMap.values,
      OrdMap.insert_entries_of_lt completed hlt, List.map_append, List.mem_append]
    simp [or_comm]
  have hactive : run.activeTurnId = none := by
    by_contra hne
    rw [h.openAlone hne] at hid
    cases hid
  have hnone := h.parked_of_not_parkedOn hid hparked
  refine { h with
    openAlone := fun _ => rfl
    queuedTurn := ?_
    openBatch := by rintro id ⟨⟩
    batchOnly := fun id hmem => by rw [hkeys] at hmem; cases hmem
    batchBound := fun id hmem => by rw [hkeys] at hmem; cases hmem
    completedBound := ?_
    completedBelow := fun id _ open_ hmem => by rw [hkeys] at hmem; cases hmem
    completedTurn := ?_
    completedLast := ?_
    parked := fun parked hpark => absurd (hnone.symm.trans hpark) (by simp) }
  · intro id turn' hget' hne houtcome
    obtain ⟨facts', planned, hqueued, hbatch⟩ := h.queuedTurn id turn' hget' hne houtcome
    refine ⟨facts', planned, hqueued, hbatch.imp_left fun hbatch => ?_⟩
    rcases hasBatchOf_iff.mp hbatch with ⟨other, hmem, rfl⟩ | ⟨other, hmem, heq⟩
    · obtain ⟨otherId, hother⟩ := OrdMap.mem_values.mp hmem
      have hactiveId := h.batchOnly otherId (OrdMap.mem_keys.mpr ⟨other, hother⟩)
      obtain rfl : completed.batchId = otherId := Option.mem_unique hid hactiveId
      obtain rfl : batch = other := Option.mem_unique hget hother
      exact hasBatchOf_iff.mpr (.inr ⟨completed, (hvalues _).mpr (.inl rfl), hturn.symm⟩)
    · exact hasBatchOf_iff.mpr (.inr ⟨other, (hvalues _).mpr (.inr hmem), heq⟩)
  · intro id hmem
    rcases OrdMap.mem_keys_insert.mp hmem with rfl | hmem
    · exact h.batchBound _ hopen
    · exact h.completedBound id hmem
  · intro b hb
    rcases (hvalues b).mp hb with rfl | hb
    · exact h.turnBound _ (OrdMap.mem_keys.mpr ⟨turn, OrdMap.get?_of_last? hlast⟩)
    · exact h.completedTurn b hb
  · intro id turn' hlastId _
    obtain ⟨hidEq, -⟩ : completed.turnId = id ∧ turn = turn' := by
      simpa using Option.mem_unique hlast hlastId
    exact ⟨_, completed, OrdMap.last?_insert_of_lt completed hlt, hidEq⟩

/-! ## Input, steering and tools -/

/-- Writing input down and consuming steering keeps the steering batches that there are. -/
theorem RunInv.withSteering (h : RunInv cursors revision run) {steering : List SteeringBatch}
    (hids : steering.map SteeringBatch.steeringId = run.steering.map SteeringBatch.steeringId) :
    RunInv cursors revision { run with steering } :=
  { h with
    steeringSorted := by rw [hids]; exact h.steeringSorted
    steeringBound := by rw [hids]; exact h.steeringBound }

/-- The toolset may change while no turn and no batch depends on it. -/
theorem RunInv.withRevision (h : RunInv cursors revision run) (hidle : run.AtBoundary)
    (revision' : Nat) : RunInv cursors revision' run := by
  refine { h with
    openTurn := fun id hactive => absurd (hidle.turn.symm.trans hactive) (by simp)
    queuedTurn := fun id turn hget hne houtcome => ?_ }
  obtain ⟨facts, planned, hqueued, -⟩ := h.queuedTurn id turn hget hne houtcome
  exact ⟨facts, planned, hqueued, .inl (h.hasBatchOf_of_boundary hidle hget houtcome)⟩

end Lightspeed.Harness
