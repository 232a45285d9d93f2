import Lightspeed.Harness.Compactions

/-!
# What a run counts

A run counts the turns it has started, the recoveries it has attempted since its last success, and its
one attempt at the entry guard. `counted_step` says that only turns and compactions move these counts or
the latest turn, and `unturned_step` that nothing else moves its turns but the end of a batch.
`turned_active` and `requested_active` say how the counts move, and `hasStarted_step` says that a run which
has left the queue never comes back to count afresh.
-/

namespace Lightspeed.Harness

open Lib

variable {s t : CoreAgentState} {entry : CoreAgentEntry} {log : List CoreAgentEntry} {runId : RunId}

/-- The same run, at the same counts and the same latest turn. -/
structure ActiveRun.Counted (a b : ActiveRun) : Prop where
  runId : b.runId = a.runId
  runConfig : b.runConfig = a.runConfig
  turnCount : b.turnCount = a.turnCount
  recovery : b.contextRecovery = a.contextRecovery
  guard : b.entryGuardAttempted = a.entryGuardAttempted
  latest : b.turns.last? = a.turns.last?

/-- The same run, at the same counts, turns and completed batches. -/
structure ActiveRun.Unturned (a b : ActiveRun) : Prop where
  runId : b.runId = a.runId
  runConfig : b.runConfig = a.runConfig
  turnCount : b.turnCount = a.turnCount
  recovery : b.contextRecovery = a.contextRecovery
  guard : b.entryGuardAttempted = a.entryGuardAttempted
  turns : b.turns = a.turns
  turn : b.activeTurnId = a.activeTurnId
  completed : b.completedToolBatches = a.completedToolBatches

theorem ActiveRun.Unturned.refl (run : ActiveRun) : run.Unturned run := by constructor <;> rfl

theorem ActiveRun.Unturned.counted {a b : ActiveRun} (h : a.Unturned b) : a.Counted b :=
  ⟨h.runId, h.runConfig, h.turnCount, h.recovery, h.guard, by rw [h.turns]⟩

theorem ActiveRun.Wrote.unturned {a b : ActiveRun} (h : a.Wrote b) : a.Unturned b := by
  rw [h.run]
  constructor <;> rfl

/-- Every active run of the second state is one of the first, at the same counts and turns. -/
def TurnsKept (s t : CoreAgentState) : Prop :=
  ∀ b, t.runs.active = some b → ∃ a, s.runs.active = some a ∧ a.Unturned b

/-- Every active run of the second state is one of the first, at the same counts. -/
def CountsKept (s t : CoreAgentState) : Prop :=
  ∀ b, t.runs.active = some b → ∃ a, s.runs.active = some a ∧ a.Counted b

theorem TurnsKept.counts (h : TurnsKept s t) : CountsKept s t := by
  intro b hb
  obtain ⟨a, ha, hab⟩ := h b hb
  exact ⟨a, ha, hab.counted⟩

theorem TurnsKept.of_runs (h : t.runs.active = s.runs.active) : TurnsKept s t :=
  fun b hb => ⟨b, h ▸ hb, .refl b⟩

theorem TurnsKept.of_active {run run' : ActiveRun} (hactive : s.runs.active = some run)
    (hactive' : t.runs.active = some run') (h : run.Unturned run') : TurnsKept s t := by
  intro b hb
  obtain rfl : run' = b := Option.mem_unique hactive' hb
  exact ⟨run, hactive, h⟩

theorem TurnsKept.of_none (h : t.runs.active = none) : TurnsKept s t := by
  intro b hb
  rw [h] at hb
  cases hb

/-- Whether an event may move a count, or the latest turn of a run. -/
def CoreAgentEvent.counts : CoreAgentEvent → Bool
  | .turn _ | .run (.started _) | .context (.compactionRequested _ _ _)
  | .context (.compactionFinished _ _ _ _ _) => true
  | _ => false

/-- Whether an event completes a batch. -/
def CoreAgentEvent.closesBatch : CoreAgentEvent → Bool
  | .tool (.batchCompleted _ _ _) => true
  | _ => false

theorem unturned_run {seq ms : Nat} {event : RunEvent}
    (hevent : (CoreAgentEvent.run event).counts = false)
    (h : applyRunEvent s seq ms event = .ok t) : TurnsKept s t := by
  cases applyRunEvent_moves h with
  | queues hqueues hsame => exact .of_runs hsame
  | starts => cases hevent
  | steers hactive | stops hactive => exact .of_active hactive rfl (by constructor <;> rfl)
  | ends => exact .of_none (by simp)

theorem unturned_approval {ms : Nat} {event : ApprovalEvent}
    (h : applyApprovalEvent s ms event = .ok t) : TurnsKept s t := by
  obtain ⟨run, run', hactive, hjudged, ht⟩ := applyApprovalEvent_moves h
  refine .of_active hactive (by rw [ht]; rfl) ?_
  rw [hjudged.run]
  constructor <;> rfl

theorem unturned_tool {event : ToolEvent} (hevent : (CoreAgentEvent.tool event).closesBatch = false)
    (h : applyToolEvent s event = .ok t) : TurnsKept s t := by
  cases applyToolEvent_moves h with
  | works cursor hworks hactive hrun =>
    refine .of_active hactive rfl ?_
    rw [hrun]
    constructor <;> rfl
  | parks hactive | unparks hactive => exact .of_active hactive rfl (by constructor <;> rfl)
  | completes => cases hevent

theorem unturned_context {event : ContextEvent} (hinv : EntriesInv s)
    (hevent : (CoreAgentEvent.context event).counts = false)
    (h : applyContextEvent s event = .ok t) : TurnsKept s t := by
  have hwrote : ∀ {entries u m}, EntriesInv u → applyEntriesApplied u entries = .ok m →
      u.runs.active = s.runs.active → TurnsKept s (bumpContextRevision m) := by
    intro entries u m hentries happly hu b hb
    obtain ⟨hframe, -⟩ := applyEntries_spec hentries (applyEntriesApplied_eq_ok.mp happly).2.2
    obtain ⟨a, ha, hab⟩ := hframe.active b hb
    exact ⟨a, hu ▸ ha, hab.unturned⟩
  cases event with
  | entriesApplied baseRevision entries =>
    obtain ⟨-, m, hm, rfl⟩ := entriesApplied_eq_ok.mp h
    exact hwrote hinv hm rfl
  | entriesRemoved baseRevision ids reason =>
    obtain ⟨-, -, -, -, -, rfl⟩ := entriesRemoved_eq_ok.mp h
    exact .of_runs rfl
  | keysRemoved baseRevision keys =>
    obtain ⟨-, -, -, rfl⟩ := keysRemoved_eq_ok.mp h
    obtain ⟨entries, heq, -⟩ := removeKeys_sublist keys s
    exact .of_runs (by rw [heq]; rfl)
  | keyPrefixReplaced baseRevision keyPrefix entries =>
    obtain ⟨-, -, -, m, hm, rfl⟩ := keyPrefixReplaced_eq_ok.mp h
    split_ifs at hm
    · cases hm
      exact .of_runs rfl
    · have hremoved : EntriesInv (removeContextEntriesByKeyPrefix s keyPrefix) :=
        hinv.of_sublist List.filter_sublist
      exact hwrote hremoved hm rfl
  | entriesReplaced baseRevision entries =>
    obtain ⟨-, -, -, -, rfl⟩ := entriesReplaced_eq_ok.mp h
    exact .of_runs rfl
  | compactionRequested baseRevision trigger plan => cases hevent
  | compactionQueued baseRevision =>
    obtain ⟨-, -, -, rfl⟩ := compactionQueued_eq_ok.mp h
    exact .of_runs rfl
  | compactionFinished baseRevision status failureRef usage calls => cases hevent

/-- Only turns, compactions, the start of a run and the end of a batch move turns and counts. -/
theorem unturned_step (hinv : EntriesInv s) (hevent : entry.event.counts = false)
    (hbatch : entry.event.closesBatch = false) (h : applyEvent s entry = .ok t) : TurnsKept s t := by
  obtain ⟨-, m, hm, rfl⟩ := applyEvent_eq_ok.mp h
  change TurnsKept s m
  cases applyEventKind_moves hm with
  | run heq hm => exact unturned_run (heq ▸ hevent) hm
  | approval heq hm => exact unturned_approval hm
  | turn heq => rw [heq] at hevent; cases hevent
  | context heq hm => exact unturned_context hinv (heq ▸ hevent) hm
  | tool heq hm => exact unturned_tool (heq ▸ hbatch) hm
  | rests hspares hruns => exact .of_runs (by rw [hruns])

/-- Only turns, compactions and the start of a run move what a run counts. -/
theorem counted_step (hinv : EntriesInv s) (hevent : entry.event.counts = false)
    (h : applyEvent s entry = .ok t) : CountsKept s t := by
  by_cases hbatch : entry.event.closesBatch = true
  swap
  · exact (unturned_step hinv hevent (by simpa using hbatch) h).counts
  obtain ⟨-, m, hm, rfl⟩ := applyEvent_eq_ok.mp h
  cases hkind : entry.event with
  | tool event =>
    rw [applyEventKind, hkind] at hm
    cases event with
    | batchCompleted runId turnId batchId =>
      obtain ⟨run, _, results, hactive, -, -, -, -, -, -, -, -, rfl⟩ := batchCompleted_eq_ok.mp hm
      rintro b ⟨⟩
      have hlatest := last?_pruneSettledRunRecords (run.closeBatch ⟨batchId, runId, turnId, results⟩)
      exact ⟨run, hactive, rfl, rfl, rfl, rfl, rfl, hlatest⟩
    | _ => rw [hkind] at hbatch; cases hbatch
  | _ => rw [hkind] at hbatch; cases hbatch

/-! ## What moves them -/

/-- Whether an event settles a generation that succeeded without an overflow. -/
def TurnEvent.succeeds : TurnEvent → Bool
  | .generationCompleted _ _ status facts => status == .succeeded && facts.finish != .contextLimit
  | _ => false

/-- Whether an event starts a turn. -/
def TurnEvent.starts : TurnEvent → Bool
  | .started _ _ => true
  | _ => false

/-- What an event of its turns does to the counts of a run. -/
structure ActiveRun.Turned (event : TurnEvent) (a b : ActiveRun) : Prop where
  runId : b.runId = a.runId
  runConfig : b.runConfig = a.runConfig
  turnCount : b.turnCount = if event.starts then saturatingAdd32 a.turnCount 1 else a.turnCount
  recovery : b.contextRecovery =
    if event.succeeds then { a.contextRecovery with attempts := 0 } else a.contextRecovery
  guard : b.entryGuardAttempted = a.entryGuardAttempted

theorem settleTurn_turned {run : ActiveRun} {turn : TurnState} {turnId : TurnId}
    {status : LlmGenerationStatus} {facts : LlmGenerationFacts} :
    run.Turned (.generationCompleted turnId runId status facts)
      ((run.settleTurn turnId turn status facts).chargeUsage facts.usage) := by
  unfold ActiveRun.settleTurn
  dsimp only
  by_cases hsucceeds : status = .succeeded ∧ facts.finish ≠ .contextLimit
  · rw [if_pos hsucceeds]
    refine ⟨rfl, rfl, rfl, ?_, rfl⟩
    rw [TurnEvent.succeeds, if_pos (by simpa using hsucceeds)]
    rfl
  · rw [if_neg hsucceeds]
    refine ⟨rfl, rfl, rfl, ?_, rfl⟩
    rw [TurnEvent.succeeds, if_neg (by simpa using hsucceeds)]
    rfl

/-- An event of a turn is one of the active run's, and moves its counts. -/
theorem turned_active {event : TurnEvent} (h : applyTurnEvent s event = .ok t) :
    ∃ a b, s.runs.active = some a ∧ t.runs.active = some b ∧ a.Turned event b := by
  cases event with
  | started turnId runId =>
    obtain ⟨run, hactive, -, -, -, -, rfl⟩ := turnStarted_eq_ok.mp h
    exact ⟨run, _, hactive, rfl, by constructor <;> rfl⟩
  | planned turnId runId fingerprint configRevision contextRevision toolsetRevision =>
    obtain ⟨run, turn, hactive, -, -, -, -, -, -, -, -, rfl⟩ := planned_eq_ok.mp h
    exact ⟨run, _, hactive, rfl, by constructor <;> rfl⟩
  | generationRequested turnId runId =>
    obtain ⟨run, turn, hactive, -, -, -, -, -, rfl⟩ := generationRequested_eq_ok.mp h
    exact ⟨run, _, hactive, rfl, by constructor <;> rfl⟩
  | generationCompleted turnId runId status facts =>
    obtain ⟨run, turn, hactive, -, -, -, -, context, -, -, -, rfl⟩ := generationCompleted_ok h
    exact ⟨run, _, hactive, rfl, settleTurn_turned⟩
  | completed turnId outcome =>
    obtain ⟨run, turn, hactive, -, -, -, rfl⟩ := turnCompleted_eq_ok.mp h
    exact ⟨run, _, hactive, rfl, by constructor <;> rfl⟩
  | cancelled turnId runId =>
    obtain ⟨run, turn, hactive, -, -, -, -, -, rfl⟩ := turnCancelled_eq_ok.mp h
    exact ⟨run, _, hactive, rfl, by constructor <;> rfl⟩

/-- A compaction that is asked for is recorded on the active run, and changes no entry. -/
theorem requested_active {baseRevision : Nat} {trigger : ContextCompactionTrigger}
    {plan : ContextCompactionPlan}
    (h : applyContextEvent s (.compactionRequested baseRevision trigger plan) = .ok t) :
    t.runs.active = s.runs.active.map (recordCompactionAttempt s trigger) ∧
      t.context.entries = s.context.entries := by
  obtain ⟨-, -, -, -, -, -, rfl⟩ := compactionRequested_eq_ok.mp h
  exact ⟨rfl, rfl⟩

/-- The recoveries of a run once a compaction is asked for: one more where its latest turn overflowed. -/
def ActiveRun.recoveryRequested (run : ActiveRun) : ContextRecoveryState :=
  match run.latestTurn with
  | some turn =>
    if turn.hitContextLimit then ⟨run.contextRecovery.attempts + 1, some turn.turnId⟩
    else run.contextRecovery
  | none => run.contextRecovery

theorem recordCompactionAttempt_eq (s : CoreAgentState) (trigger : ContextCompactionTrigger)
    (run : ActiveRun) : recordCompactionAttempt s trigger run = { run with
      contextRecovery := run.recoveryRequested
      entryGuardAttempted := run.entryGuardAttempted ||
        decide (trigger = .highWatermark ∧ entryGuardLimit ≤ s.context.entries.length) } := by
  unfold recordCompactionAttempt ActiveRun.recoveryRequested
  by_cases hguard : trigger = .highWatermark ∧ entryGuardLimit ≤ s.context.entries.length
  · rw [decide_eq_true hguard, Bool.or_true]
    dsimp only
    rw [if_pos hguard]
    cases run.latestTurn with
    | none => rfl
    | some turn => cases hlimit : turn.hitContextLimit <;> simp only [hlimit] <;> rfl
  · rw [decide_eq_false hguard, Bool.or_false]
    dsimp only
    rw [if_neg hguard]
    cases run.latestTurn with
    | none => rfl
    | some turn => cases hlimit : turn.hitContextLimit <;> simp only [hlimit] <;> rfl

@[simp]
theorem recordCompactionAttempt_runId (s : CoreAgentState) (trigger : ContextCompactionTrigger)
    (run : ActiveRun) : (recordCompactionAttempt s trigger run).runId = run.runId := by
  rw [recordCompactionAttempt_eq]

/-- Turn ids only move up. -/
theorem lastTurnId_step (hinv : EntriesInv s) (happly : applyEvent s entry = .ok t) :
    s.idCursors.lastTurnId ≤ t.idCursors.lastTurnId := by
  obtain ⟨-, m, hm, rfl⟩ := applyEvent_eq_ok.mp happly
  change s.idCursors.lastTurnId ≤ m.idCursors.lastTurnId
  cases applyEventKind_moves hm with
  | run heq hm => rw [applyRunEvent_frame hm]
  | approval heq hm =>
    obtain ⟨_, _, -, -, ht⟩ := applyApprovalEvent_moves hm
    rw [ht]
  | turn heq hm =>
    cases applyTurnEvent_moves hm with
    | starts => exact Nat.le_succ _
    | writes | completes | cancels => exact le_rfl
  | context heq hm => rw [(applyContextEvent_frame hinv hm).cursors]
  | tool heq hm =>
    obtain ⟨_, _, -, -, ht⟩ := applyToolEvent_frame hm
    rw [ht]
  | rests hspares hruns hcontext hcursors => rw [hcursors]

/-! ## Runs that have left the queue -/

/-- The run has left the queue, and no run is accepted under its id again. -/
structure HasStarted (s : CoreAgentState) (runId : RunId) : Prop where
  bound : runId ≤ s.idCursors.lastRunId
  waiting : ∀ queued ∈ s.runs.queued, queued.runId ≠ runId

theorem hasStarted_of_active {run : ActiveRun} (h : LedgerInv s log)
    (hactive : s.runs.active = some run) : HasStarted s run.runId where
  bound := by
    refine (h.runs.bound run.runId ?_).2
    rw [RunsState.rows, hactive]
    exact List.mem_cons_self
  waiting := fun queued hqueued => (h.runs.head run hactive queued hqueued).ne'

theorem HasStarted.of_queued (h : HasStarted s runId)
    (hlast : t.idCursors.lastRunId = s.idCursors.lastRunId)
    (hqueued : ∀ queued ∈ t.runs.queued, queued ∈ s.runs.queued) : HasStarted t runId where
  bound := hlast ▸ h.bound
  waiting := fun queued hmem => h.waiting queued (hqueued queued hmem)

theorem hasStarted_run {seq ms : Nat} {event : RunEvent} (h : HasStarted s runId)
    (happly : applyRunEvent s seq ms event = .ok t) :
    HasStarted t runId ∧ ∀ b, t.runs.active = some b → b.runId = runId →
      ∃ a, s.runs.active = some a ∧ a.runId = runId := by
  cases applyRunEvent_moves happly with
  | queues hqueues hactive =>
    refine ⟨?_, fun b hb heq => ⟨b, hactive ▸ hb, heq⟩⟩
    cases event with
    | accepted accepted =>
      obtain ⟨-, -, -, hid, rfl⟩ := accepted_eq_ok.mp happly
      have hnew : runId < accepted.runId := hid ▸ Nat.lt_succ_of_le h.bound
      refine ⟨hnew.le, fun queued hqueued => ?_⟩
      rcases List.mem_append.mp hqueued with hqueued | hqueued
      · exact h.waiting queued hqueued
      · rw [List.mem_singleton.mp hqueued]
        exact hnew.ne'
    | queuedCancelled _ =>
      obtain ⟨queued, -, rfl⟩ := queuedCancelled_eq_ok.mp happly
      refine h.of_queued rfl fun other hother => ?_
      change other ∈ (pruneTerminalRunRecords _).queued at hother
      rw [pruneTerminalRunRecords_queued] at hother
      exact List.eraseP_subset hother
    | _ => cases hqueues
  | @starts queued _ hfree hqueue =>
    refine ⟨h.of_queued rfl fun other hother => hqueue ▸ List.mem_cons_of_mem _ hother, ?_⟩
    rintro _ ⟨⟩ heq
    exact absurd heq (h.waiting queued (hqueue ▸ List.mem_cons_self))
  | @steers run _ _ _ hactive | @stops run hactive =>
    refine ⟨h.of_queued rfl fun _ hmem => hmem, ?_⟩
    rintro _ ⟨⟩ heq
    exact ⟨run, hactive, heq⟩
  | ends =>
    refine ⟨h.of_queued rfl fun queued hqueued => ?_, fun b hb => ?_⟩
    · rwa [finishRun_runs, pruneTerminalRunRecords_queued] at hqueued
    · simp at hb

/-- A run that has left the queue stays out of it, and is active only where it was. -/
theorem hasStarted_step (hinv : EntriesInv s) (h : HasStarted s runId)
    (happly : applyEvent s entry = .ok t) :
    HasStarted t runId ∧ ∀ b, t.runs.active = some b → b.runId = runId →
      ∃ a, s.runs.active = some a ∧ a.runId = runId := by
  cases hrun : entry.event.isRun with
  | false =>
    have hframe := applyEvent_runsFrame hinv hrun happly
    refine ⟨h.of_queued hframe.lastRunId fun queued hmem => hframe.queued ▸ hmem, fun b hb heq => ?_⟩
    obtain ⟨a, ha, hab⟩ := hframe.active b hb
    exact ⟨a, ha, hab.runId ▸ heq⟩
  | true =>
    obtain ⟨-, m, hm, rfl⟩ := applyEvent_eq_ok.mp happly
    cases hevent : entry.event with
    | run event =>
      rw [applyEventKind, hevent] at hm
      obtain ⟨hkept, hactive⟩ := hasStarted_run h hm
      exact ⟨⟨hkept.bound, hkept.waiting⟩, hactive⟩
    | _ => rw [hevent] at hrun; cases hrun

end Lightspeed.Harness
