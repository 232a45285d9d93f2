import Lightspeed.Harness.Ledger

/-!
# The ends of runs

Every run ends at most once, in the active slot or in the queue, and is held nowhere but in the records
from then on. `trace_preserves` is the induction for what holds in the runs of a session whose steps all
meet a condition: each warranted event keeps it, in a state whose ledger and endings are in order.
-/

namespace Lightspeed.Harness

open Lib

variable {sessionId : SessionId} {base s t : CoreAgentState} {input : DriveInput}
  {entry : CoreAgentEntry} {log entries : List CoreAgentEntry}

/-- The run that an event ends, in the active slot or in the queue. -/
def CoreAgentEvent.endedRunId : CoreAgentEvent → Option RunId
  | .run (.queuedCancelled runId) => some runId
  | event => event.terminalRunId

/-- The runs that a log ends, in order. -/
def endedRunIds (log : List CoreAgentEntry) : List RunId :=
  log.filterMap fun entry => entry.event.endedRunId

theorem mem_endedRunIds {runId : RunId} :
    runId ∈ endedRunIds log ↔ ∃ entry ∈ log, entry.event.endedRunId = some runId := by
  simp [endedRunIds]

theorem endedRunId_of_terminal {event : CoreAgentEvent} {runId : RunId}
    (h : event.terminalRunId = some runId) : event.endedRunId = some runId := by
  unfold CoreAgentEvent.endedRunId
  split
  · cases h
  · exact h

theorem endedRunIds_snoc (log : List CoreAgentEntry) (entry : CoreAgentEntry) :
    endedRunIds (log ++ [entry]) = endedRunIds log ++ entry.event.endedRunId.toList := by
  cases hended : entry.event.endedRunId <;> simp [endedRunIds, hended]

/-- A run that has ended is neither active nor queued, and no run ends twice. -/
structure EndedInv (s : CoreAgentState) (log : List CoreAgentEntry) : Prop where
  bound : ∀ id ∈ endedRunIds log, id ≤ s.idCursors.lastRunId
  active : ∀ id ∈ endedRunIds log, ∀ run, s.runs.active = some run → run.runId ≠ id
  queued : ∀ id ∈ endedRunIds log, ∀ queued ∈ s.runs.queued, queued.runId ≠ id
  once : (endedRunIds log).Nodup

theorem endedInv_init : EndedInv CoreAgentState.new [] := ⟨nofun, nofun, nofun, .nil⟩

/-- An event that ends no run, and brings none back. -/
theorem EndedInv.of_same (h : EndedInv s log) (hended : entry.event.endedRunId = none)
    (hlast : s.idCursors.lastRunId ≤ t.idCursors.lastRunId)
    (hactive : ∀ run', t.runs.active = some run' → (∃ run, s.runs.active = some run ∧
      run'.runId = run.runId) ∨ ∃ queued ∈ s.runs.queued, run'.runId = queued.runId)
    (hqueued : ∀ queued ∈ t.runs.queued, queued ∈ s.runs.queued ∨
      s.idCursors.lastRunId < queued.runId) : EndedInv t (log ++ [entry]) := by
  have hsame : endedRunIds (log ++ [entry]) = endedRunIds log := by
    rw [endedRunIds_snoc, hended, Option.toList_none, List.append_nil]
  refine ⟨?_, ?_, ?_, ?_⟩ <;> rw [hsame]
  · exact fun id hid => (h.bound id hid).trans hlast
  · intro id hid run' hrun'
    rcases hactive run' hrun' with ⟨run, hrun, heq⟩ | ⟨queued, hqueued, heq⟩
    · exact heq ▸ h.active id hid run hrun
    · exact heq ▸ h.queued id hid queued hqueued
  · intro id hid queued hmem
    rcases hqueued queued hmem with hmem | hlt
    · exact h.queued id hid queued hmem
    · exact fun heq => absurd (h.bound id hid) (heq ▸ hlt).not_ge
  · exact h.once

/-- An event that ends a run that was active or queued, and leaves it neither. -/
theorem EndedInv.end (h : EndedInv s log) {runId : RunId}
    (hended : entry.event.endedRunId = some runId)
    (hlast : t.idCursors.lastRunId = s.idCursors.lastRunId) (hbound : runId ≤ s.idCursors.lastRunId)
    (hfresh : runId ∉ endedRunIds log)
    (hactive : ∀ run, t.runs.active = some run → s.runs.active = some run ∧ run.runId ≠ runId)
    (hqueued : ∀ queued ∈ t.runs.queued, queued ∈ s.runs.queued ∧ queued.runId ≠ runId) :
    EndedInv t (log ++ [entry]) := by
  have hsame : endedRunIds (log ++ [entry]) = endedRunIds log ++ [runId] := by
    rw [endedRunIds_snoc, hended, Option.toList_some]
  have hmem : ∀ id ∈ endedRunIds (log ++ [entry]), id ∈ endedRunIds log ∨ id = runId := by
    intro id hid
    rw [hsame] at hid
    exact (List.mem_append.mp hid).imp_right List.mem_singleton.mp
  refine ⟨fun id hid => ?_, fun id hid run hrun => ?_, fun id hid queued hq => ?_, ?_⟩
  · rw [hlast]
    rcases hmem id hid with hid | rfl
    · exact h.bound id hid
    · exact hbound
  · obtain ⟨hrun, hne⟩ := hactive run hrun
    rcases hmem id hid with hid | rfl
    · exact h.active id hid run hrun
    · exact hne
  · obtain ⟨hq, hne⟩ := hqueued queued hq
    rcases hmem id hid with hid | rfl
    · exact h.queued id hid queued hq
    · exact hne
  · rw [hsame]
    refine h.once.append (List.nodup_singleton _) fun id hid hid' => ?_
    exact hfresh (List.mem_singleton.mp hid' ▸ hid)

/-- The end of the active run. -/
theorem EndedInv.finish (h : EndedInv s log) (hledger : LedgerInv s log) {run : ActiveRun}
    {outcome : RunOutcome} {seq ms : Nat} (hactive : s.runs.active = some run)
    (hended : entry.event.endedRunId = some run.runId) :
    EndedInv (s.finishRun run outcome seq ms) (log ++ [entry]) := by
  have hrow : run.runId ∈ s.runs.rows.map Prod.fst := by simp [RunsState.rows, hactive]
  refine h.end hended (by rw [finishRun_idCursors]) (hledger.runs.bound _ hrow).2 ?_ ?_ ?_
  · exact fun hmem => h.active _ hmem run hactive rfl
  · intro run' hrun'
    rw [finishRun_runs, pruneTerminalRunRecords_active] at hrun'
    cases hrun'
  · intro queued hqueued
    rw [finishRun_runs, pruneTerminalRunRecords_queued] at hqueued
    exact ⟨hqueued, (hledger.runs.head run hactive queued hqueued).ne'⟩

theorem ended_run {seq ms : Nat} {event : RunEvent} (hledger : LedgerInv s log)
    (h : EndedInv s log) (hevent : entry.event = .run event)
    (happly : applyRunEvent s seq ms event = .ok t) : EndedInv t (log ++ [entry]) := by
  cases applyRunEvent_moves happly with
  | queues hqueues =>
    cases event with
    | accepted accepted =>
      obtain ⟨-, -, -, hid, rfl⟩ := accepted_eq_ok.mp happly
      refine h.of_same (by rw [hevent]; rfl) ?_ (fun run hrun => .inl ⟨run, hrun, rfl⟩) ?_
      · change s.idCursors.lastRunId ≤ accepted.runId
        rw [hid]
        exact Nat.le_succ _
      · intro queued hqueued
        refine (List.mem_append.mp hqueued).imp_right fun hnew => ?_
        rw [List.mem_singleton.mp hnew]
        change s.idCursors.lastRunId < accepted.runId
        rw [hid]
        exact Nat.lt_succ_self _
    | queuedCancelled runId =>
      obtain ⟨queued, hqueued, rfl⟩ := queuedCancelled_eq_ok.mp happly
      have hmem := List.mem_of_find?_eq_some hqueued
      have hid : queued.runId = runId := by simpa using List.find?_some hqueued
      have hrow : runId ∈ s.runs.rows.map Prod.fst := by
        rw [← hid]
        simp only [RunsState.rows, List.map_append, List.map_map, List.mem_append, List.mem_map]
        exact .inl (.inr ⟨queued, hmem, rfl⟩)
      refine h.end (by rw [hevent]; rfl) rfl (hledger.runs.bound _ hrow).2 ?_ ?_ ?_
      · exact fun hended => h.queued _ hended queued hmem hid
      · intro run hrun
        have hrun' : (pruneTerminalRunRecords _).active = some run := hrun
        rw [pruneTerminalRunRecords_active] at hrun'
        exact ⟨hrun', (hid ▸ hledger.runs.head run hrun' queued hmem).ne⟩
      · intro other hother
        have hother' : other ∈ (pruneTerminalRunRecords _).queued := hother
        rw [pruneTerminalRunRecords_queued] at hother'
        refine ⟨List.eraseP_subset hother', fun heq => ?_⟩
        -- The queue is strictly increasing, so that no second run has the id.
        have hperm := (perm_cons_eraseP hqueued).map AcceptedRun.runId
        have hnodup := hperm.nodup_iff.mp (hledger.runs.queue.imp fun h => h.ne)
        rw [List.map_cons, List.nodup_cons] at hnodup
        exact hnodup.1 (List.mem_map.mpr ⟨other, hother', heq.trans hid.symm⟩)
    | _ => cases hqueues
  | starts hfree hqueue =>
    refine h.of_same (by rw [hevent]; rfl) le_rfl ?_ fun other hother => ?_
    · rintro run ⟨⟩
      exact .inr ⟨_, hqueue ▸ List.mem_cons_self, rfl⟩
    · exact .inl (hqueue ▸ List.mem_cons_of_mem _ hother)
  | steers hactive | stops hactive =>
    refine h.of_same (by rw [hevent]; rfl) le_rfl ?_ fun queued hqueued => .inl hqueued
    rintro run' ⟨⟩
    exact .inl ⟨_, hactive, rfl⟩
  | ends hactive hends =>
    exact h.finish hledger hactive (by rw [hevent]; exact endedRunId_of_terminal hends)

theorem endedRunId_of_not_run (h : entry.event.isRun = false) : entry.event.endedRunId = none := by
  cases hevent : entry.event with
  | run event => rw [hevent] at h; cases h
  | _ => rfl

/-- Every event keeps what is known of the runs that have ended. -/
theorem ended_step (hinv : Inv s) (hledger : LedgerInv s log) (h : EndedInv s log)
    (happly : applyEvent s entry = .ok t) : EndedInv t (log ++ [entry]) := by
  cases hrun : entry.event.isRun with
  | false =>
    have hframe := applyEvent_runsFrame hinv.entries hrun happly
    refine h.of_same (endedRunId_of_not_run hrun) hframe.lastRunId.ge ?_ ?_
    · intro run' hrun'
      obtain ⟨run, hactive, hsame⟩ := hframe.active run' hrun'
      exact .inl ⟨run, hactive, hsame.runId⟩
    · exact fun queued hqueued => .inl (hframe.queued ▸ hqueued)
  | true =>
    obtain ⟨-, m, hm, rfl⟩ := applyEvent_eq_ok.mp happly
    cases hevent : entry.event with
    | run event =>
      simp only [applyEventKind, hevent] at hm
      have hended := ended_run hledger h hevent hm
      exact ⟨hended.bound, hended.active, hended.queued, hended.once⟩
    | _ => rw [hevent] at hrun; cases hrun

/-- What every warranted event of the steps that meet a condition keeps, of the state and of its log,
holds in every state of a run that takes only such steps. -/
theorem trace_preserves {P : CoreAgentState → List CoreAgentEntry → Prop}
    {M : CoreAgentState → DriveInput → Prop} {steps : List (CoreAgentState × Nat × DriveInput)}
    (hinit : P CoreAgentState.new [])
    (hstep : ∀ base input s log entry t, M base input → Inv s → LedgerInv s log →
      EndedInv s log → P s log → Warrant base input s entry → applyEvent s entry = .ok t →
      P t (log ++ [entry]))
    (h : EventSource.Trace (drive sessionId) steps s log)
    (hmeets : ∀ step ∈ steps, M step.1 step.2.2) : P s log := by
  let Q : CoreAgentState → List CoreAgentEntry → Prop :=
    fun s log => LedgerInv s log ∧ EndedInv s log ∧ P s log
  have hboth : Q s log := by
    refine EventSource.Trace.invariant (P := Q) (M := fun s input => M s input.2)
      ⟨ledgerInv_init, endedInv_init, hinit⟩ ?_ h hmeets
    rintro s log ⟨ms, input⟩ entries t hreached hs hmeet hpropose hcommit
    refine ((append_warranted hreached hpropose).preserves (P := fun u log => Inv u ∧ Q u log) log ?_ hcommit
      ⟨(reachable_inv hreached).1, hs⟩).2
    rintro u log a v ⟨hu, hledger, hended, hp⟩ hwarrant hv
    exact ⟨inv_step hu hwarrant hv, ledger_step hu hledger hwarrant hv, ended_step hu hledger hended hv,
      hstep s input u log a v hmeet hu hledger hended hp hwarrant hv⟩
  exact hboth.2.2

end Lightspeed.Harness
