import Lightspeed.Harness.Boundary

/-!
# The ledger of runs

Every run that a session accepts has one place: the queue, the active slot, the retained records, or, when
its record was dropped, the log alone. `RunsInv` keeps the runs that the state holds apart and says that
the greatest dropped id covers all the others; `run_ledger` reads the partition off it.
-/

namespace Lightspeed.Harness

open Lib

variable {sessionId : SessionId} {base s t : CoreAgentState} {input : DriveInput}
  {entry : CoreAgentEntry} {log entries : List CoreAgentEntry} {runs runs' : RunsState}
  {last last' : Nat} {ms seq : Nat} {queued : AcceptedRun}

/-! ## What the log and the state say -/

/-- The runs that a log accepts, in order. -/
def acceptedRunIds (log : List CoreAgentEntry) : List RunId :=
  log.filterMap fun entry =>
    match entry.event with
    | .run (.accepted accepted) => some accepted.runId
    | _ => none

/-- The runs that a log starts, in order. -/
def startedRunIds (log : List CoreAgentEntry) : List RunId :=
  log.filterMap fun entry =>
    match entry.event with
    | .run (.started runId) => some runId
    | _ => none

/-- The runs that the state holds, with their submissions. -/
def RunsState.rows (runs : RunsState) : List (RunId × Option SubmissionId) :=
  runs.active.toList.map (fun run => (run.runId, run.submissionId)) ++
    runs.queued.map (fun run => (run.runId, run.submissionId)) ++
    runs.finished.map (fun run => (run.runId, run.submissionId))

theorem submissionIds_eq (runs : RunsState) :
    runs.submissionIds = runs.rows.filterMap Prod.snd := by
  simp only [RunsState.submissionIds, RunsState.rows, List.filterMap_append, List.filterMap_map]
  rfl

/-- How often a run stands in the queue, the active slot and the records, and whether it is pruned. -/
def RunsState.places (runs : RunsState) (runId : RunId) : Nat :=
  (runs.queued.map AcceptedRun.runId).count runId +
    (runs.active.toList.map ActiveRun.runId).count runId +
    (runs.finished.map RunRecord.runId).count runId +
    if runs.isPruned runId then 1 else 0

/-! ## The invariant -/

/-- The runs of the state are distinct, and the greatest dropped id covers those it no longer holds. -/
structure RunsInv (runs : RunsState) (last : Nat) : Prop where
  distinct : (runs.rows.map Prod.fst).Nodup
  submitted : (runs.rows.filterMap Prod.snd).Nodup
  bound : ∀ id ∈ runs.rows.map Prod.fst, 1 ≤ id ∧ id ≤ last
  covered : ∀ id, 1 ≤ id → id ≤ last → id ∉ runs.rows.map Prod.fst →
    ∃ through, runs.prunedThrough = some through ∧ id ≤ through
  queue : (runs.queued.map AcceptedRun.runId).Pairwise (· < ·)
  head : ∀ run, runs.active = some run → ∀ queued ∈ runs.queued, run.runId < queued.runId

theorem count_rows (runs : RunsState) (id : RunId) :
    (runs.rows.map Prod.fst).count id = (runs.queued.map AcceptedRun.runId).count id +
      (runs.active.toList.map ActiveRun.runId).count id +
      (runs.finished.map RunRecord.runId).count id := by
  simp only [RunsState.rows, List.map_append, List.map_map, List.count_append]
  have hcomm := Nat.add_comm (List.count id (runs.queued.map AcceptedRun.runId))
    (List.count id (runs.active.toList.map ActiveRun.runId))
  rw [hcomm]
  rfl

/-- A run is pruned when the state dropped its record and holds it nowhere. -/
theorem isPruned_iff {id : RunId} :
    runs.isPruned id = true ↔ (∃ through, runs.prunedThrough = some through ∧ id ≤ through) ∧
      id ∉ runs.rows.map Prod.fst := by
  have hactive : (!runs.active.any (fun run => run.runId == id)) = true ↔
      ∀ run, runs.active = some run → run.runId ≠ id := by
    cases runs.active <;> simp
  have hthrough : runs.prunedThrough.any (fun through => decide (id ≤ through)) = true ↔
      ∃ through, runs.prunedThrough = some through ∧ id ≤ through := by
    cases runs.prunedThrough <;> simp
  have hrows : id ∉ runs.rows.map Prod.fst ↔ (∀ run, runs.active = some run → run.runId ≠ id) ∧
      (∀ run ∈ runs.queued, run.runId ≠ id) ∧ ∀ run ∈ runs.finished, run.runId ≠ id := by
    simp only [RunsState.rows, List.map_append, List.map_map, List.mem_append, List.mem_map,
      Option.mem_toList, Function.comp_apply, not_or, not_exists, not_and]
    rw [and_assoc]
  rw [hrows]
  simp only [RunsState.isPruned, Bool.and_eq_true, hactive, hthrough, Bool.not_eq_true',
    List.any_eq_false, beq_iff_eq]
  tauto

/-- Each accepted run has exactly one place. -/
theorem RunsInv.places (h : RunsInv runs last) {id : RunId} (hpos : 1 ≤ id) (hle : id ≤ last) :
    runs.places id = 1 := by
  unfold RunsState.places
  rw [← count_rows]
  by_cases hmem : id ∈ runs.rows.map Prod.fst
  · have hpruned : runs.isPruned id = false := by
      rw [← Bool.not_eq_true, isPruned_iff]
      exact fun hpruned => hpruned.2 hmem
    rw [List.count_eq_one_of_mem h.distinct hmem, hpruned]
    rfl
  · have hpruned := isPruned_iff.mpr ⟨h.covered id hpos hle hmem, hmem⟩
    rw [List.count_eq_zero_of_not_mem hmem, hpruned]
    rfl

/-- The same runs under the same records. -/
theorem RunsInv.of_rows (h : RunsInv runs last) (hrows : runs'.rows = runs.rows)
    (hpruned : runs'.prunedThrough = runs.prunedThrough)
    (hqueued : runs'.queued.map AcceptedRun.runId = runs.queued.map AcceptedRun.runId)
    (hhead : ∀ run, runs'.active = some run → ∀ queued ∈ runs'.queued, run.runId < queued.runId) :
    RunsInv runs' last where
  distinct := hrows ▸ h.distinct
  submitted := hrows ▸ h.submitted
  bound := hrows ▸ h.bound
  covered := by rw [hrows, hpruned]; exact h.covered
  queue := hqueued ▸ h.queue
  head := hhead

/-- A new run joins the queue. -/
theorem RunsInv.accept (h : RunsInv runs last) (hid : queued.runId = last + 1)
    (hfresh : ∀ id, queued.submissionId = some id → id ∉ runs.submissionIds) :
    RunsInv { runs with queued := runs.queued ++ [queued] } (last + 1) := by
  have hperm : ({ runs with queued := runs.queued ++ [queued] } : RunsState).rows.Perm
      ((queued.runId, queued.submissionId) :: runs.rows) := by
    have hmiddle : ({ runs with queued := runs.queued ++ [queued] } : RunsState).rows =
        (runs.active.toList.map (fun run => (run.runId, run.submissionId)) ++
          runs.queued.map (fun run => (run.runId, run.submissionId))) ++
        (queued.runId, queued.submissionId) ::
          runs.finished.map (fun run => (run.runId, run.submissionId)) := by
      simp [RunsState.rows]
    rw [hmiddle]
    exact List.perm_middle
  have hnew : queued.runId ∉ runs.rows.map Prod.fst := by
    intro hmem
    have hle := (h.bound _ hmem).2
    rw [hid] at hle
    exact absurd hle (Nat.not_succ_le_self last)
  refine ⟨?_, ?_, ?_, ?_, ?_, ?_⟩
  · rw [(hperm.map Prod.fst).nodup_iff]
    exact List.nodup_cons.mpr ⟨hnew, h.distinct⟩
  · rw [(hperm.filterMap Prod.snd).nodup_iff]
    cases hsubmission : queued.submissionId with
    | none =>
      exact h.submitted
    | some id =>
      change (id :: runs.rows.filterMap Prod.snd).Nodup
      refine List.nodup_cons.mpr ⟨?_, h.submitted⟩
      rw [← submissionIds_eq]
      exact hfresh id hsubmission
  · intro id hmem
    rw [(hperm.map Prod.fst).mem_iff, List.map_cons, List.mem_cons] at hmem
    rcases hmem with rfl | hmem
    · exact ⟨hid ▸ Nat.succ_pos last, hid.le⟩
    · exact ⟨(h.bound id hmem).1, Nat.le_succ_of_le (h.bound id hmem).2⟩
  · intro id hpos hle hmem
    rw [(hperm.map Prod.fst).mem_iff, List.map_cons, List.mem_cons, not_or] at hmem
    refine h.covered id hpos (Nat.le_of_lt_succ (lt_of_le_of_ne hle ?_)) hmem.2
    exact fun heq => hmem.1 (heq.trans hid.symm)
  · rw [List.map_append, List.pairwise_append]
    refine ⟨h.queue, List.pairwise_singleton _ _, fun id hmem id' hmem' => ?_⟩
    rw [List.map_singleton, List.mem_singleton] at hmem'
    rw [hmem', hid]
    refine Nat.lt_succ_of_le (h.bound id ?_).2
    obtain ⟨run, hrun, rfl⟩ := List.mem_map.mp hmem
    simp only [RunsState.rows, List.map_append, List.mem_append, List.mem_map]
    exact .inl (.inr ⟨_, ⟨run, hrun, rfl⟩, rfl⟩)
  · intro run hactive queued' hmem
    rcases List.mem_append.mp hmem with hmem | hmem
    · exact h.head run hactive queued' hmem
    · rw [List.mem_singleton.mp hmem, hid]
      refine Nat.lt_succ_of_le (h.bound run.runId ?_).2
      simp only [RunsState.rows, List.map_append, List.mem_append, List.mem_map, Option.mem_toList]
      exact .inl (.inl ⟨_, ⟨run, hactive, rfl⟩, rfl⟩)

/-- How many records are dropped. -/
def RunsState.excess (runs : RunsState) : Nat := runs.finished.length - maxRetainedTerminalRuns

theorem rows_pruned (runs : RunsState) : (pruneTerminalRunRecords runs).rows =
    runs.active.toList.map (fun run => (run.runId, run.submissionId)) ++
      runs.queued.map (fun run => (run.runId, run.submissionId)) ++
      (runs.finished.drop runs.excess).map (fun run => (run.runId, run.submissionId)) := by
  rw [pruneTerminalRunRecords, RunsState.rows, RunsState.excess]

theorem prunedThrough_pruned (runs : RunsState) : (pruneTerminalRunRecords runs).prunedThrough =
    ((runs.finished.take runs.excess).map (fun run => run.runId) ++
      runs.prunedThrough.toList).max? := by
  rw [pruneTerminalRunRecords, RunsState.excess]

/-- The records that are dropped are covered by the greatest dropped id. -/
theorem RunsInv.prune (h : RunsInv runs last) : RunsInv (pruneTerminalRunRecords runs) last := by
  have hsub : ((pruneTerminalRunRecords runs).rows).Sublist runs.rows := by
    rw [rows_pruned]
    exact (List.Sublist.refl _).append ((List.drop_sublist _ _).map _)
  refine ⟨h.distinct.sublist (hsub.map _), h.submitted.sublist (hsub.filterMap _),
    fun id hmem => h.bound id ((hsub.map _).subset hmem), ?_, ?_, ?_⟩
  rotate_left
  · rw [pruneTerminalRunRecords_queued]
    exact h.queue
  · rw [pruneTerminalRunRecords_queued, pruneTerminalRunRecords_active]
    exact h.head
  intro id hpos hle hmem
  rw [prunedThrough_pruned]
  -- The greatest dropped id is at least every id that was dropped, now or before.
  have hmax : ∀ dropped ∈ (runs.finished.take runs.excess).map (fun run => run.runId) ++
      runs.prunedThrough.toList, id ≤ dropped →
      ∃ through, ((runs.finished.take runs.excess).map (fun run => run.runId) ++
        runs.prunedThrough.toList).max? = some through ∧ id ≤ through := by
    intro dropped hdropped hid
    obtain ⟨through, hthrough⟩ := Option.isSome_iff_exists.mp (List.isSome_max?_of_mem hdropped)
    exact ⟨through, hthrough, hid.trans ((List.max?_le_iff hthrough).mp le_rfl dropped hdropped)⟩
  by_cases hold : id ∈ runs.rows.map Prod.fst
  · refine hmax id (List.mem_append_left _ ?_) le_rfl
    rw [rows_pruned, List.map_append, List.map_map, List.mem_append, not_or] at hmem
    rw [RunsState.rows, List.map_append, List.map_map, List.mem_append] at hold
    have hfinished := hold.resolve_left hmem.1
    rw [← List.take_append_drop runs.excess runs.finished, List.map_append,
      List.mem_append] at hfinished
    exact hfinished.resolve_right hmem.2
  · obtain ⟨through, hthrough, hle'⟩ := h.covered id hpos hle hold
    refine hmax through ?_ hle'
    rw [hthrough]
    simp

theorem retained_pruned (runs : RunsState) :
    (pruneTerminalRunRecords runs).finished.length ≤ maxRetainedTerminalRuns := by
  rw [pruneTerminalRunRecords]
  dsimp only
  rw [List.length_drop]
  omega

/-- A run that leaves the active slot, or the queue, becomes a record. -/
theorem RunsInv.finish (h : RunsInv runs last) (active : Option ActiveRun)
    (queued : List AcceptedRun) (record : RunRecord)
    (hactive : ∀ run, active = some run → runs.active = some run)
    (hqueued : queued.Sublist runs.queued)
    (hrows : ({ runs with active, queued, finished := runs.finished ++ [record] } : RunsState).rows.Perm
      runs.rows) :
    RunsInv { runs with active, queued, finished := runs.finished ++ [record] } last where
  distinct := (hrows.map Prod.fst).nodup_iff.mpr h.distinct
  submitted := (hrows.filterMap Prod.snd).nodup_iff.mpr h.submitted
  bound := fun id hmem => h.bound id ((hrows.map Prod.fst).mem_iff.mp hmem)
  covered := fun id hpos hle hmem =>
    h.covered id hpos hle (fun hold => hmem ((hrows.map Prod.fst).mem_iff.mpr hold))
  queue := h.queue.sublist (hqueued.map _)
  head := fun run hrun q hq => h.head run (hactive run hrun) q (hqueued.subset hq)

/-- The ledger of a session: what its log says of the runs that its state holds. -/
structure LedgerInv (s : CoreAgentState) (log : List CoreAgentEntry) : Prop where
  accepted : acceptedRunIds log = List.range' 1 s.idCursors.lastRunId
  runs : RunsInv s.runs s.idCursors.lastRunId
  retained : s.runs.finished.length ≤ maxRetainedTerminalRuns
  started : (startedRunIds log).Pairwise (· < ·)
  startedBound : ∀ id ∈ startedRunIds log, id ≤ s.idCursors.lastRunId
  waiting : ∀ id ∈ startedRunIds log, ∀ queued ∈ s.runs.queued, id < queued.runId

theorem ledgerInv_init : LedgerInv CoreAgentState.new [] where
  accepted := rfl
  runs := by
    refine ⟨List.nodup_nil, List.nodup_nil, nofun, fun id hpos hle => ?_, .nil, by rintro run ⟨⟩⟩
    exact absurd (hpos.trans hle) (Nat.not_succ_le_zero 0)
  retained := Nat.zero_le maxRetainedTerminalRuns
  started := .nil
  startedBound := nofun
  waiting := nofun

theorem acceptedRunIds_append (first second : List CoreAgentEntry) :
    acceptedRunIds (first ++ second) = acceptedRunIds first ++ acceptedRunIds second :=
  List.filterMap_append

theorem startedRunIds_append (first second : List CoreAgentEntry) :
    startedRunIds (first ++ second) = startedRunIds first ++ startedRunIds second :=
  List.filterMap_append

/-- An entry that accepts and starts no run adds nothing to the ledger's log. -/
theorem LedgerInv.of_quiet (h : LedgerInv s log) (haccepted : acceptedRunIds [entry] = [])
    (hstarted : startedRunIds [entry] = []) (hlast : t.idCursors.lastRunId = s.idCursors.lastRunId)
    (hruns : RunsInv t.runs s.idCursors.lastRunId)
    (hretained : t.runs.finished.length ≤ maxRetainedTerminalRuns)
    (hqueued : t.runs.queued.Sublist s.runs.queued) : LedgerInv t (log ++ [entry]) where
  accepted := by rw [acceptedRunIds_append, haccepted, List.append_nil, hlast, h.accepted]
  runs := hlast ▸ hruns
  retained := hretained
  started := by rw [startedRunIds_append, hstarted, List.append_nil]; exact h.started
  startedBound := by
    rw [startedRunIds_append, hstarted, List.append_nil, hlast]
    exact h.startedBound
  waiting := by
    rw [startedRunIds_append, hstarted, List.append_nil]
    exact fun id hid queued hmem => h.waiting id hid queued (hqueued.subset hmem)

/-- An event that moves no run keeps the ledger. -/
theorem LedgerInv.of_frame (h : LedgerInv s log) (haccepted : acceptedRunIds [entry] = [])
    (hstarted : startedRunIds [entry] = []) (hframe : RunsFrame s t) :
    LedgerInv t (log ++ [entry]) := by
  have hactive : t.runs.active.toList.map (fun run => (run.runId, run.submissionId)) =
      s.runs.active.toList.map (fun run => (run.runId, run.submissionId)) := by
    cases hb : t.runs.active with
    | none => rw [hframe.inactive hb]
    | some b =>
      obtain ⟨a, ha, hsame⟩ := hframe.active b hb
      rw [ha]
      simp [hsame.runId, hsame.submissionId]
  refine h.of_quiet haccepted hstarted hframe.lastRunId (h.runs.of_rows ?_ hframe.prunedThrough ?_ ?_)
    (hframe.finished ▸ h.retained) (hframe.queued ▸ .refl _)
  · rw [RunsState.rows, hactive, hframe.queued, hframe.finished]
    rfl
  · rw [hframe.queued]
  · intro b hb queued hmem
    obtain ⟨a, ha, hsame⟩ := hframe.active b hb
    rw [hsame.runId]
    exact h.runs.head a ha queued (hframe.queued ▸ hmem)

/-- The end of the active run keeps the ledger. -/
theorem LedgerInv.finish (h : LedgerInv s log) {run : ActiveRun} {outcome : RunOutcome}
    (hactive : s.runs.active = some run) (haccepted : acceptedRunIds [entry] = [])
    (hstarted : startedRunIds [entry] = []) :
    LedgerInv (s.finishRun run outcome seq ms) (log ++ [entry]) := by
  let record := run.terminalRecord outcome seq ms
  have hrows : ({ s.runs with active := none, finished := s.runs.finished ++ [record] } :
      RunsState).rows.Perm s.runs.rows := by
    have hleft : ({ s.runs with active := none, finished := s.runs.finished ++ [record] } :
        RunsState).rows = (s.runs.queued.map (fun run => (run.runId, run.submissionId)) ++
          s.runs.finished.map (fun run => (run.runId, run.submissionId))) ++
        [(run.runId, run.submissionId)] := by
      simp only [RunsState.rows, Option.toList_none, List.map_nil, List.nil_append, List.map_append,
        List.append_assoc]
      rfl
    have hright : s.runs.rows = (run.runId, run.submissionId) ::
        (s.runs.queued.map (fun run => (run.runId, run.submissionId)) ++
          s.runs.finished.map (fun run => (run.runId, run.submissionId))) := by
      rw [RunsState.rows, hactive]
      rfl
    rw [hleft, hright]
    exact List.perm_append_singleton _ _
  have hfinish : RunsInv { s.runs with active := none, finished := s.runs.finished ++ [record] }
      s.idCursors.lastRunId := h.runs.finish none s.runs.queued record (by rintro run ⟨⟩) (.refl _) hrows
  refine h.of_quiet haccepted hstarted rfl ?_ ?_ ?_
  · rw [finishRun_runs]
    exact hfinish.prune
  · rw [finishRun_runs]
    exact retained_pruned _
  · rw [finishRun_runs, pruneTerminalRunRecords_queued]

/-- A start takes the head of the queue. -/
theorem LedgerInv.start (h : LedgerInv s log) {rest : List AcceptedRun}
    (hactive : s.runs.active = none) (hqueued : s.runs.queued = queued :: rest)
    (hevent : entry.event = .run (.started queued.runId)) :
    LedgerInv (s.setRuns { s.runs with queued := rest, active := some (queued.start ms) })
      (log ++ [entry]) := by
  have haccepted : acceptedRunIds [entry] = [] := by simp [acceptedRunIds, hevent]
  have hstarted : startedRunIds [entry] = [queued.runId] := by simp [startedRunIds, hevent]
  have hqueue := h.runs.queue
  rw [hqueued, List.map_cons, List.pairwise_cons] at hqueue
  have hbefore : ∀ id ∈ startedRunIds log, id < queued.runId := fun id hid =>
    h.waiting id hid queued (hqueued ▸ List.mem_cons_self)
  have hafter : ∀ run ∈ rest, queued.runId < run.runId := fun run hrun =>
    hqueue.1 run.runId (List.mem_map.mpr ⟨run, hrun, rfl⟩)
  have hrows : ({ s.runs with queued := rest, active := some (queued.start ms) } : RunsState).rows =
      s.runs.rows := by
    rw [RunsState.rows, RunsState.rows, hactive, hqueued]
    rfl
  have hmem : queued.runId ∈ s.runs.rows.map Prod.fst := by
    rw [← hrows]
    exact List.mem_cons_self
  refine ⟨?_, ⟨?_, ?_, ?_, ?_, ?_, ?_⟩, h.retained, ?_, ?_, ?_⟩
  · rw [acceptedRunIds_append, haccepted, List.append_nil]
    exact h.accepted
  · rw [CoreAgentState.setRuns, hrows]
    exact h.runs.distinct
  · rw [CoreAgentState.setRuns, hrows]
    exact h.runs.submitted
  · rw [CoreAgentState.setRuns, hrows]
    exact h.runs.bound
  · rw [CoreAgentState.setRuns, hrows]
    exact h.runs.covered
  · exact hqueue.2
  · rintro run ⟨⟩
    exact hafter
  · rw [startedRunIds_append, hstarted, List.pairwise_append]
    refine ⟨h.started, List.pairwise_singleton _ _, fun id hid id' hid' => ?_⟩
    rw [List.mem_singleton.mp hid']
    exact hbefore id hid
  · intro id hid
    rw [startedRunIds_append, hstarted, List.mem_append, List.mem_singleton] at hid
    rcases hid with hid | rfl
    · exact h.startedBound id hid
    · exact (h.runs.bound _ hmem).2
  · intro id hid run hrun
    rw [startedRunIds_append, hstarted, List.mem_append, List.mem_singleton] at hid
    rcases hid with hid | rfl
    · exact h.waiting id hid run (hqueued ▸ List.mem_cons_of_mem _ hrun)
    · exact hafter run hrun

/-- An accepted run joins the ledger under the next id. -/
theorem LedgerInv.accept (h : LedgerInv s log) {accepted : AcceptedRunEvent}
    (hid : accepted.runId = s.idCursors.lastRunId + 1)
    (hfresh : ∀ id, accepted.submissionId = some id → id ∉ s.runs.submissionIds)
    (hevent : entry.event = .run (.accepted accepted)) :
    LedgerInv { s.setRuns { s.runs with queued := s.runs.queued ++ [accepted.queue seq ms] } with
      idCursors := { s.idCursors with lastRunId := accepted.runId } } (log ++ [entry]) := by
  have haccepted : acceptedRunIds [entry] = [accepted.runId] := by simp [acceptedRunIds, hevent]
  have hstarted : startedRunIds [entry] = [] := by simp [startedRunIds, hevent]
  have hqueue : (accepted.queue seq ms).runId = s.idCursors.lastRunId + 1 := hid
  refine ⟨?_, ?_, h.retained, ?_, ?_, ?_⟩
  · rw [acceptedRunIds_append, haccepted, h.accepted, hid, List.range'_1_concat, Nat.add_comm 1]
  · change RunsInv _ accepted.runId
    rw [hid]
    exact h.runs.accept hqueue hfresh
  · rw [startedRunIds_append, hstarted, List.append_nil]
    exact h.started
  · rw [startedRunIds_append, hstarted, List.append_nil]
    intro id hmem
    change id ≤ accepted.runId
    rw [hid]
    exact Nat.le_succ_of_le (h.startedBound id hmem)
  · rw [startedRunIds_append, hstarted, List.append_nil]
    intro id hmem run hrun
    rcases List.mem_append.mp hrun with hrun | hrun
    · exact h.waiting id hmem run hrun
    · rw [List.mem_singleton.mp hrun, hqueue]
      exact Nat.lt_succ_of_le (h.startedBound id hmem)

/-- What is found first and taken out once. -/
theorem perm_cons_eraseP {α : Type} {p : α → Bool} {a : α} {l : List α} (h : l.find? p = some a) :
    l.Perm (a :: l.eraseP p) := by
  induction l with
  | nil => cases h
  | cons b l ih =>
    by_cases hb : p b = true
    · rw [List.find?_cons_of_pos hb] at h
      rw [List.eraseP_cons_of_pos hb, Option.some.inj h]
    · rw [List.find?_cons_of_neg hb] at h
      rw [List.eraseP_cons_of_neg hb]
      exact ((ih h).cons b).trans (.swap a b _)

/-- A run that is cancelled in the queue becomes a record. -/
theorem LedgerInv.cancelQueued (h : LedgerInv s log) {runId : RunId}
    (hqueued : s.runs.queued.find? (fun run => run.runId == runId) = some queued)
    (hevent : entry.event = .run (.queuedCancelled runId)) :
    LedgerInv (s.setRuns (pruneTerminalRunRecords { s.runs with
      queued := s.runs.queued.eraseP (fun run => run.runId == runId)
      finished := s.runs.finished ++ [queued.cancelledRecord seq ms] })) (log ++ [entry]) := by
  have haccepted : acceptedRunIds [entry] = [] := by simp [acceptedRunIds, hevent]
  have hstarted : startedRunIds [entry] = [] := by simp [startedRunIds, hevent]
  let row : AcceptedRun → RunId × Option SubmissionId := fun run => (run.runId, run.submissionId)
  let record := queued.cancelledRecord seq ms
  let rest := s.runs.queued.eraseP (fun run => run.runId == runId)
  have hrows : ({ s.runs with queued := rest, finished := s.runs.finished ++ [record] } :
      RunsState).rows.Perm s.runs.rows := by
    have hqueue : (row queued :: rest.map row).Perm (s.runs.queued.map row) :=
      ((perm_cons_eraseP hqueued).map row).symm
    have hmoved : ({ s.runs with queued := rest, finished := s.runs.finished ++ [record] } :
        RunsState).rows = (s.runs.active.toList.map (fun run => (run.runId, run.submissionId)) ++
          rest.map row) ++ s.runs.finished.map (fun run => (run.runId, run.submissionId)) ++
        [row queued] := by
      rw [RunsState.rows, List.map_append, ← List.append_assoc]
      rfl
    rw [hmoved, RunsState.rows, List.append_assoc]
    -- The new record moves from the end to the front of the queue, where its run stood.
    refine (List.Perm.append_left _ (List.perm_append_singleton _ _)).trans ?_
    rw [List.append_assoc, List.append_assoc]
    refine List.Perm.append_left _ (List.perm_middle.trans ?_)
    exact hqueue.append_right _
  have hfinish : RunsInv { s.runs with queued := rest, finished := s.runs.finished ++ [record] }
      s.idCursors.lastRunId :=
    h.runs.finish s.runs.active rest record (fun _ h => h) List.eraseP_sublist hrows
  refine h.of_quiet haccepted hstarted rfl hfinish.prune (retained_pruned _) ?_
  change (pruneTerminalRunRecords _).queued.Sublist _
  rw [pruneTerminalRunRecords_queued]
  exact List.eraseP_sublist

/-! ## Every step -/

theorem ledger_run {event : RunEvent} (h : LedgerInv s log) (hknew : Knew base input s (.run event))
    (hevent : entry.event = .run event) (happly : applyRunEvent s seq ms event = .ok t) :
    LedgerInv t (log ++ [entry]) := by
  have hquiet : event.queues = false → (∀ runId, event ≠ .started runId) →
      acceptedRunIds [entry] = [] ∧ startedRunIds [entry] = [] := by
    intro hqueues hstarted
    cases event with
    | started runId => exact absurd rfl (hstarted runId)
    | accepted accepted => cases hqueues
    | _ => exact ⟨by simp [acceptedRunIds, hevent], by simp [startedRunIds, hevent]⟩
  cases applyRunEvent_moves happly with
  | queues hqueues =>
    cases event with
    | accepted accepted =>
      obtain ⟨-, -, -, hid, rfl⟩ := accepted_eq_ok.mp happly
      exact h.accept hid hknew.1 hevent
    | queuedCancelled runId =>
      obtain ⟨queued, hqueued, rfl⟩ := queuedCancelled_eq_ok.mp happly
      exact h.cancelQueued hqueued hevent
    | _ => cases hqueues
  | starts hfree hqueue => exact h.start hfree hqueue hevent
  | steers hactive | stops hactive =>
    obtain ⟨haccepted, hstarted⟩ := hquiet rfl nofun
    exact h.of_frame haccepted hstarted (.of_active hactive rfl (by constructor <;> rfl) rfl)
  | ends hactive hends =>
    obtain ⟨haccepted, hstarted⟩ := hquiet
      (by cases event <;> first | rfl | cases hends) (by rintro _ rfl; cases hends)
    exact h.finish hactive haccepted hstarted

/-- Every warranted event keeps the ledger. -/
theorem ledger_step (hinv : Inv s) (h : LedgerInv s log) (hw : Warrant base input s entry)
    (happly : applyEvent s entry = .ok t) : LedgerInv t (log ++ [entry]) := by
  cases hrun : entry.event.isRun with
  | false =>
    have haccepted : acceptedRunIds [entry] = [] ∧ startedRunIds [entry] = [] := by
      cases hevent : entry.event with
      | run event => rw [hevent] at hrun; cases hrun
      | _ => exact ⟨by simp [acceptedRunIds, hevent], by simp [startedRunIds, hevent]⟩
    exact h.of_frame haccepted.1 haccepted.2 (applyEvent_runsFrame hinv.entries hrun happly)
  | true =>
    obtain ⟨-, m, hm, rfl⟩ := applyEvent_eq_ok.mp happly
    have hknew := hw.knew
    cases hkind : entry.event with
    | run event =>
      rw [applyEventKind, hkind] at hm
      have hledger : LedgerInv m (log ++ [entry]) := ledger_run h (hkind ▸ hknew) hkind hm
      exact ⟨hledger.accepted, hledger.runs, hledger.retained, hledger.started,
        hledger.startedBound, hledger.waiting⟩
    | _ => rw [hkind] at hrun; cases hrun

/-- The ledger holds in every state that a session reaches. -/
theorem reachable_ledger (h : Reachable sessionId s log) : LedgerInv s log :=
  reachable_preserves ledgerInv_init (fun _ _ _ _ _ _ hinv hs hw ht => ledger_step hinv hs hw ht) h

/-- The runs that a session has accepted are numbered from one, and each is in the queue, in the active
slot, among the retained records, or pruned, and in one of them only. The queue is in order and runs start
in that order, no more records are retained than the cap allows, and no submission id is held twice. -/
theorem run_ledger (h : Reachable sessionId s log) :
    acceptedRunIds log = List.range' 1 s.idCursors.lastRunId ∧
      (∀ runId ∈ acceptedRunIds log, s.runs.places runId = 1) ∧
      (s.runs.queued.map AcceptedRun.runId).Pairwise (· < ·) ∧
      (startedRunIds log).Pairwise (· < ·) ∧
      (∀ runId ∈ startedRunIds log, ∀ queued ∈ s.runs.queued, runId < queued.runId) ∧
      s.runs.finished.length ≤ maxRetainedTerminalRuns ∧ s.runs.submissionIds.Nodup := by
  have hledger := reachable_ledger h
  refine ⟨hledger.accepted, fun runId hmem => ?_, hledger.runs.queue, hledger.started,
    hledger.waiting, hledger.retained, ?_⟩
  · rw [hledger.accepted, List.mem_range'_1] at hmem
    have hle : runId < s.idCursors.lastRunId + 1 := by rw [Nat.add_comm]; exact hmem.2
    exact hledger.runs.places hmem.1 (Nat.le_of_lt_succ hle)
  · rw [submissionIds_eq]
    exact hledger.runs.submitted

/-- A session that accepts two runs, starts the first and cancels the second in the queue. -/
def twoRuns : List (Nat × DriveInput) :=
  [(0, .admitCommand (.openSession sampleConfig)),
    (1, .admitCommand (.requestRun { submissionId := some "first", source := ⟨[sampleMessage]⟩ })),
    (2, .admitCommand (.requestRun { submissionId := some "second", source := ⟨[sampleMessage]⟩ })),
    (3, .nextAction), (4, .admitCommand (.cancelRun 2))]

theorem run_ledger_twoRuns : ∃ s log, (drive "session").exec twoRuns = some (s, log) ∧
    acceptedRunIds log = [1, 2] ∧ ∀ runId ∈ acceptedRunIds log, s.runs.places runId = 1 := by
  obtain ⟨⟨s, log⟩, hexec, haccepted⟩ : ∃ p ∈ (drive "session").exec twoRuns,
      acceptedRunIds p.2 = [1, 2] := by decide +kernel
  exact ⟨s, log, hexec, haccepted, (run_ledger (EventSource.exec_reaches hexec)).2.1⟩

end Lightspeed.Harness
