import Lightspeed.Harness.Ledger

/-!
# The fork point

A session may be forked where no run is open. The store finds the latest such position by scanning the log
for the events at the boundaries of runs, each under the run that it is joined with; a host reads it off the
reduced state, where a run that is queued or active carries the position of its acceptance. `RangesInv`
says that the ranges which the scan leaves open are the runs that the state holds.
-/

namespace Lightspeed.Harness

open Lib

variable {sessionId : SessionId} {base s t : CoreAgentState} {input : DriveInput}
  {entry : CoreAgentEntry} {log : List CoreAgentEntry} {runId : RunId} {last : Nat}
  {run : ActiveRun}

/-! ## The two readings -/

/-- `RunBoundary`: an event at which a run begins, goes on or ends. -/
structure RunBoundary where
  runId : RunId
  terminal : Bool

/-- `is_terminal_run_entry`. -/
def isTerminalRunEntry (entry : CoreAgentEntry) : Bool :=
  match entry.event with
  | .run (.completed _ _) | .run (.failed _ _) | .run (.cancelled _) | .run (.forceCancelled _)
  | .run (.queuedCancelled _) => true
  | _ => false

/-- `run_boundary`: a boundary names the run that the entry is joined with. -/
def runBoundary (entry : CoreAgentEntry) : Option RunBoundary := do
  let runId ← entry.joins.runId
  let terminal := isTerminalRunEntry entry
  let isRun := terminal ||
    match entry.event with
    | .run (.accepted _) | .run (.started _) | .run (.steeringAccepted _ _ _ _)
    | .run (.cancellationRequested _) => true
    | _ => false
  if isRun then some ⟨runId, terminal⟩ else none

/-- `RunRange`. -/
structure RunRange where
  runId : RunId
  firstSeq : EventSeq
  terminalSeq : Option EventSeq := none

/-- One step of the loop of `core_run_ranges`. -/
def noteRange (ranges : OrdMap RunId RunRange) (entry : CoreAgentEntry) : OrdMap RunId RunRange :=
  match runBoundary entry with
  | none => ranges
  | some boundary =>
    let range := (ranges.get? boundary.runId).getD { runId := boundary.runId, firstSeq := entry.seq }
    let range := { range with firstSeq := min range.firstSeq entry.seq }
    ranges.insert boundary.runId
      (if boundary.terminal then { range with terminalSeq := some entry.seq } else range)

/-- `core_run_ranges`. -/
def coreRunRanges (entries : List CoreAgentEntry) : OrdMap RunId RunRange :=
  entries.foldl noteRange .empty

/-- `largest_safe_fork_seq`. -/
def largestSafeForkSeq (entries : List CoreAgentEntry) (head : EventSeq) : EventSeq :=
  let earliestOpen := (((coreRunRanges entries).values.filter
    (fun range => range.terminalSeq.isNone)).map RunRange.firstSeq).min?
  earliestOpen.elim head (· - 1)

/-- `largest_safe_fork_seq_from_state`. -/
def largestSafeForkSeqFromState (s : CoreAgentState) : EventSeq :=
  let head := s.reducedTo.getD 0
  let earliestOpen := (s.runs.active.toList.map ActiveRun.firstSeq ++
    s.runs.queued.map AcceptedRun.firstSeq).min?
  earliestOpen.elim head (· - 1)

/-- The head of a log: the position of its last entry. -/
def headSeq (log : List CoreAgentEntry) : EventSeq := (log.getLast?.map CoreAgentEntry.seq).getD 0

/-! ## The ranges -/

/-- Where the range of a run begins, as long as it has not ended. -/
def openRange (log : List CoreAgentEntry) (runId : RunId) : Option EventSeq :=
  ((coreRunRanges log).get? runId).bind fun range =>
    if range.terminalSeq.isNone then some range.firstSeq else none

/-- The runs that the state holds open, with the positions of their acceptance. -/
def RunsState.openRuns (runs : RunsState) : List (RunId × EventSeq) :=
  runs.active.toList.map (fun run => (run.runId, run.firstSeq)) ++
    runs.queued.map (fun run => (run.runId, run.firstSeq))

/-- The ranges of a log that are open are the runs of the state. -/
structure RangesInv (s : CoreAgentState) (log : List CoreAgentEntry) : Prop where
  opens : ∀ id first, openRange log id = some first ↔ (id, first) ∈ s.runs.openRuns
  bound : ∀ id range, (coreRunRanges log).get? id = some range →
    id ≤ s.idCursors.lastRunId ∧ range.firstSeq < s.nextSeq
  head : s.reducedTo.getD 0 = headSeq log

theorem coreRunRanges_snoc (log : List CoreAgentEntry) (entry : CoreAgentEntry) :
    coreRunRanges (log ++ [entry]) = noteRange (coreRunRanges log) entry :=
  List.foldl_concat ..

/-- The boundary that a run event is: it is joined with its run. -/
theorem runBoundary_run {event : RunEvent} (hw : Warrant base input s entry)
    (hevent : entry.event = .run event) :
    runBoundary entry = some ⟨event.runId, isTerminalRunEntry entry⟩ := by
  have hjoin : entry.joins.runId = some event.runId := hw.joined event.runId (by rw [hevent]; rfl)
  unfold runBoundary
  rw [hjoin, Option.bind_eq_bind, Option.bind_some]
  unfold isTerminalRunEntry
  rw [hevent]
  cases event <;> rfl

theorem runBoundary_other (h : entry.event.isRun = false) : runBoundary entry = none := by
  unfold runBoundary isTerminalRunEntry
  cases hevent : entry.event with
  | run event => rw [hevent] at h; cases h
  | _ => cases entry.joins.runId <;> rfl

/-- The range of a run after a boundary of it. -/
theorem get?_noteRange {boundary : RunBoundary} (h : runBoundary entry = some boundary) (id : RunId) :
    (coreRunRanges (log ++ [entry])).get? id =
      if boundary.runId = id then
        some (let range := ((coreRunRanges log).get? id).getD { runId := id, firstSeq := entry.seq }
          let range := { range with firstSeq := min range.firstSeq entry.seq }
          if boundary.terminal then { range with terminalSeq := some entry.seq } else range)
      else (coreRunRanges log).get? id := by
  rw [coreRunRanges_snoc, noteRange, h]
  dsimp only
  rw [OrdMap.get?_insert]
  split_ifs with hid <;> first | rw [← hid] | rfl

theorem openRange_other (h : runBoundary entry = none) (id : RunId) :
    openRange (log ++ [entry]) id = openRange log id := by
  rw [openRange, coreRunRanges_snoc, noteRange, h]
  rfl

/-- A boundary of another run leaves a range as it is. -/
theorem openRange_ne {boundary : RunBoundary} (h : runBoundary entry = some boundary) {id : RunId}
    (hne : boundary.runId ≠ id) : openRange (log ++ [entry]) id = openRange log id := by
  rw [openRange, get?_noteRange h, if_neg hne]
  rfl

/-- The end of a run closes its range. -/
theorem openRange_ended (h : runBoundary entry = some ⟨runId, true⟩) :
    openRange (log ++ [entry]) runId = none := by
  rw [openRange, get?_noteRange h]
  simp

/-- The first boundary of a run opens its range. -/
theorem openRange_begun (h : runBoundary entry = some ⟨runId, false⟩)
    (hnone : (coreRunRanges log).get? runId = none) :
    openRange (log ++ [entry]) runId = some entry.seq := by
  rw [openRange, get?_noteRange h]
  simp [hnone]

/-- A later boundary leaves the beginning of a range where it is. -/
theorem openRange_noted (h : runBoundary entry = some ⟨runId, false⟩) {range : RunRange}
    (hsome : (coreRunRanges log).get? runId = some range) (hlt : range.firstSeq < entry.seq) :
    openRange (log ++ [entry]) runId = openRange log runId := by
  have hmin : min range.firstSeq entry.seq = range.firstSeq := min_eq_left hlt.le
  rw [openRange, get?_noteRange h, openRange, hsome]
  simp [hmin]

theorem exists_range_of_open {first : EventSeq} (h : openRange log runId = some first) :
    ∃ range, (coreRunRanges log).get? runId = some range ∧ range.firstSeq = first := by
  obtain ⟨range, hrange, hopen⟩ := Option.bind_eq_some_iff.mp h
  split_ifs at hopen
  exact ⟨range, hrange, Option.some.inj hopen⟩

/-! ## Steps -/

/-- What an entry adds to the bounds of the ranges. -/
theorem RangesInv.bound_snoc (h : RangesInv s log) (hseq : entry.seq = s.nextSeq)
    (hnext : t.nextSeq = s.nextSeq + 1) (hlast : s.idCursors.lastRunId ≤ t.idCursors.lastRunId)
    (hboundary : ∀ boundary, runBoundary entry = some boundary →
      boundary.runId ≤ t.idCursors.lastRunId) :
    ∀ id range, (coreRunRanges (log ++ [entry])).get? id = some range →
      id ≤ t.idCursors.lastRunId ∧ range.firstSeq < t.nextSeq := by
  intro id range hget
  have hold : (coreRunRanges log).get? id = some range →
      id ≤ t.idCursors.lastRunId ∧ range.firstSeq < t.nextSeq := by
    intro hget
    obtain ⟨hid, hfirst⟩ := h.bound id range hget
    exact ⟨hid.trans hlast, hnext ▸ Nat.lt_succ_of_lt hfirst⟩
  cases hb : runBoundary entry with
  | none =>
    rw [coreRunRanges_snoc, noteRange, hb] at hget
    exact hold hget
  | some boundary =>
    rw [get?_noteRange hb] at hget
    by_cases hid : boundary.runId = id
    · rw [if_pos hid] at hget
      have hle : range.firstSeq ≤ entry.seq := by
        rw [← Option.some.inj hget]
        dsimp only
        split_ifs <;> exact min_le_right _ _
      exact ⟨hid ▸ hboundary boundary hb, hnext ▸ Nat.lt_succ_of_le (hseq ▸ hle)⟩
    · rw [if_neg hid] at hget
      exact hold hget

/-- The runs that a state holds open are distinct. -/
theorem RunsInv.openRuns_nodup {runs : RunsState} (h : RunsInv runs last) :
    (runs.openRuns.map Prod.fst).Nodup := by
  have hsub : (runs.openRuns.map Prod.fst).Sublist (runs.rows.map Prod.fst) := by
    simp only [RunsState.openRuns, RunsState.rows, List.map_append, List.map_map]
    exact List.sublist_append_left _ _
  exact h.distinct.sublist hsub

theorem openRuns_of_active (h : s.runs.active = some run) :
    (run.runId, run.firstSeq) ∈ s.runs.openRuns := by
  unfold RunsState.openRuns
  rw [h]
  exact List.mem_append_left _ (List.mem_singleton_self _)

/-- An event that touches no boundary, or one of a run that stays open. -/
theorem RangesInv.opens_noted (h : RangesInv s log) (hseq : entry.seq = s.nextSeq)
    (hboundary : runBoundary entry = none ∨ ∃ first, (runId, first) ∈ s.runs.openRuns ∧
      runBoundary entry = some ⟨runId, false⟩) (id : RunId) :
    openRange (log ++ [entry]) id = openRange log id := by
  rcases hboundary with hnone | ⟨first, hmem, hsome⟩
  · exact openRange_other hnone id
  · by_cases hid : runId = id
    · subst hid
      obtain ⟨range, hrange, -⟩ := exists_range_of_open ((h.opens runId first).mpr hmem)
      obtain ⟨-, hlt⟩ := h.bound runId range hrange
      exact openRange_noted hsome hrange (hseq ▸ hlt)
    · exact openRange_ne hsome hid

/-- The end of an open run. -/
theorem RangesInv.opens_ended (h : RangesInv s log) (hboundary : runBoundary entry = some ⟨runId, true⟩)
    {kept : List (RunId × EventSeq)}
    (hkept : ∀ pair, pair ∈ kept ↔ pair ∈ s.runs.openRuns ∧ pair.1 ≠ runId) (id : RunId)
    (first : EventSeq) : openRange (log ++ [entry]) id = some first ↔ (id, first) ∈ kept := by
  rw [hkept]
  by_cases hid : runId = id
  · subst hid
    rw [openRange_ended hboundary]
    simp
  · rw [openRange_ne hboundary hid, h.opens]
    exact (and_iff_left (Ne.symm hid)).symm

theorem openRuns_of_frame (hframe : RunsFrame s t) : t.runs.openRuns = s.runs.openRuns := by
  unfold RunsState.openRuns
  rw [hframe.queued]
  cases hb : t.runs.active with
  | none => rw [hframe.inactive hb]
  | some b =>
    obtain ⟨a, ha, hsame⟩ := hframe.active b hb
    rw [ha]
    simp [hsame.runId, hsame.firstSeq]

/-- What is left of the open runs when the active one ends. -/
theorem mem_openRuns_finished (hinv : RunsInv s.runs last) (hactive : s.runs.active = some run)
    (pair : RunId × EventSeq) :
    pair ∈ s.runs.queued.map (fun run => (run.runId, run.firstSeq)) ↔
      pair ∈ s.runs.openRuns ∧ pair.1 ≠ run.runId := by
  have hnodup := hinv.openRuns_nodup
  unfold RunsState.openRuns at hnodup ⊢
  rw [hactive] at hnodup ⊢
  simp only [Option.toList_some, List.map_cons, List.map_nil, List.singleton_append,
    List.nodup_cons, List.mem_cons] at hnodup ⊢
  constructor
  · intro hmem
    refine ⟨.inr hmem, fun heq => hnodup.1 ?_⟩
    exact heq ▸ List.mem_map_of_mem hmem
  · rintro ⟨rfl | hmem, hne⟩
    · exact absurd rfl hne
    · exact hmem

/-- What is left of the open runs when a queued one is cancelled. -/
theorem mem_openRuns_cancelled {queued : AcceptedRun} (hinv : RunsInv s.runs last)
    (hfound : s.runs.queued.find? (fun run => run.runId == runId) = some queued)
    (pair : RunId × EventSeq) :
    pair ∈ s.runs.active.toList.map (fun run => (run.runId, run.firstSeq)) ++
        (s.runs.queued.eraseP (fun run => run.runId == runId)).map
          (fun run => (run.runId, run.firstSeq)) ↔
      pair ∈ s.runs.openRuns ∧ pair.1 ≠ runId := by
  have hnodup := hinv.openRuns_nodup
  obtain ⟨hqueued, front, back, hsplit, hfront⟩ := List.find?_eq_some_iff_append.mp hfound
  rw [beq_iff_eq] at hqueued
  have herased : s.runs.queued.eraseP (fun run => run.runId == runId) = front ++ back := by
    rw [hsplit, List.eraseP_append_right _ (fun b hb => by simpa using hfront b hb),
      List.eraseP_cons_of_pos (by simp [hqueued])]
  unfold RunsState.openRuns at hnodup ⊢
  rw [herased]
  rw [hsplit] at hnodup ⊢
  simp only [List.map_append, List.map_cons] at hnodup ⊢
  have hperm : (s.runs.active.toList.map (fun run => (run.runId, run.firstSeq)) ++
      (front.map (fun run => (run.runId, run.firstSeq)) ++ (queued.runId, queued.firstSeq) ::
        back.map (fun run => (run.runId, run.firstSeq)))).Perm ((queued.runId, queued.firstSeq) ::
      (s.runs.active.toList.map (fun run => (run.runId, run.firstSeq)) ++
        (front.map (fun run => (run.runId, run.firstSeq)) ++
          back.map (fun run => (run.runId, run.firstSeq))))) := by
    rw [← List.append_assoc, ← List.append_assoc]
    exact List.perm_middle
  have hnodup' : (queued.runId :: (s.runs.active.toList.map (fun run => (run.runId, run.firstSeq)) ++
      (front.map (fun run => (run.runId, run.firstSeq)) ++
        back.map (fun run => (run.runId, run.firstSeq)))).map Prod.fst).Nodup := by
    have := (hperm.map Prod.fst).nodup_iff.mp (by simpa using hnodup)
    exact this
  rw [hperm.mem_iff, List.mem_cons]
  constructor
  · intro hmem
    refine ⟨.inr hmem, fun heq => (List.nodup_cons.mp hnodup').1 ?_⟩
    rw [hqueued, ← heq]
    exact List.mem_map_of_mem hmem
  · rintro ⟨rfl | hmem, hne⟩
    · exact absurd hqueued hne
    · exact hmem

/-- The end of the active run. -/
theorem ranges_finished {outcome : RunOutcome} {seq ms : Nat} (hledger : LedgerInv s log)
    (h : RangesInv s log) (hactive : s.runs.active = some run)
    (hboundary : runBoundary entry = some ⟨run.runId, true⟩) (id : RunId) (first : EventSeq) :
    openRange (log ++ [entry]) id = some first ↔
      (id, first) ∈ (s.finishRun run outcome seq ms).runs.openRuns := by
  refine h.opens_ended hboundary (fun pair => ?_) id first
  rw [← mem_openRuns_finished hledger.runs hactive pair, finishRun_runs]
  unfold RunsState.openRuns
  rw [pruneTerminalRunRecords_queued, pruneTerminalRunRecords_active]
  rfl

/-- A run event moves the open ranges as it moves the open runs, and names a run that was counted. -/
theorem ranges_run {event : RunEvent} {ms : Nat} (hledger : LedgerInv s log) (h : RangesInv s log)
    (hw : Warrant base input s entry) (hevent : entry.event = .run event)
    (hseq : entry.seq = s.nextSeq)
    (happly : applyRunEvent s entry.seq ms event = .ok t) :
    (∀ id first, openRange (log ++ [entry]) id = some first ↔ (id, first) ∈ t.runs.openRuns) ∧
      event.runId ≤ t.idCursors.lastRunId := by
  have hboundary := runBoundary_run hw hevent
  unfold isTerminalRunEntry at hboundary
  rw [hevent] at hboundary
  have hactiveBound : ∀ run, s.runs.active = some run → run.runId ≤ s.idCursors.lastRunId := by
    intro run hactive
    refine (hledger.runs.bound run.runId ?_).2
    simp [RunsState.rows, hactive]
  have htouched : ∀ run run' : ActiveRun, s.runs.active = some run → run'.runId = run.runId →
      run'.firstSeq = run.firstSeq → event.runId = run.runId →
      runBoundary entry = some ⟨run.runId, false⟩ → ∀ id first,
        openRange (log ++ [entry]) id = some first ↔
          (id, first) ∈ ({ s.runs with active := some run' } : RunsState).openRuns := by
    intro run run' hactive hid hfirst _ hrun id first
    rw [h.opens_noted hseq (.inr ⟨_, openRuns_of_active hactive, hrun⟩), h.opens]
    simp [RunsState.openRuns, hactive, hid, hfirst]
  cases applyRunEvent_moves happly with
  | @starts queued rest hfree hqueued =>
    have hmem : (queued.runId, queued.firstSeq) ∈ s.runs.openRuns := by
      simp [RunsState.openRuns, hqueued]
    refine ⟨fun id first => ?_, ?_⟩
    · have hsame : ({ s.runs with queued := rest, active := some (queued.start ms) } :
          RunsState).openRuns = s.runs.openRuns := by
        rw [RunsState.openRuns, RunsState.openRuns, hqueued, hfree]
        rfl
      rw [h.opens_noted hseq (.inr ⟨_, hmem, hboundary⟩), h.opens, ← hsame]
      exact Iff.rfl
    · refine (hledger.runs.bound queued.runId ?_).2
      simp [RunsState.rows, hqueued]
  | @steers run _ _ _ hactive | @stops run hactive =>
    exact ⟨htouched run _ hactive rfl rfl rfl hboundary, hactiveBound run hactive⟩
  | @ends _ run outcome hactive hends =>
    have hid : event.runId = run.runId := by
      cases event <;> first | exact Option.some.inj hends | cases hends
    have hended : runBoundary entry = some ⟨run.runId, true⟩ := by
      cases event <;> first | exact hid ▸ hboundary | cases hends
    exact ⟨ranges_finished hledger h hactive hended, hid ▸ hactiveBound run hactive⟩
  | queues hqueues =>
    cases event with
    | accepted accepted =>
      obtain ⟨-, -, -, hid, rfl⟩ := accepted_eq_ok.mp happly
      refine ⟨fun id first => ?_, le_rfl⟩
      have hfresh : (coreRunRanges log).get? accepted.runId = none := by
        cases hget : (coreRunRanges log).get? accepted.runId with
        | none => rfl
        | some range =>
          have hle := (h.bound _ _ hget).1
          rw [hid] at hle
          exact absurd hle (Nat.not_succ_le_self _)
      have hopenRuns : ({ s.runs with queued := s.runs.queued ++ [accepted.queue entry.seq ms] } :
          RunsState).openRuns = s.runs.openRuns ++ [(accepted.runId, entry.seq)] := by
        simp [RunsState.openRuns, AcceptedRunEvent.queue]
      show _ ↔ (id, first) ∈ ({ s.runs with
        queued := s.runs.queued ++ [accepted.queue entry.seq ms] } : RunsState).openRuns
      rw [hopenRuns, List.mem_append, List.mem_singleton, ← h.opens]
      by_cases heq : accepted.runId = id
      · subst heq
        have hclosed : openRange log accepted.runId = none := by
          rw [openRange, hfresh]
          rfl
        have hbegun : openRange (log ++ [entry]) accepted.runId = some entry.seq :=
          openRange_begun hboundary hfresh
        rw [hbegun, hclosed]
        simp [eq_comm]
      · rw [openRange_ne hboundary heq]
        simp [Ne.symm heq]
    | queuedCancelled runId =>
      obtain ⟨queued, hqueued, rfl⟩ := queuedCancelled_eq_ok.mp happly
      refine ⟨fun id first => ?_, ?_⟩
      · refine h.opens_ended hboundary (fun pair => ?_) id first
        exact mem_openRuns_cancelled hledger.runs hqueued pair
      · have hid := List.find?_some hqueued
        rw [beq_iff_eq] at hid
        refine (hledger.runs.bound runId ?_).2
        have hmem := List.mem_map_of_mem (f := AcceptedRun.runId) (List.mem_of_find?_eq_some hqueued)
        rw [hid] at hmem
        simp only [RunsState.rows, List.map_append, List.map_map, List.mem_append]
        exact .inl (.inr hmem)
    | _ => cases hqueues

/-- Runs are counted up. -/
theorem LedgerInv.lastRunId_le (h : LedgerInv s log) (h' : LedgerInv t (log ++ [entry])) :
    s.idCursors.lastRunId ≤ t.idCursors.lastRunId := by
  have hlength := congrArg List.length h'.accepted
  rw [acceptedRunIds_append, h.accepted, List.length_append, List.length_range',
    List.length_range'] at hlength
  omega

/-- Every warranted event keeps the ranges. -/
theorem ranges_step (hinv : Inv s) (hledger : LedgerInv s log)
    (hledger' : LedgerInv t (log ++ [entry])) (h : RangesInv s log)
    (hw : Warrant base input s entry) (happly : applyEvent s entry = .ok t) :
    RangesInv t (log ++ [entry]) := by
  obtain ⟨hseq, m, hm, ht⟩ := applyEvent_eq_ok.mp happly
  have hnext : t.nextSeq = s.nextSeq + 1 := by
    rw [ht, ← hseq]
    rfl
  have hhead : t.reducedTo.getD 0 = headSeq (log ++ [entry]) := by
    rw [ht]
    simp [headSeq]
  cases hrun : entry.event.isRun with
  | false =>
    have hboundary := runBoundary_other hrun
    have hframe := applyEvent_runsFrame hinv.entries hrun happly
    refine ⟨fun id first => ?_, ?_, hhead⟩
    · rw [openRange_other hboundary, h.opens, openRuns_of_frame hframe]
    · refine h.bound_snoc hseq hnext hframe.lastRunId.ge fun boundary hb => ?_
      rw [hboundary] at hb
      cases hb
  | true =>
    cases hevent : entry.event with
    | run event =>
      simp only [applyEventKind, hevent] at hm
      obtain ⟨hopens, hcounted⟩ := ranges_run hledger h hw hevent hseq hm
      rw [ht] at hnext hhead ⊢
      refine ⟨hopens, h.bound_snoc hseq hnext ?_ fun boundary hb => ?_, hhead⟩
      · exact ht ▸ hledger.lastRunId_le hledger'
      · rw [runBoundary_run hw hevent] at hb
        obtain rfl := Option.some.inj hb
        exact hcounted
    | _ => rw [hevent] at hrun; cases hrun

theorem rangesInv_init : RangesInv CoreAgentState.new [] where
  opens := fun id first => by simp [openRange, coreRunRanges, RunsState.openRuns, CoreAgentState.new]
  bound := fun id range hget => by cases hget
  head := rfl

theorem reachable_ranges (h : Reachable sessionId s log) : RangesInv s log := by
  refine (reachable_preserves (P := fun s log => LedgerInv s log ∧ RangesInv s log)
    ⟨ledgerInv_init, rangesInv_init⟩ ?_ h).2
  rintro base input s log entry t hinv ⟨hledger, hranges⟩ hw happly
  have hledger' := ledger_step hinv hledger hw happly
  exact ⟨hledger', ranges_step hinv hledger hledger' hranges hw happly⟩

/-! ## The fork point -/

/-- The least of two lists with the same members is the same. -/
theorem min?_congr {xs ys : List Nat} (h : ∀ x, x ∈ xs ↔ x ∈ ys) : xs.min? = ys.min? := by
  cases hx : xs.min? with
  | none =>
    rw [List.min?_eq_none_iff] at hx
    subst hx
    have hys : ys = [] := List.eq_nil_iff_forall_not_mem.mpr fun y hy => by simpa using (h y).mpr hy
    rw [hys]
    rfl
  | some least =>
    obtain ⟨hmem, hle⟩ := List.min?_eq_some_iff.mp hx
    exact (List.min?_eq_some_iff.mpr
      ⟨(h least).mp hmem, fun y hy => hle y ((h y).mpr hy)⟩).symm

/-- The store, which scans the log, and the host, which reads the state, find the same fork point. -/
theorem largestSafeForkSeq_state (h : Reachable sessionId s log) :
    largestSafeForkSeqFromState s = largestSafeForkSeq log (headSeq log) := by
  have hranges := reachable_ranges h
  have hsame : (s.runs.active.toList.map ActiveRun.firstSeq ++
      s.runs.queued.map AcceptedRun.firstSeq).min? =
        (((coreRunRanges log).values.filter
          (fun range => range.terminalSeq.isNone)).map RunRange.firstSeq).min? := by
    refine min?_congr fun first => ?_
    have hstate : first ∈ s.runs.active.toList.map ActiveRun.firstSeq ++
        s.runs.queued.map AcceptedRun.firstSeq ↔ ∃ id, (id, first) ∈ s.runs.openRuns := by
      simp only [RunsState.openRuns, List.mem_append, List.mem_map, Prod.mk.injEq]
      constructor
      · rintro (⟨run, hrun, heq⟩ | ⟨run, hrun, heq⟩)
        · exact ⟨run.runId, .inl ⟨run, hrun, rfl, heq⟩⟩
        · exact ⟨run.runId, .inr ⟨run, hrun, rfl, heq⟩⟩
      · rintro ⟨id, ⟨run, hrun, -, heq⟩ | ⟨run, hrun, -, heq⟩⟩
        · exact .inl ⟨run, hrun, heq⟩
        · exact .inr ⟨run, hrun, heq⟩
    rw [hstate, List.mem_map]
    constructor
    · rintro ⟨id, hmem⟩
      obtain ⟨range, hget, hopen⟩ := Option.bind_eq_some_iff.mp ((hranges.opens id first).mpr hmem)
      split_ifs at hopen with hnone
      refine ⟨range, List.mem_filter.mpr ⟨OrdMap.mem_values.mpr ⟨id, hget⟩, hnone⟩, ?_⟩
      exact Option.some.inj hopen
    · rintro ⟨range, hmem, rfl⟩
      obtain ⟨hvalue, hnone⟩ := List.mem_filter.mp hmem
      obtain ⟨id, hget⟩ := OrdMap.mem_values.mp hvalue
      refine ⟨id, (hranges.opens id range.firstSeq).mp ?_⟩
      rw [openRange, hget, Option.bind_some, if_pos hnone]
  unfold largestSafeForkSeqFromState largestSafeForkSeq
  rw [hsame, hranges.head]

/-- A session with a run that has started and one that waits. -/
def queuedBehind : List (Nat × DriveInput) :=
  [(0, .admitCommand (.openSession sampleConfig)),
    (1, .admitCommand (.requestRun { source := ⟨[sampleMessage]⟩ })), (2, .nextAction),
    (3, .admitCommand (.requestRun { source := ⟨[sampleMessage]⟩ }))]

theorem largestSafeForkSeq_queuedBehind : ∃ s log, (drive "session").exec queuedBehind = some (s, log) ∧
    largestSafeForkSeqFromState s = 1 ∧
    largestSafeForkSeqFromState s = largestSafeForkSeq log (headSeq log) := by
  obtain ⟨⟨s, log⟩, hexec, hpoint⟩ : ∃ p ∈ (drive "session").exec queuedBehind,
      largestSafeForkSeqFromState p.1 = 1 := by decide +kernel
  exact ⟨s, log, hexec, hpoint, largestSafeForkSeq_state (EventSource.exec_reaches hexec)⟩

end Lightspeed.Harness
