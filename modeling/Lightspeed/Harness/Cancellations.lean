import Lightspeed.Harness.Approvals

/-!
# Requested cancellations

Once its cancellation is requested a run is cancelling until it ends, and its planner ends it as cancelled.
The results of effects that were under way build their own events. One of them ends the run:
the failure of the compaction that was to make room for it. `cancellation_honoured` holds of the sessions in
which no such failure meets a cancelling run, and `overflow_fails_cancelling` is a session in which one does.
-/

namespace Lightspeed.Harness

open Lib

variable {sessionId : SessionId} {base s t : CoreAgentState} {input : DriveInput}
  {entry : CoreAgentEntry} {log entries : List CoreAgentEntry} {F : RunId → Prop} {ms : Nat}
  {record : RunRecord}

/-! ## What keeps a run cancelling -/

theorem approval_cancelling {event : ApprovalEvent} (h : applyApprovalEvent s ms event = .ok t) :
    ∀ b, t.runs.active = some b → ∃ a, s.runs.active = some a ∧ b.runId = a.runId ∧
      (a.status = .cancelling → b.status = .cancelling) := by
  obtain ⟨run, run', hactive, hjudged, ht⟩ := applyApprovalEvent_moves h
  rw [ht]
  rintro b ⟨⟩
  exact ⟨run, hactive, by rw [hjudged.run], hjudged.cancelling⟩

/-- Only a run event ends a cancellation. -/
theorem applyEvent_cancelling (hinv : EntriesInv s) (hrun : entry.event.isRun = false)
    (h : applyEvent s entry = .ok t) :
    ∀ b, t.runs.active = some b → ∃ a, s.runs.active = some a ∧ b.runId = a.runId ∧
      (a.status = .cancelling → b.status = .cancelling) := by
  cases happroval : entry.event.isApproval with
  | false =>
    intro b hb
    obtain ⟨a, ha, hsteady⟩ := (applyEvent_steady hinv hrun happroval h).2 b hb
    exact ⟨a, ha, hsteady.runId, hsteady.cancelling⟩
  | true =>
    obtain ⟨-, m, hm, rfl⟩ := applyEvent_eq_ok.mp h
    cases hevent : entry.event with
    | approval event =>
      simp only [applyEventKind, hevent] at hm
      exact fun b hb => approval_cancelling hm b hb
    | _ => rw [hevent] at happroval; cases happroval

/-! ## The invariant -/

/-- The run whose cancellation an event requests. -/
def CoreAgentEvent.cancellationRequest : CoreAgentEvent → Option RunId
  | .run (.cancellationRequested runId) => some runId
  | _ => none

/-- The runs whose cancellation a log requests. -/
def cancellationRequests (log : List CoreAgentEntry) : List RunId :=
  log.filterMap fun entry => entry.event.cancellationRequest

theorem cancellationRequests_snoc (log : List CoreAgentEntry) (entry : CoreAgentEntry) :
    cancellationRequests (log ++ [entry]) =
      cancellationRequests log ++ entry.event.cancellationRequest.toList := by
  cases hrequest : entry.event.cancellationRequest <;> simp [cancellationRequests, hrequest]

/-- Whether an event records its run as cancelled. -/
def CoreAgentEvent.recordsCancelled : CoreAgentEvent → Bool
  | .run (.cancelled _) | .run (.forceCancelled _) | .run (.queuedCancelled _) => true
  | _ => false

/-- A run whose cancellation was requested is cancelling, and is recorded as cancelled when it ends,
except for the runs in `F`. -/
structure CancelInv (F : RunId → Prop) (s : CoreAgentState) (log : List CoreAgentEntry) : Prop where
  active : s.ForActive fun run => run.runId ∈ cancellationRequests log → run.status = .cancelling
  running : ∀ id ∈ cancellationRequests log, id ∈ endedRunIds log ∨
    ∃ run, s.runs.active = some run ∧ run.runId = id
  finished : ∀ record ∈ s.runs.finished, record.runId ∈ cancellationRequests log →
    record.status = .cancelled ∨ F record.runId
  ended : ∀ entry ∈ log, ∀ runId, entry.event.endedRunId = some runId →
    runId ∈ cancellationRequests log → entry.event.recordsCancelled = true ∨ F runId

theorem cancelInv_init : CancelInv F CoreAgentState.new [] where
  active := by rintro run ⟨⟩
  running := by rintro id ⟨⟩
  finished := by rintro record ⟨⟩
  ended := by rintro entry ⟨⟩

/-- An event that neither requests a cancellation nor ends a run. -/
theorem CancelInv.quiet (h : CancelInv F s log) (hrequest : entry.event.cancellationRequest = none)
    (hend : entry.event.endedRunId = none) (hfinished : t.runs.finished = s.runs.finished)
    (hactive : ∀ b, t.runs.active = some b →
      (∃ a, s.runs.active = some a ∧ b.runId = a.runId ∧
        (a.status = .cancelling → b.status = .cancelling)) ∨ b.runId ∉ cancellationRequests log)
    (hstays : ∀ a, s.runs.active = some a → ∃ b, t.runs.active = some b ∧ b.runId = a.runId) :
    CancelInv F t (log ++ [entry]) := by
  have hrequests : cancellationRequests (log ++ [entry]) = cancellationRequests log := by
    rw [cancellationRequests_snoc, hrequest, Option.toList_none, List.append_nil]
  refine ⟨?_, ?_, ?_, ?_⟩ <;> rw [hrequests]
  · intro b hb hmem
    rcases hactive b hb with ⟨a, ha, hid, hstatus⟩ | hfresh
    · exact hstatus (h.active a ha (hid ▸ hmem))
    · exact absurd hmem hfresh
  · intro id hmem
    rw [endedRunIds_snoc, hend, Option.toList_none, List.append_nil]
    refine (h.running id hmem).imp_right ?_
    rintro ⟨a, ha, hid⟩
    obtain ⟨b, hb, hsame⟩ := hstays a ha
    exact ⟨b, hb, hsame.trans hid⟩
  · rw [hfinished]
    exact h.finished
  · intro e hmem runId hended
    rcases List.mem_append.mp hmem with hmem | hmem
    · exact h.ended e hmem runId hended
    · rw [List.mem_singleton.mp hmem, hend] at hended
      cases hended

/-- A request makes the active run cancelling. -/
theorem CancelInv.request (h : CancelInv F s log) (hledger : LedgerInv s log)
    (hended : EndedInv s log) {run run' : ActiveRun}
    (hevent : entry.event = .run (.cancellationRequested run.runId))
    (hactive : s.runs.active = some run) (hactive' : t.runs.active = some run')
    (hrun : run'.runId = run.runId) (hstatus : run'.status = .cancelling)
    (hfinished : t.runs.finished = s.runs.finished) : CancelInv F t (log ++ [entry]) := by
  have hrequests : cancellationRequests (log ++ [entry]) =
      cancellationRequests log ++ [run.runId] := by
    rw [cancellationRequests_snoc, hevent]
    rfl
  have hends : endedRunIds (log ++ [entry]) = endedRunIds log := by
    rw [endedRunIds_snoc, hevent]
    exact List.append_nil _
  have hmem : ∀ id ∈ cancellationRequests (log ++ [entry]),
      id ∈ cancellationRequests log ∨ id = run.runId := by
    intro id hid
    rw [hrequests] at hid
    exact (List.mem_append.mp hid).imp_right List.mem_singleton.mp
  refine ⟨?_, ?_, ?_, ?_⟩
  · intro b hb _
    obtain rfl : run' = b := Option.mem_unique hactive' hb
    exact hstatus
  · intro id hid
    rw [hends]
    rcases hmem id hid with hid | rfl
    · refine (h.running id hid).imp_right ?_
      rintro ⟨a, ha, heq⟩
      obtain rfl : run = a := Option.mem_unique hactive ha
      exact ⟨run', hactive', hrun.trans heq⟩
    · exact .inr ⟨run', hactive', hrun⟩
  · rw [hfinished]
    intro record hrecord hid
    rcases hmem record.runId hid with hid | heq
    · exact h.finished record hrecord hid
    · -- The active run stands apart from the records.
      have hdistinct := hledger.runs.distinct
      rw [RunsState.rows, hactive, List.append_assoc, List.map_append] at hdistinct
      have hboth := (List.nodup_append.mp hdistinct).2.2 run.runId (by simp) record.runId (by
        simp only [List.map_append, List.map_map, List.mem_append, List.mem_map]
        exact .inr ⟨record, hrecord, rfl⟩)
      exact absurd heq.symm hboth
  · intro e he runId hend hid
    rcases List.mem_append.mp he with he | he
    · rcases hmem runId hid with hid | rfl
      · exact h.ended e he runId hend hid
      · exact absurd rfl (hended.active _ (mem_endedRunIds.mpr ⟨e, he, hend⟩) run hactive)
    · rw [List.mem_singleton.mp he, hevent] at hend
      cases hend

/-- The end of a run that is recorded as cancelled, or was not to be. -/
theorem CancelInv.end (h : CancelInv F s log) {runId : RunId}
    (hrequest : entry.event.cancellationRequest = none) (hend : entry.event.endedRunId = some runId)
    (hrecord : record.runId = runId)
    (hcancelled : runId ∈ cancellationRequests log →
      (entry.event.recordsCancelled = true ∧ record.status = .cancelled) ∨ F runId)
    (hfinished : ∀ other ∈ t.runs.finished, other ∈ s.runs.finished ∨ other = record)
    (hactive : ∀ b, t.runs.active = some b → s.runs.active = some b)
    (hstays : ∀ a, s.runs.active = some a → a.runId = runId ∨ t.runs.active = some a) :
    CancelInv F t (log ++ [entry]) := by
  have hrequests : cancellationRequests (log ++ [entry]) = cancellationRequests log := by
    rw [cancellationRequests_snoc, hrequest, Option.toList_none, List.append_nil]
  refine ⟨?_, ?_, ?_, ?_⟩ <;> rw [hrequests]
  · exact fun b hb => h.active b (hactive b hb)
  · intro id hmem
    rw [endedRunIds_snoc, hend, Option.toList_some, List.mem_append, List.mem_singleton]
    rcases h.running id hmem with hpast | ⟨a, ha, hid⟩
    · exact .inl (.inl hpast)
    · rcases hstays a ha with heq | hb
      · exact .inl (.inr (hid.symm.trans heq))
      · exact .inr ⟨a, hb, hid⟩
  · intro other hother hmem
    rcases hfinished other hother with hother | rfl
    · exact h.finished other hother hmem
    · rw [hrecord] at hmem ⊢
      exact (hcancelled hmem).imp_left And.right
  · intro e he id hended hmem
    rcases List.mem_append.mp he with he | he
    · exact h.ended e he id hended hmem
    · rw [List.mem_singleton.mp he, hend] at hended
      obtain rfl : runId = id := Option.some.inj hended
      rw [List.mem_singleton.mp he]
      exact (hcancelled hmem).imp_left And.left

/-! ## Steps -/

/-- The failure of a compaction that was to make room for a run, while the run is cancelling. -/
def OverflowFailsCancelling (base : CoreAgentState) (input : DriveInput) : Prop :=
  ∃ run, base.runs.active = some run ∧ run.status = .cancelling ∧ OverflowFails base input

theorem mem_pruneTerminalRunRecords {runs : RunsState}
    (h : record ∈ (pruneTerminalRunRecords runs).finished) : record ∈ runs.finished := by
  simp only [pruneTerminalRunRecords] at h
  exact List.drop_subset _ _ h

theorem mem_finishRun {run : ActiveRun} {outcome : RunOutcome} {seq : Nat}
    (h : record ∈ (s.finishRun run outcome seq ms).runs.finished) :
    record ∈ s.runs.finished ∨ record = run.terminalRecord outcome seq ms := by
  rw [finishRun_runs] at h
  have hmem := mem_pruneTerminalRunRecords h
  exact (List.mem_append.mp hmem).imp_right List.mem_singleton.mp

theorem cancel_run {seq : Nat} {event : RunEvent} (hledger : LedgerInv s log)
    (hended : EndedInv s log) (h : CancelInv F s log)
    (hmeets : ¬ OverflowFailsCancelling base input)
    (hfails : ∀ runId, FailsRun base input runId → F runId) (hknew : Knew base input s (.run event))
    (hevent : entry.event = .run event) (happly : applyRunEvent s seq ms event = .ok t) :
    CancelInv F t (log ++ [entry]) := by
  obtain ⟨entrySeq, entryMs, joins, entryEvent⟩ := entry
  obtain rfl : entryEvent = .run event := hevent
  have hfinish : ∀ run outcome, s.runs.active = some run → t = s.finishRun run outcome seq ms →
      (CoreAgentEvent.run event).endedRunId = some run.runId →
      (CoreAgentEvent.run event).cancellationRequest = none →
      (run.runId ∈ cancellationRequests log →
        ((CoreAgentEvent.run event).recordsCancelled = true ∧ outcome.status = .cancelled) ∨ F run.runId) →
      CancelInv F t (log ++ [⟨entrySeq, entryMs, joins, .run event⟩]) := by
    rintro run outcome hactive rfl hend hrequest hcancelled
    have hrecord : (run.terminalRecord outcome seq ms).runId = run.runId := rfl
    refine h.end hrequest hend hrecord hcancelled (fun other hother => mem_finishRun hother) ?_ ?_
    · rintro b ⟨⟩
    · intro a ha
      obtain rfl : run = a := Option.mem_unique hactive ha
      exact .inl rfl
  cases event with
  | accepted accepted =>
    obtain ⟨-, -, -, -, rfl⟩ := accepted_eq_ok.mp happly
    exact h.quiet rfl rfl rfl (fun b hb => .inl ⟨b, hb, rfl, id⟩) fun a ha => ⟨a, ha, rfl⟩
  | started runId =>
    obtain ⟨-, hnone, queued, rest, hqueued, -, rfl⟩ := started_eq_ok.mp happly
    refine h.quiet rfl rfl rfl ?_ fun a ha => ?_
    · rintro b ⟨⟩
      refine .inr fun hmem => ?_
      rcases h.running _ hmem with hpast | ⟨run, hrun, -⟩
      · exact hended.queued _ hpast queued (hqueued ▸ List.mem_cons_self) rfl
      · rw [hnone] at hrun
        cases hrun
    · rw [hnone] at ha
      cases ha
  | steeringAccepted runId steeringId submissionId contexts =>
    obtain ⟨run, hactive, -, -, -, rfl⟩ := steeringAccepted_eq_ok.mp happly
    refine h.quiet rfl rfl rfl ?_ fun a ha => ⟨_, rfl, ?_⟩
    · rintro b ⟨⟩
      exact .inl ⟨run, hactive, rfl, id⟩
    · obtain rfl : run = a := Option.mem_unique hactive ha
      rfl
  | cancellationRequested runId =>
    obtain ⟨run, hactive, rfl, -, rfl⟩ := cancellationRequested_eq_ok.mp happly
    exact h.request hledger hended rfl hactive rfl rfl rfl rfl
  | completed runId output =>
    obtain ⟨run, hactive, rfl, rfl⟩ := completed_eq_ok.mp happly
    refine hfinish run _ hactive rfl rfl rfl fun hmem => ?_
    -- Only a running run completes.
    exact absurd ((hknew run hactive).1.symm.trans (h.active run hactive hmem)) nofun
  | failed runId failure =>
    obtain ⟨run, hactive, rfl, rfl⟩ := failed_eq_ok.mp happly
    refine hfinish run _ hactive rfl rfl rfl fun hmem => .inr ?_
    have hcancelling := h.active run hactive hmem
    rcases (hknew run hactive).1 with ⟨hrunning, -⟩ | hfail | ⟨origin, horigin, hstatus, hoverflow⟩
    · exact absurd (hrunning.symm.trans hcancelling) nofun
    · exact hfails run.runId hfail
    · exact absurd ⟨origin, horigin, hstatus.trans hcancelling, hoverflow⟩ hmeets
  | cancelled runId =>
    obtain ⟨run, hactive, rfl, -, -, -, rfl⟩ := cancelled_eq_ok.mp happly
    refine hfinish run _ hactive rfl rfl rfl fun _ => .inl ⟨rfl, rfl⟩
  | forceCancelled runId =>
    obtain ⟨run, hactive, rfl, -, rfl⟩ := forceCancelled_eq_ok.mp happly
    refine hfinish run _ hactive rfl rfl rfl fun _ => .inl ⟨rfl, rfl⟩
  | queuedCancelled runId =>
    obtain ⟨queued, hqueued, rfl⟩ := queuedCancelled_eq_ok.mp happly
    have hqueuedId : queued.runId = runId := by simpa using List.find?_some hqueued
    have hid : (queued.cancelledRecord seq ms).runId = runId := hqueuedId
    have hactive : (pruneTerminalRunRecords { s.runs with
        queued := s.runs.queued.eraseP (fun run => run.runId == runId)
        finished := s.runs.finished ++ [queued.cancelledRecord seq ms] }).active = s.runs.active :=
      pruneTerminalRunRecords_active _
    refine h.end rfl rfl hid (fun _ => .inl ⟨rfl, rfl⟩) ?_ ?_ ?_
    · intro other hother
      have hmem := mem_pruneTerminalRunRecords hother
      exact (List.mem_append.mp hmem).imp_right List.mem_singleton.mp
    · exact fun b hb => hactive ▸ hb
    · exact fun a ha => .inr (hactive.trans ha)

/-- Every warranted event keeps the requested cancellations, unless the failure of a compaction meets one
or `FailRun` ends the run. -/
theorem cancel_step (hinv : Inv s) (hledger : LedgerInv s log) (hended : EndedInv s log)
    (h : CancelInv F s log) (hmeets : ¬ OverflowFailsCancelling base input)
    (hfails : ∀ runId, FailsRun base input runId → F runId) (hw : Warrant base input s entry)
    (happly : applyEvent s entry = .ok t) : CancelInv F t (log ++ [entry]) := by
  cases hrun : entry.event.isRun with
  | true =>
    cases hevent : entry.event with
    | run event =>
      obtain ⟨-, m, hm, rfl⟩ := applyEvent_eq_ok.mp happly
      simp only [applyEventKind, hevent] at hm
      have hm' := cancel_run hledger hended h hmeets hfails (hevent ▸ hw.knew) hevent hm
      exact ⟨hm'.active, hm'.running, hm'.finished, hm'.ended⟩
    | _ => rw [hevent] at hrun; cases hrun
  | false =>
    have hframe := applyEvent_runsFrame hinv.entries hrun happly
    have hrequest : entry.event.cancellationRequest = none := by
      cases hevent : entry.event with
      | run event => rw [hevent] at hrun; cases hrun
      | _ => rfl
    refine h.quiet hrequest (endedRunId_of_not_run hrun) hframe.finished (fun b hb => ?_) fun a ha => ?_
    · exact .inl (applyEvent_cancelling hinv.entries hrun happly b hb)
    · obtain ⟨b, hb, hsame⟩ := hframe.stays ha
      exact ⟨b, hb, hsame.runId⟩

/-- A run whose cancellation was requested is recorded as cancelled, in the log and in the state, unless
`FailRun` ended it, in the sessions where no failed compaction that was to make room for a run meets it
cancelling. -/
theorem cancellation_honoured {steps : List (CoreAgentState × Nat × DriveInput)}
    (h : EventSource.Trace (drive sessionId) steps s log)
    (hoverflow : ∀ step ∈ steps, ¬ OverflowFailsCancelling step.1 step.2.2) {runId : RunId}
    (hrequested : runId ∈ cancellationRequests log) :
    ((∀ record ∈ s.runs.finished, record.runId = runId → record.status = .cancelled) ∧
      ∀ entry ∈ log, entry.event.endedRunId = some runId → entry.event.recordsCancelled = true) ∨
      ∃ step ∈ steps, FailsRun step.1 step.2.2 runId := by
  let F : RunId → Prop := fun runId => ∃ step ∈ steps, FailsRun step.1 step.2.2 runId
  let M : CoreAgentState → DriveInput → Prop := fun base input =>
    ¬ OverflowFailsCancelling base input ∧ ∀ runId, FailsRun base input runId → F runId
  have hinv : CancelInv F s log := by
    refine trace_preserves (M := M) cancelInv_init ?_ h fun step hmem => ?_
    · intro base input s log entry t hmeets hinv hledger hended hs hw happly
      exact cancel_step hinv hledger hended hs hmeets.1 hmeets.2 hw happly
    · exact ⟨hoverflow step hmem, fun runId hfail => ⟨step, hmem, hfail⟩⟩
  by_cases hfail : F runId
  · exact .inr hfail
  · refine .inl ⟨fun record hrecord hid => ?_, fun entry hentry hend => ?_⟩
    · exact (hinv.finished record hrecord (hid ▸ hrequested)).resolve_right (hid ▸ hfail)
    · exact (hinv.ended entry hentry runId hend hrequested).resolve_right hfail

/-- A session whose second run overflows its context, waits for a compaction, and is then asked to
cancel. -/
def cancelledOverflow : List (Nat × DriveInput) :=
  [(0, .admitCommand (.openSession { sampleConfig with
      context := { compaction := some (.providerStandalone none none) } })),
    (1, .admitCommand (.requestRun { source := ⟨[sampleMessage]⟩ }))] ++ planTurn 2 ++
  [(3, .resumeGeneration { runId := 1, turnId := 1, status := .succeeded
                           facts := { finish := .stop }, contextEntries := [sampleAnswer] }),
    (4, .nextAction), (5, .admitCommand (.requestRun { source := ⟨[sampleMessage]⟩ }))] ++ planTurn 6 ++
  [(7, .resumeGeneration { runId := 2, turnId := 2, status := .rejected
                           facts := { finish := .contextLimit }, contextEntries := [] }),
    (8, .nextAction), (9, .admitCommand (.cancelRun 2))]

/-- The planner gives the compaction up and cancels the run. -/
def cancelledAfterOverflow : List (Nat × DriveInput) :=
  cancelledOverflow ++ [(10, .nextAction), (10, .nextAction)]

/-- Inputs that bring no compaction's result and no `FailRun`. -/
def DriveInput.failsNothing : DriveInput → Bool
  | .resumeContextCompaction _ | .admitCommand (.failRun _ _) => false
  | _ => true

theorem cancellation_honoured_planned :
    ∃ s log, (drive "session").exec cancelledAfterOverflow = some (s, log) ∧
      2 ∈ cancellationRequests log ∧ 2 ∈ endedRunIds log ∧
      ∀ entry ∈ log, entry.event.endedRunId = some 2 → entry.event.recordsCancelled = true := by
  obtain ⟨⟨s, log⟩, hexec, hrequests, hended⟩ : ∃ p ∈ (drive "session").exec cancelledAfterOverflow,
      cancellationRequests p.2 = [2] ∧ endedRunIds p.2 = [1, 2] := by decide +kernel
  obtain ⟨steps, htrace, hinputs⟩ := EventSource.exec_trace hexec
  have hall : ∀ input ∈ cancelledAfterOverflow, input.2.failsNothing = true := by decide
  have hstep : ∀ step ∈ steps, step.2.2.failsNothing = true := by
    intro step hmem
    refine hall step.2 ?_
    rw [← hinputs]
    exact List.mem_map_of_mem hmem
  have hrequested : 2 ∈ cancellationRequests log := by rw [hrequests]; simp
  refine ⟨s, log, hexec, hrequested, by rw [hended]; simp, ?_⟩
  have hhonoured := cancellation_honoured htrace ?_ hrequested
  · rcases hhonoured with ⟨-, hlog⟩ | ⟨step, hmem, run, messageRef, -, -, hinput⟩
    · exact hlog
    · have hfails := hstep step hmem
      rw [hinput] at hfails
      cases hfails
  · rintro step hmem ⟨-, -, -, result, -, hinput, -⟩
    have hfails := hstep step hmem
    rw [hinput] at hfails
    cases hfails

/-- The compaction fails before the planner gives it up. -/
def overflowFailsLate : List (Nat × DriveInput) :=
  cancelledOverflow ++ [(10, .resumeContextCompaction
    { sessionId := "session", contextRevision := 4, status := .failed })]

/-- The failure of the compaction ends the cancelling run as failed. -/
theorem overflow_fails_cancelling :
    ∃ s log, (drive "session").exec overflowFailsLate = some (s, log) ∧
      2 ∈ cancellationRequests log ∧
      (∃ record ∈ s.runs.finished, record.runId = 2 ∧ record.status = .failed) ∧
      ∀ input ∈ overflowFailsLate, ∀ messageRef, input.2 ≠ .admitCommand (.failRun 2 messageRef) := by
  obtain ⟨⟨s, log⟩, hexec, hrequests, hfinished⟩ : ∃ p ∈ (drive "session").exec overflowFailsLate,
      cancellationRequests p.2 = [2] ∧ p.1.runs.finished.map (fun record =>
        (record.runId, record.status)) = [(1, .completed), (2, .failed)] := by decide +kernel
  refine ⟨s, log, hexec, by rw [hrequests]; simp, ?_, ?_⟩
  · have hmem : (2, RunStatus.failed) ∈ s.runs.finished.map (fun record =>
        (record.runId, record.status)) := by rw [hfinished]; simp
    obtain ⟨record, hrecord, heq⟩ := List.mem_map.mp hmem
    obtain ⟨hid, hstatus⟩ := Prod.mk.inj heq
    exact ⟨record, hrecord, hid, hstatus⟩
  · have hall : ∀ input ∈ cancelledOverflow, input.2.failsNothing = true := by decide
    intro input hmem messageRef hinput
    rcases List.mem_append.mp hmem with hmem | hmem
    · have hfails := hall input hmem
      rw [hinput] at hfails
      cases hfails
    · rw [List.mem_singleton.mp hmem] at hinput
      cases hinput

end Lightspeed.Harness
