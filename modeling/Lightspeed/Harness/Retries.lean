import Lightspeed.Harness.Accepted

/-!
# Retried commands

A caller that lost the answer to a command sends it again. A run and its steering are recognized by their
submission id and compared with what was recorded, a context edit is compared with what its key holds; so a
retry appends nothing, as long as storing the command changed none of its texts. A context edit that names
the revision it expects is the exception: its own append moves the revision on.
-/

namespace Lightspeed.Harness

open Lib

variable {sessionId : SessionId} {s t : CoreAgentState} {command : CoreAgentCommand} {ms : Nat}
  {log entries : List CoreAgentEntry} {proposals : List CoreAgentEventProposal}
  {key : ContextEntryKey} {input : ContextEntryInput}

/-- The commands that a caller may send twice. -/
def CoreAgentCommand.isRetried : CoreAgentCommand → Bool
  | .requestRun request => request.submissionId.isSome
  | .requestRunSteering _ _ _ | .upsertContext _ _ _ => true
  | _ => false

/-- A command whose texts are as they would be stored: none holds `U+0000`. -/
def CoreAgentCommand.AsStored : CoreAgentCommand → Prop
  | .requestRun request => request.source.stored = request.source ∧
      request.runConfig.stored = request.runConfig ∧
      request.notifyOnTerminal.map RunTerminalNotifyIntent.stored = request.notifyOnTerminal
  | .requestRunSteering _ _ input => input.map ContextEntryInput.stored = input
  | .upsertContext _ _ entry => entry.stored = entry
  | _ => True

/-- The revision that a context edit expects. -/
def CoreAgentCommand.expectedRevision : CoreAgentCommand → Option Nat
  | .upsertContext expected _ _ => expected
  | _ => none

/-! ## Appends of one event -/

/-- What an admitted command appends. -/
theorem admitted_commits (hpropose : proposeEntries sessionId s (ms, .admitCommand command) = .ok entries)
    (hcommit : entries.foldlM applyEvent s = .ok t) :
    ∃ proposals, admitCommand s ms command = .ok proposals ∧
      entries = uncommitted s ms proposals ∧
      Commits ms s (withRunTerminalSideEffects s proposals) t := by
  obtain ⟨proposals, hproposals, -, rfl⟩ := proposeEntries_cases hpropose
  refine ⟨proposals, ?_, rfl, hcommit⟩
  simp only [inputProposals] at hproposals
  cases hadmitted : admitCommand s ms command with
  | ok admitted =>
    rw [hadmitted] at hproposals
    cases hproposals
    rfl
  | error error =>
    rw [hadmitted] at hproposals
    cases hproposals

/-- One event that ends no run is reduced as it is. -/
theorem commits_one {proposal : CoreAgentEventProposal} (hends : proposal.event.terminalRunId = none)
    (h : Commits ms s (withRunTerminalSideEffects s [proposal]) t) :
    ∃ m, applyEventKind s (proposal.entry s.nextSeq ms) = .ok m ∧ t = s.reducedAt m := by
  rw [withRunTerminalSideEffects, runTerminalSideEffects, hends, runTerminalSideEffects] at h
  obtain ⟨m, hm, hrest⟩ := commits_cons.mp h
  exact ⟨m, hm, commits_nil.mp hrest⟩

theorem uncommitted_eq_nil : uncommitted s ms proposals = [] ↔ proposals = [] := by
  cases proposals with
  | nil => exact ⟨fun _ => rfl, fun _ => rfl⟩
  | cons proposal rest =>
    refine ⟨fun h => ?_, fun h => by cases h⟩
    unfold uncommitted withRunTerminalSideEffects runTerminalSideEffects at h
    split at h <;> cases h

/-- A command that is recognized appends nothing. -/
theorem propose_nothing (h : admitCommand s ms command = .ok []) :
    proposeEntries sessionId s (ms, .admitCommand command) = .ok [] := by
  simp only [proposeEntries, inputProposals, h]
  rfl

/-! ## Runs -/

theorem requestRun_retried {request : RunRequestCommand}
    (hid : request.submissionId.isSome = true)
    (hstored : (CoreAgentCommand.requestRun request).AsStored)
    (hadmitted : requestRun s request = .ok proposals)
    (hcommit : Commits ms s (withRunTerminalSideEffects s proposals) t) :
    requestRun t request = .ok [] := by
  obtain ⟨id, hid⟩ := Option.isSome_iff_exists.mp hid
  unfold requestRun at hadmitted ⊢
  rw [hid] at hadmitted ⊢
  dsimp only at hadmitted ⊢
  cases hmatch : matchExistingRunSubmission s id request with
  | some found =>
    rw [hmatch] at hadmitted
    cases found with
    | identical =>
      cases hadmitted
      obtain rfl : t = s := commits_nil.mp hcommit
      rw [hmatch]
    | different => cases hadmitted
  | none =>
    rw [hmatch] at hadmitted
    simp only [acceptRun, bind_eq_ok, exists_unit, Except.ok.injEq] at hadmitted
    obtain ⟨-, -, -, -, -, -, rfl⟩ := hadmitted
    obtain ⟨m, hm, rfl⟩ := commits_one rfl hcommit
    obtain ⟨-, -, -, -, hqueue⟩ := accepted_eq_ok.mp hm
    -- No run had the submission id, so the one that was queued is found.
    obtain ⟨hactive, hqueued, -⟩ : s.runs.active.filter (fun run => run.submissionId == some id) = none ∧
        s.runs.queued.find? (fun run => run.submissionId == some id) = none ∧
        s.runs.finished.find? (fun run => run.submissionId == some id) = none := by
      simpa only [matchExistingRunSubmission, Option.or_eq_none_iff, Option.map_eq_none_iff] using hmatch
    obtain ⟨hsource, hconfig, hnotify⟩ := hstored
    have hfound : ∀ m : CoreAgentState, m.runs.active = s.runs.active →
        m.runs.queued = s.runs.queued ++ [AcceptedRunEvent.queue ⟨s.idCursors.lastRunId + 1,
          request.submissionId, request.source.stored, request.runConfig.stored,
          request.inputLimitTokens, s.lifecycle.configRevision,
          request.notifyOnTerminal.map RunTerminalNotifyIntent.stored⟩ s.nextSeq ms] →
        matchExistingRunSubmission m id request = some .identical := by
      intro m hmactive hmqueued
      simp only [matchExistingRunSubmission, hmactive, hactive, hmqueued, List.find?_append, hqueued,
        AcceptedRunEvent.queue, hid, hsource, hconfig, hnotify, List.find?_cons, BEq.rfl,
        Option.map_none, Option.none_or, Option.map_some, Option.some_or, and_self, decide_true,
        SubmissionMatch.of, if_true]
    have hsame : (s.reducedAt m).runs.active = s.runs.active := by rw [hqueue]; rfl
    rw [hfound (s.reducedAt m) hsame (by rw [hqueue]; rfl)]

/-! ## Steering -/

theorem requestRunSteering_retried {runId : RunId} {submissionId : SubmissionId}
    {given : List ContextEntryInput}
    (hstored : (CoreAgentCommand.requestRunSteering runId submissionId given).AsStored)
    (hadmitted : requestRunSteering s runId submissionId given = .ok proposals)
    (hcommit : Commits ms s (withRunTerminalSideEffects s proposals) t) :
    requestRunSteering t runId submissionId given = .ok [] := by
  have hstored : given.map ContextEntryInput.stored = given := hstored
  simp only [requestRunSteering, activeRunForCommand, requireOpen, bind_eq_ok, require_eq_ok,
    exists_unit, orError_eq_ok, Except.ok.injEq] at hadmitted ⊢
  obtain ⟨hopen, run, ⟨run', hactive, haccepts, rfl⟩, hrun, hadmitted⟩ := hadmitted
  split at hadmitted
  next batch hbatch =>
    simp only [bind_eq_ok, require_eq_ok, exists_unit, Except.ok.injEq] at hadmitted
    obtain ⟨hsame, rfl⟩ := hadmitted
    obtain rfl : t = s := commits_nil.mp hcommit
    exact ⟨hopen, run', ⟨run', hactive, haccepts, rfl⟩, hrun, by rw [hbatch]; simp [hsame]⟩
  next hnone =>
    simp only [bind_eq_ok, exists_unit, Except.ok.injEq] at hadmitted
    obtain ⟨-, rfl⟩ := hadmitted
    obtain ⟨m, hm, rfl⟩ := commits_one rfl hcommit
    have hm : applyRunEvent s s.nextSeq ms (.steeringAccepted run'.runId (s.idCursors.lastSteeringId + 1)
      submissionId (given.map ContextEntryInput.stored)) = .ok m := hm
    obtain ⟨run, hactive', hid, -, -, rfl⟩ := steeringAccepted_eq_ok.mp hm
    obtain rfl : run' = run := Option.mem_unique hactive hactive'
    let batch : SteeringBatch := { steeringId := s.idCursors.lastSteeringId + 1, submissionId
                                   input := given.map ContextEntryInput.stored }
    let steered : ActiveRun := { run' with steering := run'.steering ++ [batch] }
    have hfound : steered.steeringForSubmission submissionId = some batch := by
      unfold ActiveRun.steeringForSubmission at hnone ⊢
      change (run'.steering ++ [batch]).find? _ = _
      rw [List.find?_append, hnone, Option.none_or, List.find?_singleton]
      simp [batch]
    refine ⟨hopen, steered, ⟨steered, rfl, haccepts, rfl⟩, hrun, ?_⟩
    rw [hfound]
    simp [batch, hstored]

/-! ## Context -/

/-- The entry that was written last under its key is the current one. -/
theorem currentKeyEntry_appended {rest : List ContextEntry} {written : ContextEntry}
    (hentries : s.context.entries = rest ++ [written]) (hkey : written.key = some key) :
    currentKeyEntry s key = some written := by
  unfold currentKeyEntry
  rw [hentries, List.reverse_concat, List.find?_cons]
  simp [hkey]

/-- Dropping the oldest versions under a key leaves the entry that was written last. -/
theorem capVersions_appended {rest : List ContextEntry} {written : ContextEntry}
    (hentries : s.context.entries = rest ++ [written])
    (hnodup : (s.context.entries.map ContextEntry.entryId).Nodup) :
    ∃ kept, (capVersions s written).context.entries = kept ++ [written] := by
  unfold capVersions
  split
  · exact ⟨rest, hentries⟩
  next key hkey =>
    split_ifs
    · let versions := ((s.context.entries.filter fun entry => entry.key == some key).map
        ContextEntry.entryId).dropLast
      let dropped := versions.take (versions.length - supersededCatalogCap)
      refine ⟨rest.filter fun entry => entry.entryId ∉ dropped, ?_⟩
      change (s.context.entries.filter fun entry => entry.entryId ∉ dropped) = _
      suffices hnot : written.entryId ∉ dropped by
        rw [hentries, List.filter_append, List.filter_cons_of_pos (by simpa using hnot), List.filter_nil]
      intro hdropped
      have hdropped := List.take_subset _ _ hdropped
      simp only [versions] at hdropped
      rw [hentries, List.filter_append, List.filter_cons_of_pos (by simp [hkey]), List.filter_nil,
        List.map_append, List.map_singleton, List.dropLast_concat] at hdropped
      have hmem : written.entryId ∈ rest.map ContextEntry.entryId :=
        (List.filter_sublist.map _).subset hdropped
      rw [hentries, List.map_append, List.nodup_append] at hnodup
      exact hnodup.2.2 _ hmem _ (by simp) rfl
    · exact ⟨rest, hentries⟩

/-- A write under a key is what the key then holds. -/
theorem applyEntry_current {written : ContextEntry} (hinv : EntriesInv s)
    (hkey : written.key = some key) (h : applyEntry s written = .ok t) :
    currentKeyEntry t key = some written := by
  obtain ⟨hvalid, recorded, replaced, hrecorded, hreplaced, rfl⟩ := applyEntry_eq_ok.mp h
  have hid := (validateNextEntry_eq_ok.mp hvalid).1
  obtain ⟨-, hcontext, hcursors⟩ := recordEntryMaterialization_frame hrecorded
  obtain ⟨kept, rfl, hsub, -⟩ := replaceKeyed_spec hreplaced
  have hrecordedInv : EntriesInv recorded :=
    ⟨by rw [hcontext]; exact hinv.sorted, by rw [hcontext, hcursors]; exact hinv.bound⟩
  have hnext : written.entryId = (recorded.setEntries kept).idCursors.lastContextEntryId + 1 := by
    rw [← hcursors] at hid
    exact hid
  have happended := (hrecordedInv.of_sublist hsub).appendEntry hnext
  obtain ⟨rest, hrest⟩ := capVersions_appended (s := appendEntry (recorded.setEntries kept) written)
    rfl happended.nodup
  exact currentKeyEntry_appended hrest hkey

/-- Replacing an entry under its key replaces what the key holds. -/
theorem currentKeyEntry_replaced {current : ContextEntry} (replacement : ContextEntry) (hinv : EntriesInv s)
    (hcurrent : currentKeyEntry s key = some current) (hid : replacement.entryId = current.entryId)
    (hkey : replacement.key = current.key)
    (hentries : t.context.entries = replaceEntry s.context.entries replacement) :
    currentKeyEntry t key = some replacement := by
  let replace (entry : ContextEntry) : ContextEntry :=
    if entry.entryId = replacement.entryId then { replacement with key := entry.key } else entry
  have hmem : current ∈ s.context.entries := List.mem_reverse.mp (List.mem_of_find?_eq_some hcurrent)
  have hmap : t.context.entries = s.context.entries.map replace := by
    rw [hentries, replaceEntry]
    refine List.map_congr_left fun entry hentry => ?_
    simp only [replace]
    split_ifs with hsame
    · obtain rfl : entry = current := hinv.eq_of_id hentry hmem (hsame.trans hid)
      rw [← hkey]
    · rfl
  have hkeys : (fun entry : ContextEntry => entry.key == some key) ∘ replace =
      fun entry => entry.key == some key := by
    funext entry
    simp only [Function.comp_apply, replace]
    split_ifs <;> rfl
  unfold currentKeyEntry at hcurrent ⊢
  rw [hmap, ← List.map_reverse, List.find?_map, hkeys, hcurrent, Option.map_some]
  simp only [replace, if_pos hid.symm, ← hkey]

/-- What an upsert recorded is what its key holds, at the next revision. -/
theorem upsert_recorded {expected : Option Nat} (hinv : EntriesInv s)
    (hadmitted : upsertContext s expected key input = .ok proposals) (hne : proposals ≠ [])
    (hcommit : Commits ms s (withRunTerminalSideEffects s proposals) t) :
    (currentKeyEntry t key).map ContextEntry.toInput = some input.stored ∧
      t.context.revision = s.context.revision + 1 ∧ t.lifecycle = s.lifecycle ∧
      t.context.compaction = s.context.compaction := by
  simp only [upsertContext, bind_eq_ok, policy_eq_ok, exists_unit] at hadmitted
  obtain ⟨-, -, -, hadmitted⟩ := hadmitted
  split_ifs at hadmitted with hnoop
  · cases hadmitted
    exact absurd rfl hne
  cases hreplacement : catalogMetadataReplacement s key input with
  | some replacement =>
    rw [hreplacement] at hadmitted
    cases hadmitted
    obtain ⟨m, hm, rfl⟩ := commits_one rfl hcommit
    have hm : applyContextEvent s (.entriesReplaced s.context.revision [replacement.stored]) = .ok m := hm
    obtain ⟨-, -, -, -, rfl⟩ := entriesReplaced_eq_ok.mp hm
    refine ⟨?_, rfl, rfl, rfl⟩
    simp only [catalogMetadataReplacement, Option.bind_eq_bind, Option.bind_eq_some_iff] at hreplacement
    obtain ⟨current, hcurrent, hreplacement⟩ := hreplacement
    split_ifs at hreplacement with hkind
    obtain ⟨active, hactive, rfl⟩ := Option.map_eq_some_iff.mp hreplacement
    have hmem : current ∈ s.context.entries :=
      List.mem_reverse.mp (List.mem_of_find?_eq_some hcurrent)
    have hsame : active = current := by
      have hid : active.entryId = current.entryId := by
        simpa using List.find?_some hactive
      exact hinv.eq_of_id (List.mem_of_find?_eq_some hactive) hmem hid
    have hkey : active.key = current.key := by rw [hsame]
    let replacement := (input.commit current.entryId active.key active.source active.supersedes).stored
    have hheld := currentKeyEntry_replaced (t := s.reducedAt (bumpContextRevision (s.setEntries
      (replaceEntry s.context.entries replacement)))) replacement hinv hcurrent rfl hkey rfl
    exact congrArg (Option.map ContextEntry.toInput) hheld
  | none =>
    rw [hreplacement] at hadmitted
    cases hadmitted
    obtain ⟨m, hm, rfl⟩ := commits_one rfl hcommit
    let written := (input.commit (s.idCursors.lastContextEntryId + 1) (some key) .contextEdit
      (supersedeTarget s key input.kind)).stored
    have hm : applyContextEvent s (.entriesApplied s.context.revision [written]) = .ok m := hm
    obtain ⟨-, u, hu, rfl⟩ := entriesApplied_eq_ok.mp hm
    obtain ⟨-, -, hu⟩ := applyEntriesApplied_eq_ok.mp hu
    obtain ⟨u', hu', hdone⟩ := foldlM_cons_eq_ok.mp hu
    obtain rfl : u' = u := Except.ok.inj hdone
    obtain ⟨hframe, -⟩ := applyEntry_spec hinv hu'
    have hcurrent : currentKeyEntry u' key = some written := applyEntry_current hinv rfl hu'
    have hcurrent' : currentKeyEntry (s.reducedAt (bumpContextRevision u')) key = some written := hcurrent
    refine ⟨by rw [hcurrent']; rfl, ?_, ?_, ?_⟩
    · change u'.context.revision + 1 = _
      rw [hframe.context]
    · change u'.lifecycle = _
      rw [hframe.state]
    · change u'.context.compaction = _
      rw [hframe.context]

theorem upsertContext_retried {expected : Option Nat} (hinv : EntriesInv s)
    (hstored : (CoreAgentCommand.upsertContext expected key input).AsStored)
    (hadmitted : upsertContext s expected key input = .ok proposals)
    (hcommit : Commits ms s (withRunTerminalSideEffects s proposals) t) :
    if expected = none ∨ proposals = [] then upsertContext t expected key input = .ok []
    else ∃ message, upsertContext t expected key input =
      .error (.rejected .revisionConflict message) := by
  by_cases hne : proposals = []
  · subst hne
    obtain rfl : t = s := commits_nil.mp hcommit
    rw [if_pos (.inr rfl)]
    exact hadmitted
  obtain ⟨hcurrent, hrevision, hlifecycle, hcompaction⟩ := upsert_recorded hinv hadmitted hne hcommit
  simp only [upsertContext, bind_eq_ok, policy_eq_ok, exists_unit] at hadmitted
  obtain ⟨heditable, hpolicy, hexpected, -⟩ := hadmitted
  have heditable' : requireEditableContext t = .ok () := by
    unfold requireEditableContext requireOpen requireNoPendingCompaction at heditable ⊢
    rw [hlifecycle, hcompaction]
    exact heditable
  have hpolicy' : policy (validateExternalContextEdit key input) = .ok () := policy_eq_ok.mpr hpolicy
  have hnoop : contextUpsertIsNoop t key input = true := by
    obtain ⟨current, hheld, hinput⟩ := Option.map_eq_some_iff.mp hcurrent
    have hsame : input.stored = input := hstored
    unfold contextUpsertIsNoop
    rw [hheld, Option.any_some, hinput, hsame]
    exact BEq.rfl
  unfold upsertContext
  rw [heditable', hpolicy']
  cases expected with
  | none =>
    rw [if_pos (.inl rfl)]
    simp only [validateExpectedRevision, ok_bind, if_pos hnoop]
  | some revision =>
    rw [if_neg (by simpa using hne)]
    simp only [validateExpectedRevision, require_eq_ok] at hexpected
    have hmoved : revision ≠ t.context.revision := by rw [hexpected, hrevision]; omega
    obtain ⟨message, hrefused⟩ : ∃ message, validateExpectedRevision "context" (some revision)
        t.context.revision = .error (.rejected .revisionConflict message) := ⟨_, if_neg hmoved⟩
    rw [hrefused]
    exact ⟨message, rfl⟩

/-! ## Whole sessions -/

/-- A command sent again right after its append is recognized, and appends nothing; but a context edit
that named the revision it expected and was recorded is refused, as the revision has moved on. -/
theorem retries_recognized (h : Reachable sessionId s log) (hretried : command.isRetried = true)
    (hstored : command.AsStored)
    (hpropose : proposeEntries sessionId s (ms, .admitCommand command) = .ok entries)
    (hcommit : entries.foldlM applyEvent s = .ok t) (later : Nat) :
    if command.expectedRevision = none ∨ entries = [] then
      proposeEntries sessionId t (later, .admitCommand command) = .ok []
    else ∃ message, proposeEntries sessionId t (later, .admitCommand command) =
      .error (.command (.rejected .revisionConflict message)) := by
  obtain ⟨proposals, hadmitted, rfl, hcommits⟩ := admitted_commits hpropose hcommit
  cases command with
  | requestRun request =>
    rw [if_pos (.inl rfl)]
    exact propose_nothing (requestRun_retried hretried hstored hadmitted hcommits)
  | requestRunSteering runId submissionId given =>
    rw [if_pos (.inl rfl)]
    exact propose_nothing (requestRunSteering_retried hstored hadmitted hcommits)
  | upsertContext expected key input =>
    have hagain := upsertContext_retried (reachable_inv h).1.entries hstored hadmitted hcommits
    have hnil : uncommitted s ms proposals = [] ↔ proposals = [] := uncommitted_eq_nil
    simp only [CoreAgentCommand.expectedRevision, hnil]
    split_ifs at hagain ⊢ with hquiet
    · exact propose_nothing hagain
    · obtain ⟨message, hagain⟩ := hagain
      refine ⟨message, ?_⟩
      simp only [proposeEntries, inputProposals, admitCommand, hagain, error_bind]
  | _ => cases hretried

/-- A run request that can be told from others. -/
def sampleSubmission : CoreAgentCommand :=
  .requestRun { submissionId := some "submission", source := ⟨[sampleMessage]⟩ }

/-- A context edit for the revision at which a session opens. -/
def sampleEdit : CoreAgentCommand := .upsertContext (some 0) "note" sampleMessage

/-- A run request with a character in it that a log cannot hold. -/
def nulSubmission : CoreAgentCommand :=
  .requestRun { submissionId := some "submission"
                source := ⟨[{ sampleMessage with preview := some (String.ofList [Char.ofNat 0]) }]⟩ }

theorem retries_recognized_sampleSubmission : ∃ s log entries t,
    (drive "session").exec [(0, .admitCommand (.openSession sampleConfig))] = some (s, log) ∧
    proposeEntries "session" s (1, .admitCommand sampleSubmission) = .ok entries ∧
    entries.foldlM applyEvent s = .ok t ∧
    proposeEntries "session" t (2, .admitCommand sampleSubmission) = .ok [] := by
  have hsome : ((drive "session").exec ([(0, .admitCommand (.openSession sampleConfig))] ++
      [(1, .admitCommand sampleSubmission)])).isSome = true := by
    decide +kernel
  obtain ⟨⟨t, log⟩, hexec⟩ := Option.isSome_iff_exists.mp hsome
  obtain ⟨s, log', entries, hbefore, hpropose, hcommit, -⟩ := EventSource.exec_concat hexec
  have hstored : sampleSubmission.AsStored := ⟨by decide +kernel, rfl, rfl⟩
  exact ⟨s, log', entries, t, hbefore, hpropose, hcommit,
    retries_recognized (EventSource.exec_reaches hbefore) rfl hstored hpropose hcommit 2⟩

/-- A command that is accepted and committed, and does not come to nothing when it is sent again. -/
def RefusedAgain (command : CoreAgentCommand) : Prop :=
  command.isRetried = true ∧ ∃ s log entries t, Reachable "session" s log ∧
    proposeEntries "session" s (1, .admitCommand command) = .ok entries ∧
    entries.foldlM applyEvent s = .ok t ∧
    proposeEntries "session" t (2, .admitCommand command) ≠ .ok []

/-- A command is refused again when a run that ends with it says so. -/
theorem refusedAgain_of_exec {command : CoreAgentCommand} (hretried : command.isRetried = true)
    (hrefused : ((drive "session").exec ([(0, .admitCommand (.openSession sampleConfig))] ++
      [(1, .admitCommand command)])).map (fun p =>
        (proposeEntries "session" p.1 (2, .admitCommand command)).toOption.isSome) = some false) :
    RefusedAgain command := by
  obtain ⟨⟨t, log⟩, hexec, hagain⟩ := Option.map_eq_some_iff.mp hrefused
  obtain ⟨s, log', entries, hbefore, hpropose, hcommit, -⟩ := EventSource.exec_concat hexec
  refine ⟨hretried, s, log', entries, t, EventSource.exec_reaches hbefore, hpropose, hcommit, ?_⟩
  intro hok
  rw [hok] at hagain
  cases hagain

/-- A context edit that expects a revision is refused when it is sent again, and so is text that a log
cannot hold. -/
theorem retries_refused : RefusedAgain sampleEdit ∧ RefusedAgain nulSubmission :=
  ⟨refusedAgain_of_exec rfl (by decide +kernel), refusedAgain_of_exec rfl (by decide +kernel)⟩

end Lightspeed.Harness
