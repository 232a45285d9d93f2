import Mathlib.Algebra.GroupWithZero.Nat
import Lightspeed.Harness.Recovery

/-!
# Making way for a recovery

After an overflow the planners ask for a compaction, start another turn or fail the run, unless they have to
make way for that first (`AfterOverflow`): give up a compaction that a caller waits for, remove what a provider
compacted, write steering into context. Whatever they plan is taken, and what makes way lowers `overflowRank`.
-/

namespace Lightspeed.Harness

open Lib

variable {sessionId : SessionId} {s t u : CoreAgentState} {run : ActiveRun} {turn : TurnState}
  {proposal : CoreAgentEventProposal} {proposals : List CoreAgentEventProposal}
  {log entries : List CoreAgentEntry} {ms : Nat} {turnId : TurnId}

/-! ## What is left to make way for -/

/-- How many inputs of a steering batch are not in context yet. -/
def SteeringBatch.owed (steering : SteeringBatch) : Nat :=
  steering.input.length - steering.entryIds.length

/-- How much of a run's steering is not in context yet. -/
def ActiveRun.owed (run : ActiveRun) : Nat :=
  (run.steering.map SteeringBatch.owed).sum

/-- What writing steering lowers: an input that is written pays for its entry twice. -/
def writeRank (s : CoreAgentState) : Nat :=
  2 * s.runs.active.elim 0 ActiveRun.owed + s.context.entries.length

/-- How much the planners may do after an overflow before they get to the run itself. -/
def overflowRank (s : CoreAgentState) : Nat :=
  writeRank s + if s.context.compaction.isQueued then 1 else 0

theorem recordSteeringInput_owed {steering after : SteeringBatch} {e : ContextEntry} {index : Nat}
    (h : recordSteeringInput steering e index = .ok after) : after.owed + 1 = steering.owed := by
  simp only [recordSteeringInput, bind_eq_ok, orError_eq_ok, require_eq_ok, exists_unit,
    Except.ok.injEq] at h
  obtain ⟨input, hinput, -, hindex, rfl⟩ := h
  have hbound : index < steering.input.length := (List.getElem?_eq_some_iff.mp hinput).1
  simp only [SteeringBatch.owed, List.length_append, List.length_singleton]
  omega

theorem updateSteering_owed {steeringId : SteeringId} {f : SteeringBatch → Result SteeringBatch}
    {missing : DomainError} {batches after : List SteeringBatch}
    (hf : ∀ steering steering', f steering = .ok steering' → steering'.owed + 1 = steering.owed)
    (h : updateSteering steeringId f missing batches = .ok after) :
    (after.map SteeringBatch.owed).sum + 1 = (batches.map SteeringBatch.owed).sum := by
  induction batches generalizing after with
  | nil => cases h
  | cons first rest ih =>
    rw [updateSteering] at h
    split_ifs at h
    · obtain ⟨first', hfirst, h⟩ := bind_eq_ok.mp h
      cases h
      have hpaid := hf first first' hfirst
      simp only [List.map_cons, List.sum_cons]
      omega
    · obtain ⟨rest', hrest, h⟩ := bind_eq_ok.mp h
      cases h
      have hpaid := ih hrest
      simp only [List.map_cons, List.sum_cons]
      omega

/-- Whether an entry holds steering. -/
def ContextEntry.Steers (e : ContextEntry) : Prop :=
  ∃ runId steeringId index, e.source = .steering runId steeringId index

/-- An entry with steering is one input that its run no longer owes. -/
theorem record_owed {e : ContextEntry} (hsource : e.Steers) (h : recordEntryMaterialization s e = .ok t) :
    t.runs.active.elim 0 ActiveRun.owed + 1 = s.runs.active.elim 0 ActiveRun.owed := by
  obtain ⟨runId, steeringId, index, hsource⟩ := hsource
  simp only [recordEntryMaterialization, hsource, bind_eq_ok, activeRunRef_eq_ok, Except.ok.injEq] at h
  obtain ⟨run, ⟨hactive, -⟩, steering, hsteering, rfl⟩ := h
  have hpaid := updateSteering_owed (fun _ _ hrecord => recordSteeringInput_owed hrecord) hsteering
  simp only [CoreAgentState.setActive, hactive, Option.elim_some, ActiveRun.owed]
  exact hpaid

theorem applyEntry_rank {e : ContextEntry} (hsource : e.Steers) (h : applyEntry s e = .ok t) :
    writeRank t + 1 ≤ writeRank s := by
  obtain ⟨-, recorded, replaced, hrecorded, hreplaced, rfl⟩ := applyEntry_eq_ok.mp h
  have hpaid := record_owed hsource hrecorded
  obtain ⟨-, hcontext, -⟩ := recordEntryMaterialization_frame hrecorded
  obtain ⟨kept, rfl, hsub, -⟩ := replaceKeyed_spec hreplaced
  have hkept := hsub.length_le
  rw [hcontext] at hkept
  have hcapped : (capVersions (appendEntry (recorded.setEntries kept) e) e).runs = recorded.runs ∧
      (capVersions (appendEntry (recorded.setEntries kept) e) e).context.entries.length ≤
        kept.length + 1 := by
    have hlength : (appendEntry (recorded.setEntries kept) e).context.entries.length = kept.length + 1 :=
      List.length_append
    unfold capVersions
    split
    · exact ⟨rfl, hlength.le⟩
    · split_ifs
      · exact ⟨rfl, (List.length_filter_le _ _).trans hlength.le⟩
      · exact ⟨rfl, hlength.le⟩
  rw [writeRank, writeRank, hcapped.1]
  have hlength := hcapped.2
  omega

theorem applyEntries_rank {written : List ContextEntry} (hsource : ∀ e ∈ written, e.Steers)
    (h : written.foldlM applyEntry s = .ok t) : writeRank t + written.length ≤ writeRank s := by
  induction written generalizing s with
  | nil =>
    obtain rfl := pure_eq_ok.mp h
    exact le_rfl
  | cons first rest ih =>
    obtain ⟨m, hm, hrest⟩ := foldlM_cons_eq_ok.mp h
    have hfirst := applyEntry_rank (hsource first List.mem_cons_self) hm
    have hlater := ih (fun e hmem => hsource e (List.mem_cons_of_mem _ hmem)) hrest
    rw [List.length_cons]
    omega

theorem missingSteering_steers : ∀ e ∈ missingSteeringEntries s, e.Steers := by
  intro e hmem
  unfold missingSteeringEntries missingSteeringEntriesAfter at hmem
  split at hmem
  · cases hmem
  · obtain ⟨sourced, hsourced, id, rfl⟩ := mem_contextEntriesAfter hmem
    obtain ⟨batch, -, hsourced⟩ := List.mem_flatMap.mp hsourced
    obtain ⟨⟨input, index⟩, -, rfl⟩ := List.mem_map.mp hsourced
    exact ⟨_, _, _, rfl⟩

/-! ## What is planned -/

/-- Whether an event is one that an overflow comes to: a compaction, another turn, or the run's failure. -/
def CoreAgentEvent.resolvesOverflow : CoreAgentEvent → Bool
  | .context (.compactionRequested _ _ _) | .turn (.started _ _) | .run (.failed _ _) => true
  | _ => false

/-- What the planners may propose after an overflow. -/
inductive AfterOverflow (s : CoreAgentState) (run : ActiveRun) : CoreAgentEventProposal → Prop
  /-- The run fails. -/
  | fail {joins : CoreAgentJoins} {failure : RunFailure} :
      AfterOverflow s run ⟨joins, .run (.failed run.runId failure)⟩
  /-- A compaction is asked for. -/
  | request {trigger : ContextCompactionTrigger} {tokens : Option Nat}
      (hboundary : compactionSafeBoundary s = true) (hcovers : standalonePrefixIds s ≠ []) :
      AfterOverflow s run (compactionRequestedProposal s trigger tokens)
  /-- Another turn starts. -/
  | start : AfterOverflow s run (turnProposal run.runId (s.idCursors.lastTurnId + 1)
      (.turn (.started (s.idCursors.lastTurnId + 1) run.runId)))
  /-- A caller is told that there is nothing to compact. -/
  | abandon (hqueued : s.context.compaction.isQueued = true) :
      AfterOverflow s run (compactionAbandonedProposal s)
  /-- What a provider compacted is removed. -/
  | prune (hsome : (providerCompactedEntries s).map ContextEntry.entryId ≠ []) :
      AfterOverflow s run (sessionProposal (.context (.entriesRemoved s.context.revision
        ((providerCompactedEntries s).map ContextEntry.entryId) .providerCompacted)))
  /-- Steering goes into context. -/
  | steer (hmissing : missingSteeringEntries s ≠ []) :
      AfterOverflow s run (entriesAppliedProposal s run.runId (missingSteeringEntries s))

/-- A turn that overflowed ends its run as failed, if it ends it. -/
theorem Overflowed.failed (h : Overflowed s run turnId turn) {event : RunEvent}
    (hevent : turnTerminalEvent s run turnId turn = .ok (some event)) :
    ∃ failure, event = .failed run.runId failure := by
  obtain ⟨failureRef, houtcome⟩ := h.outcome
  rw [turnTerminalEvent, h.ended, houtcome] at hevent
  dsimp only at hevent
  unfold turnLimitFailure at hevent
  split_ifs at hevent <;> cases hevent <;> exact ⟨_, rfl⟩

theorem afterOverflow_of_planned (hinv : Inv s) (hcalm : Calm s) (hsupplied : Supplied s)
    (h : Overflowed s run turnId turn) (hplan : Planned s proposals) :
    ∃ proposal, proposals = [proposal] ∧ AfterOverflow s run proposal := by
  have hidle := h.boundary hinv
  have hsame : ∀ {run'}, s.runs.active = some run' → run' = run :=
    fun hactive => Option.mem_unique hactive h.active
  cases hplan with
  | parkRun hopen hactive hstatus hidle' hpending =>
    obtain rfl := hsame hactive
    exact absurd (h.unasked hcalm) hpending
  | startRun hopen hactive =>
    rw [h.active] at hactive
    cases hactive
  | cancelRun hopen hactive hstatus | cancelCalls hopen hactive hstatus | cancelTurn hopen hactive hstatus =>
    obtain rfl := hsame hactive
    rw [h.running] at hstatus
    cases hstatus
  | endRun hopen hactive hstatus hturn hbatch happroval hlast hevent =>
    obtain rfl := hsame hactive
    obtain ⟨rfl, rfl⟩ := Prod.mk.inj (Option.mem_unique h.latest hlast)
    obtain ⟨failure, rfl⟩ := h.failed hevent
    exact ⟨_, rfl, .fail⟩
  | guardRun hopen hactive =>
    obtain rfl := hsame hactive
    exact ⟨_, rfl, .fail⟩
  | startCalls hopen hactive hstatus hturn hid | completeBatch hopen hactive hstatus hturn hid =>
    obtain rfl := hsame hactive
    rw [hidle.batch] at hid
    cases hid
  | startBatch hopen hactive hstatus hturn hbatch hget hawaits =>
    obtain rfl := hsame hactive
    simp only [awaitsBatch, Bool.and_eq_true, beq_iff_eq, Bool.not_eq_true'] at hawaits
    have hheld := (hinv.run _ hactive).hasBatchOf_of_boundary hidle hget hawaits.1.2
    rw [hheld] at hawaits
    cases hawaits.2
  | abandonCompaction hopen hphase =>
    exact ⟨_, rfl, .abandon (hphase.resolve_left (by simp [h.idle]))⟩
  | pruneContext hopen hcompaction hproposal =>
    obtain ⟨hnone, rfl⟩ := providerCompactedPrune_eq_some hproposal
    exact ⟨_, rfl, .prune hnone⟩
  | requestCompaction hopen hboundary happroval hcovers => exact ⟨_, rfl, .request hboundary hcovers⟩
  | applyInput hopen hactive hstatus hcompaction hentries =>
    -- All input was in context when the turn started.
    obtain rfl := hsame hactive
    have hlength := hsupplied _ hactive (by simp [h.latest])
    refine absurd ?_ hentries
    rw [missingRunInputEntries, contextEntriesFromInputs, contextEntriesAfter_eq_nil,
      List.map_eq_nil_iff, List.drop_eq_nil_iff, List.length_zipIdx]
    exact hlength
  | applySteering hopen hactive hstatus hcompaction hturn hbatch htool hentries =>
    obtain rfl := hsame hactive
    exact ⟨_, rfl, .steer hentries⟩
  | planTurn hopen hactive hstatus hbatch hid | requestGeneration hopen hactive hid =>
    obtain rfl := hsame hactive
    rw [hidle.turn] at hid
    cases hid
  | startTurn hopen hactive =>
    obtain rfl := hsame hactive
    exact ⟨_, rfl, .start⟩

/-! ## What it comes to -/

/-- A run that a context event leaves alone has still overflowed, unless a compaction is pending. -/
theorem Overflowed.of_context {event : ContextEvent} (hinv : EntriesInv s)
    (happly : applyContextEvent s event = .ok t) (hidle : t.context.compaction.isPending = false)
    (h : Overflowed s run turnId turn) :
    ∃ run', run'.runId = run.runId ∧ Overflowed t run' turnId turn := by
  have hframe := applyContextEvent_frame hinv happly
  have hstays : t.runs.active ≠ none := by
    intro hnone
    have hgone := hframe.inactive hnone
    rw [h.active] at hgone
    cases hgone
  obtain ⟨b, hb⟩ := Option.ne_none_iff_exists'.mp hstays
  obtain ⟨a, ha, hab⟩ := hframe.active b hb
  obtain rfl : run = a := Option.mem_unique h.active ha
  refine ⟨b, hab.same.runId, hb, ?_, ?_, h.ended, h.overflowed, hidle⟩
  · rw [hab.run]
    exact h.running
  · rw [hab.run]
    exact h.latest

theorem abandoned_rank (hqueued : s.context.compaction.isQueued = true) :
    overflowRank (finishCompaction s .failed none none) < overflowRank s := by
  have hsame : writeRank (finishCompaction s .failed none none) = writeRank s := by
    cases hactive : s.runs.active with
    | none | some run => simp only [writeRank, finishCompaction, CoreAgentState.mapActive, hactive]; rfl
  have hdone : (finishCompaction s .failed none none).context.compaction.isQueued = false := rfl
  rw [overflowRank, overflowRank, hsame, hdone, if_pos hqueued]
  exact Nat.lt_succ_self _

/-- Entries that are removed are no longer counted. -/
theorem removed_rank {ids : List ContextEntryId} (hsome : ids ≠ [])
    (hknown : ∀ id ∈ ids, (entryById s id).isSome = true) :
    overflowRank (s.setEntries (s.context.entries.filter fun e => e.entryId ∉ ids)) < overflowRank s := by
  obtain ⟨id, hid⟩ := List.exists_mem_of_ne_nil _ hsome
  obtain ⟨e, hfound⟩ := Option.isSome_iff_exists.mp (hknown id hid)
  have hmem : e ∈ s.context.entries := List.mem_of_find?_eq_some hfound
  have hremoved : e.entryId = id := by simpa using List.find?_some hfound
  have hlength : (s.context.entries.filter fun e => e.entryId ∉ ids).length < s.context.entries.length :=
    List.length_filter_lt_length_iff_exists.mpr ⟨e, hmem, by simpa [hremoved] using hid⟩
  rw [overflowRank, overflowRank, writeRank, writeRank]
  exact Nat.add_lt_add_right (Nat.add_lt_add_left hlength _) _

theorem written_rank {written : List ContextEntry} (hinv : EntriesInv s) (hsome : written ≠ [])
    (hsource : ∀ e ∈ written, e.Steers) (h : written.foldlM applyEntry s = .ok t) :
    t.context.compaction = s.context.compaction ∧ overflowRank t < overflowRank s := by
  have hframe := (applyEntries_spec hinv h).1
  have hcompaction : t.context.compaction = s.context.compaction := by rw [hframe.context]
  refine ⟨hcompaction, ?_⟩
  have hlower := applyEntries_rank hsource h
  have hlength := List.length_pos_iff.mpr hsome
  rw [overflowRank, overflowRank, hcompaction]
  omega

/-- Entries that are in context, each once, and that no run waits for, may be removed. -/
theorem entriesRemoved_taken {removed : List ContextEntry} {reason : ContextRemovalReason}
    (hinv : EntriesInv s) (hsub : removed.Sublist s.context.entries)
    (hremovable : ∀ e ∈ removed, isRemovable s e.entryId = true)
    (hsome : removed.map ContextEntry.entryId ≠ []) :
    (∀ id ∈ removed.map ContextEntry.entryId, (entryById s id).isSome = true) ∧
      applyContextEvent s (.entriesRemoved s.context.revision (removed.map ContextEntry.entryId) reason) =
        .ok (bumpContextRevision (s.setEntries
          (s.context.entries.filter fun e => e.entryId ∉ removed.map ContextEntry.entryId))) := by
  have hknown : ∀ id ∈ removed.map ContextEntry.entryId, (entryById s id).isSome = true := by
    intro id hid
    obtain ⟨e, hmem, rfl⟩ := List.mem_map.mp hid
    refine List.find?_isSome.mpr ⟨e, hsub.subset hmem, ?_⟩
    exact beq_iff_eq.mpr rfl
  refine ⟨hknown, entriesRemoved_eq_ok.mpr ⟨rfl, hsome, ?_, fun id hid => ?_, hknown, rfl⟩⟩
  · exact hinv.nodup.sublist (hsub.map _)
  · obtain ⟨e, hmem, rfl⟩ := List.mem_map.mp hid
    exact isRemovable_iff.mp (hremovable e hmem)

theorem providerCompactedEntries_spec : (providerCompactedEntries s).Sublist s.context.entries ∧
    ∀ e ∈ providerCompactedEntries s, isRemovable s e.entryId = true := by
  have hnone : ([] : List ContextEntry).Sublist s.context.entries ∧
      ∀ e ∈ ([] : List ContextEntry), isRemovable s e.entryId = true := by simp
  unfold providerCompactedEntries
  split_ifs
  · exact hnone
  · split
    · exact hnone
    · refine ⟨List.filter_sublist, fun e hmem => ?_⟩
      obtain ⟨-, hprunable⟩ := Bool.and_eq_true_iff.mp (List.mem_filter.mp hmem).2
      exact (Bool.and_eq_true_iff.mp hprunable).1

theorem runFailed_taken {joins : CoreAgentJoins} {failure : RunFailure} (hpromises : SettledInv s)
    (hactive : s.runs.active = some run) (ms : Nat) :
    ∃ t, Commits ms s (withRunTerminalSideEffects s [⟨joins, .run (.failed run.runId failure)⟩]) t := by
  have hend : applyRunEvent s s.nextSeq ms (.failed run.runId failure) =
      .ok (s.finishRun run { status := .failed, failure := some failure } s.nextSeq ms) :=
    failed_eq_ok.mpr ⟨run, hactive, rfl, rfl⟩
  have hfront : ∀ proposal ∈ ([] : List CoreAgentEventProposal), proposal.event.terminalRunId = none := by
    simp
  exact terminal_commits hpromises hfront rfl (commits_nil.mpr rfl) rfl hend

/-- Whatever is planned after an overflow is taken: it resolves the overflow, or it makes way. -/
theorem AfterOverflow.taken (hreached : Reachable sessionId s log) (h : Overflowed s run turnId turn)
    (hafter : AfterOverflow s run proposal) (ms : Nat) :
    (proposal.event.resolvesOverflow = true ∧
        ∃ t, Commits ms s (withRunTerminalSideEffects s [proposal]) t) ∨
      ∃ event m, proposal.event = .context event ∧ applyContextEvent s event.stored = .ok m ∧
        m.context.compaction.isPending = false ∧ overflowRank m < overflowRank s := by
  obtain ⟨hinv, -⟩ := reachable_inv hreached
  -- Where no run ends, the append is the one entry.
  have hsingle : ∀ {m : CoreAgentState}, proposal.event.terminalRunId = none →
      applyEventKind s (proposal.entry s.nextSeq ms) = .ok m →
        ∃ t, Commits ms s (withRunTerminalSideEffects s [proposal]) t := by
    intro m hlasts hm
    rw [withRunTerminalSideEffects, runTerminalSideEffects_eq (by simpa using hlasts)]
    exact ⟨_, commits_cons.mpr ⟨m, hm, commits_nil.mpr rfl⟩⟩
  cases hafter with
  | fail => exact .inl ⟨rfl, runFailed_taken (reachable_promises hreached).1 h.active ms⟩
  | request hboundary hcovers =>
    refine .inl ⟨rfl, hsingle rfl (compactionRequested_eq_ok.mpr
      ⟨rfl, hboundary, rfl, rfl, hcovers, fun id hid => ?_, rfl⟩)⟩
    obtain ⟨e, hmem, rfl⟩ := List.mem_map.mp hid
    obtain ⟨hheld, hremovable⟩ := mem_standalonePrefixEntries hmem
    refine ⟨List.find?_isSome.mpr ⟨e, hheld, ?_⟩, isRemovable_iff.mp hremovable⟩
    exact beq_iff_eq.mpr rfl
  | start =>
    have hidle := h.boundary hinv
    exact .inl ⟨rfl, hsingle rfl (turnStarted_eq_ok.mpr
      ⟨run, h.active, rfl, rfl, h.running, hidle.turn, rfl⟩)⟩
  | abandon hqueued =>
    have htaken : applyContextEvent s (.compactionFinished s.context.revision .failed none none 0) =
        .ok (finishCompaction s .failed none none) :=
      compactionFinished_eq_ok.mpr ⟨rfl, by simp, .inr hqueued, rfl⟩
    exact .inr ⟨_, _, rfl, htaken, rfl, abandoned_rank hqueued⟩
  | prune hsome =>
    obtain ⟨hsub, hremovable⟩ := providerCompactedEntries_spec (s := s)
    obtain ⟨hknown, htaken⟩ := entriesRemoved_taken hinv.entries hsub hremovable hsome
    exact .inr ⟨_, _, rfl, htaken, h.idle, removed_rank hsome hknown⟩
  | steer hmissing =>
    obtain ⟨u, hu⟩ := missingSteering_applied hinv.run (reachable_inputs hreached) h.active hinv.entries
      h.active rfl rfl hmissing
    refine .inr ⟨_, u, rfl, hu, ?_⟩
    obtain ⟨-, m, hm, rfl⟩ := entriesApplied_eq_ok.mp hu
    obtain ⟨hsome, -, hm⟩ := applyEntriesApplied_eq_ok.mp hm
    have hsource : ∀ e ∈ (missingSteeringEntries s).map ContextEntry.stored, e.Steers := by
      intro e hmem
      obtain ⟨e', hmem', rfl⟩ := List.mem_map.mp hmem
      exact missingSteering_steers e' hmem'
    obtain ⟨hcompaction, hrank⟩ := written_rank hinv.entries hsome hsource hm
    exact ⟨(congrArg ContextCompactionState.isPending hcompaction).trans h.idle, hrank⟩

/-- The next action after an overflow appends entries that are taken. One of them resolves the overflow, or
less is left to make way for. -/
theorem overflow_next (hreached : Reachable sessionId s log) (h : Overflowed s run turnId turn) (ms : Nat) :
    ∃ proposal t, inputProposals sessionId s ms .nextAction = .ok [proposal] ∧
      Commits ms s (withRunTerminalSideEffects s [proposal]) t ∧
      (proposal.event.resolvesOverflow = true ∨ withRunTerminalSideEffects s [proposal] = [proposal] ∧
        overflowRank t < overflowRank s ∧
        ∃ run', run'.runId = run.runId ∧ Overflowed t run' turnId turn) := by
  obtain ⟨hinv, -⟩ := reachable_inv hreached
  have hcalm := reachable_calm hreached
  obtain ⟨proposals, hplan, hsome⟩ := overflow_plan hinv hcalm h
  obtain ⟨proposal, rfl, hafter⟩ := afterOverflow_of_planned hinv hcalm (reachable_supplied hreached) h
    (planNext_cases hplan hsome)
  have hproposals : inputProposals sessionId s ms .nextAction = .ok [proposal] := driven_eq_ok.mpr hplan
  rcases hafter.taken hreached h ms with ⟨hresolves, t, ht⟩ | ⟨event, m, hevent, hm, hidle, hrank⟩
  · exact ⟨proposal, t, hproposals, ht, .inl hresolves⟩
  · have halone : withRunTerminalSideEffects s [proposal] = [proposal] :=
      runTerminalSideEffects_eq (by simp [hevent, CoreAgentEvent.terminalRunId])
    have hkind : applyEventKind s (proposal.entry s.nextSeq ms) = .ok m := by
      have hstored : (proposal.entry s.nextSeq ms).event = .context event.stored := by
        change proposal.event.stored = _
        rw [hevent]
        rfl
      rw [applyEventKind, hstored]
      exact hm
    obtain ⟨run', hid, hover⟩ := h.of_context hinv.entries hm hidle
    refine ⟨proposal, s.reducedAt m, hproposals, ?_, .inr ⟨halone, hrank, run', hid, ?_⟩⟩
    · rw [halone]
      exact commits_cons.mpr ⟨m, hkind, commits_nil.mpr rfl⟩
    · exact ⟨hover.active, hover.running, hover.latest, hover.ended, hover.overflowed, hover.idle⟩

end Lightspeed.Harness
