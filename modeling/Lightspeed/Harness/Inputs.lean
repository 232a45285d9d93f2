import Lightspeed.Harness.Accepted
import Lightspeed.Harness.Contexts

/-!
# Input on its way into context

A run's input and its steering are accepted first and written to context later, by whoever acts on the run
next: the planner at a turn boundary, or the end of the run. The reducer compares what is written with what
was accepted. Both were stored, and storing twice is storing once, so that what is still missing is always
taken.
-/

namespace Lightspeed.Harness

open Lib

variable {sessionId : SessionId} {base s t : CoreAgentState} {input : DriveInput}
  {entry : CoreAgentEntry} {log entries : List CoreAgentEntry} {run : ActiveRun} {last : Nat}

/-! ## Stored twice -/

theorem replaceNul_replaceNul (text : String) : replaceNul (replaceNul text) = replaceNul text := by
  unfold replaceNul
  rw [← String.toList_inj]
  simp only [String.toList_map, List.map_map]
  refine List.map_congr_left fun c _ => ?_
  by_cases hc : c = Char.ofNat 0
  · simp only [Function.comp_apply, if_pos hc]
    decide
  · simp only [Function.comp_apply, if_neg hc]

theorem replaceNul_comp : replaceNul ∘ replaceNul = replaceNul :=
  funext replaceNul_replaceNul

theorem ContextEntryInput.stored_stored (input : ContextEntryInput) :
    input.stored.stored = input.stored := by
  have hkind : input.kind.stored.stored = input.kind.stored := by
    cases input.kind <;> simp [ContextEntryKind.stored, replaceNul_replaceNul]
  simp [ContextEntryInput.stored, ContentRef.stored, hkind, replaceNul_comp]

/-- Inputs that storing leaves as they are. -/
def AsStored (inputs : List ContextEntryInput) : Prop :=
  ∀ input ∈ inputs, input.stored = input

theorem asStored_map (inputs : List ContextEntryInput) :
    AsStored (inputs.map ContextEntryInput.stored) := by
  intro input hinput
  obtain ⟨raw, -, rfl⟩ := List.mem_map.mp hinput
  exact raw.stored_stored

/-! ## What runs were accepted with -/

/-- What a steering batch was accepted with. -/
def SteeringBatch.accepted (batch : SteeringBatch) : SteeringBatch :=
  { batch with entryIds := [], consumedByTurnId := none }

/-- The input of every run, and its steering, is as it was stored. -/
structure InputsInv (s : CoreAgentState) : Prop where
  queued : ∀ queued ∈ s.runs.queued, AsStored queued.source.input
  source : s.ForActive fun run => AsStored run.source.input
  steering : s.ForActive fun run => ∀ batch ∈ run.steering, AsStored batch.input

theorem inputsInv_init : InputsInv CoreAgentState.new where
  queued := by rintro queued ⟨⟩
  source := by rintro run ⟨⟩
  steering := by rintro run ⟨⟩

/-- The active run moved on with nothing but batches that it had. -/
theorem InputsInv.of_active (h : InputsInv s) (hqueued : t.runs.queued = s.runs.queued)
    (hactive : ∀ b, t.runs.active = some b → ∃ a, s.runs.active = some a ∧ b.source = a.source ∧
      b.steering.map SteeringBatch.accepted ⊆ a.steering.map SteeringBatch.accepted) :
    InputsInv t where
  queued := hqueued ▸ h.queued
  source := fun b hb => by
    obtain ⟨a, ha, hsource, -⟩ := hactive b hb
    exact hsource ▸ h.source a ha
  steering := fun b hb batch hbatch => by
    obtain ⟨a, ha, -, hsub⟩ := hactive b hb
    obtain ⟨held, hheld, heq⟩ := List.mem_map.mp (hsub (List.mem_map_of_mem hbatch))
    have hinput : held.accepted.input = batch.accepted.input := congrArg SteeringBatch.input heq
    have hinput : held.input = batch.input := hinput
    exact hinput ▸ h.steering a ha held hheld

/-- Only writing entries and charging the active run move it in a context event. -/
theorem context_active {event : ContextEvent} {R : ActiveRun → ActiveRun → Prop} (hinv : EntriesInv s)
    (hrefl : ∀ run, R run run)
    (hwrites : ∀ {u v : CoreAgentState} {entries : List ContextEntry}, EntriesInv u →
      entries.foldlM applyEntry u = .ok v → ∀ b, v.runs.active = some b → ∃ a, u.runs.active = some a ∧ R a b)
    (hcharged : ∀ a recovery usage attempted, R a
      { a with contextRecovery := recovery, usage := usage, entryGuardAttempted := attempted })
    (h : applyContextEvent s event = .ok t) :
    ∀ b, t.runs.active = some b → ∃ a, s.runs.active = some a ∧ R a b := by
  have hsame : t.runs.active = s.runs.active → ∀ b, t.runs.active = some b →
      ∃ a, s.runs.active = some a ∧ R a b :=
    fun heq b hb => ⟨b, heq ▸ hb, hrefl b⟩
  cases event with
  | entriesApplied baseRevision entries =>
    obtain ⟨-, m, hm, rfl⟩ := entriesApplied_eq_ok.mp h
    obtain ⟨-, -, hm⟩ := applyEntriesApplied_eq_ok.mp hm
    exact hwrites (v := m) hinv hm
  | entriesRemoved baseRevision entryIds reason =>
    obtain ⟨-, -, -, -, -, rfl⟩ := entriesRemoved_eq_ok.mp h
    exact hsame rfl
  | keysRemoved baseRevision keys =>
    obtain ⟨-, -, -, rfl⟩ := keysRemoved_eq_ok.mp h
    obtain ⟨entries, heq, -⟩ := removeKeys_sublist keys s
    rw [heq]
    exact fun b hb => ⟨b, hb, hrefl b⟩
  | keyPrefixReplaced baseRevision keyPrefix entries =>
    obtain ⟨-, -, -, m, hm, rfl⟩ := keyPrefixReplaced_eq_ok.mp h
    split_ifs at hm
    · cases hm
      exact hsame rfl
    · obtain ⟨-, -, hm⟩ := applyEntriesApplied_eq_ok.mp hm
      exact hwrites (u := removeContextEntriesByKeyPrefix s keyPrefix) (v := m)
        (hinv.of_sublist List.filter_sublist) hm
  | entriesReplaced baseRevision entries =>
    obtain ⟨-, -, -, -, rfl⟩ := entriesReplaced_eq_ok.mp h
    exact hsame rfl
  | compactionRequested baseRevision trigger plan =>
    obtain ⟨-, -, -, -, -, -, rfl⟩ := compactionRequested_eq_ok.mp h
    intro b hb
    obtain ⟨a, ha, rfl⟩ := Option.map_eq_some_iff.mp hb
    refine ⟨a, ha, ?_⟩
    unfold recordCompactionAttempt
    split <;> split_ifs <;> exact hcharged a _ _ _
  | compactionQueued baseRevision =>
    obtain ⟨-, -, -, rfl⟩ := compactionQueued_eq_ok.mp h
    exact hsame rfl
  | compactionFinished baseRevision status failureRef usage calls =>
    obtain ⟨-, -, -, rfl⟩ := compactionFinished_eq_ok.mp h
    intro b hb
    obtain ⟨a, ha, rfl⟩ := Option.map_eq_some_iff.mp hb
    exact ⟨a, ha, hcharged a _ _ _⟩

/-- A context event writes input down, and drops none. -/
theorem context_batches {event : ContextEvent} (hinv : EntriesInv s)
    (h : applyContextEvent s event = .ok t) :
    ∀ b, t.runs.active = some b → ∃ a, s.runs.active = some a ∧ b.source = a.source ∧
      b.steering.map SteeringBatch.accepted = a.steering.map SteeringBatch.accepted := by
  refine context_active (R := fun a b => b.source = a.source ∧
    b.steering.map SteeringBatch.accepted = a.steering.map SteeringBatch.accepted) hinv
    (fun _ => ⟨rfl, rfl⟩) ?_ (fun _ _ _ _ => ⟨rfl, rfl⟩) h
  intro u v entries hu hv b hb
  obtain ⟨a, ha, hab⟩ := (applyEntries_spec hu hv).1.active b hb
  have hmap := congrArg (List.map SteeringBatch.accepted) hab.steering
  rw [List.map_map, List.map_map] at hmap
  exact ⟨a, ha, hab.same.source, hmap⟩

/-- An entry that is recorded leaves the rest of the run's input recorded. -/
theorem record_inputs {e : ContextEntry} (h : recordEntryMaterialization s e = .ok t) :
    ∀ b, t.runs.active = some b → ∃ a, s.runs.active = some a ∧ b.source = a.source ∧
      a.inputEntryIds.length ≤ b.inputEntryIds.length := by
  unfold recordEntryMaterialization at h
  split at h
  · simp only [bind_eq_ok, activeRunRef_eq_ok, Except.ok.injEq] at h
    obtain ⟨run, ⟨hactive, -⟩, run', hrun, rfl⟩ := h
    simp only [recordRunInput, bind_eq_ok, orError_eq_ok, require_eq_ok, exists_unit,
      Except.ok.injEq] at hrun
    obtain ⟨input, -, -, -, rfl⟩ := hrun
    rintro _ ⟨⟩
    refine ⟨run, hactive, rfl, ?_⟩
    simp
  · simp only [bind_eq_ok, activeRunRef_eq_ok, Except.ok.injEq] at h
    obtain ⟨run, ⟨hactive, -⟩, steering, -, rfl⟩ := h
    rintro _ ⟨⟩
    exact ⟨run, hactive, rfl, le_rfl⟩
  · cases h
    exact fun run hactive => ⟨run, hactive, rfl, le_rfl⟩

/-- A context event forgets no input that was recorded. -/
theorem context_inputs {event : ContextEvent} (hinv : EntriesInv s)
    (h : applyContextEvent s event = .ok t) :
    ∀ b, t.runs.active = some b → ∃ a, s.runs.active = some a ∧ b.source = a.source ∧
      a.inputEntryIds.length ≤ b.inputEntryIds.length := by
  refine context_active (R := fun a b => b.source = a.source ∧
    a.inputEntryIds.length ≤ b.inputEntryIds.length) hinv (fun _ => ⟨rfl, le_rfl⟩) ?_
    (fun _ _ _ _ => ⟨rfl, le_rfl⟩) h
  intro u v entries hu hv
  clear hu
  induction entries generalizing u with
  | nil =>
    obtain rfl := pure_eq_ok.mp hv
    exact fun b hb => ⟨b, hb, rfl, le_rfl⟩
  | cons first rest ih =>
    obtain ⟨m, hm, hrest⟩ := foldlM_cons_eq_ok.mp hv
    obtain ⟨-, recorded, replaced, hrecorded, hreplaced, rfl⟩ := applyEntry_eq_ok.mp hm
    obtain ⟨kept, rfl, -, -⟩ := replaceKeyed_spec hreplaced
    have hcapped : (capVersions (appendEntry (recorded.setEntries kept) first) first).runs =
        recorded.runs := by
      unfold capVersions
      split
      · rfl
      · split_ifs <;> rfl
    intro c hc
    obtain ⟨b, hb, hsource, hlength⟩ := ih hrest c hc
    rw [hcapped] at hb
    obtain ⟨a, ha, hsource', hlength'⟩ := record_inputs hrecorded b hb
    exact ⟨a, ha, hsource.trans hsource', hlength'.trans hlength⟩

theorem inputs_run {seq ms : Nat} {event : RunEvent} (h : InputsInv s)
    (hstored : ∃ raw : RunEvent, event = raw.stored) (happly : applyRunEvent s seq ms event = .ok t) :
    InputsInv t := by
  obtain ⟨raw, hraw⟩ := hstored
  cases applyRunEvent_moves happly with
  | queues hqueues hactive ht =>
    refine ⟨?_, fun run hrun => h.source run (hactive ▸ hrun), fun run hrun =>
      h.steering run (hactive ▸ hrun)⟩
    cases event with
    | accepted accepted =>
      obtain ⟨-, -, -, -, rfl⟩ := accepted_eq_ok.mp happly
      intro queued hqueued
      rcases List.mem_append.mp hqueued with hqueued | hnew
      · exact h.queued queued hqueued
      · rw [List.mem_singleton.mp hnew]
        cases raw with
        | accepted request =>
          cases hraw
          exact asStored_map request.source.input
        | _ => cases hraw
    | queuedCancelled runId =>
      obtain ⟨queued, -, rfl⟩ := queuedCancelled_eq_ok.mp happly
      intro other hother
      change other ∈ (pruneTerminalRunRecords _).queued at hother
      rw [pruneTerminalRunRecords_queued] at hother
      exact h.queued other (List.eraseP_subset hother)
    | _ => cases hqueues
  | starts hfree hqueued =>
    refine ⟨fun other hother => ?_, ?_, ?_⟩
    · exact h.queued other (hqueued ▸ List.mem_cons_of_mem _ hother)
    · rintro _ ⟨⟩
      exact h.queued _ (hqueued ▸ List.mem_cons_self)
    · rintro _ ⟨⟩ batch ⟨⟩
  | @steers run _ _ _ hactive =>
    refine ⟨h.queued, ?_, ?_⟩
    · rintro _ ⟨⟩
      exact h.source run hactive
    · rintro _ ⟨⟩ batch hbatch
      rcases List.mem_append.mp hbatch with hbatch | hnew
      · exact h.steering run hactive batch hbatch
      · rw [List.mem_singleton.mp hnew]
        cases raw with
        | steeringAccepted _ _ _ given =>
          cases hraw
          exact asStored_map given
        | _ => cases hraw
  | @stops run hactive =>
    exact ⟨h.queued, forActive_setActive.mpr (h.source run hactive),
      forActive_setActive.mpr (h.steering run hactive)⟩
  | ends =>
    refine h.of_active ?_ fun b hb => ?_
    · rw [finishRun_runs, pruneTerminalRunRecords_queued]
    · simp at hb

/-- Every event that was stored keeps the inputs as they were stored. -/
theorem inputs_step (hinv : EntriesInv s) (h : InputsInv s)
    (hstored : ∃ raw : CoreAgentEvent, entry.event = raw.stored) (happly : applyEvent s entry = .ok t) :
    InputsInv t := by
  cases hrun : entry.event.isRun with
  | true =>
    obtain ⟨-, m, hm, rfl⟩ := applyEvent_eq_ok.mp happly
    cases hevent : entry.event with
    | run event =>
      rw [applyEventKind, hevent] at hm
      obtain ⟨raw, hraw⟩ := hstored
      rw [hevent] at hraw
      have hrunStored : ∃ raw : RunEvent, event = raw.stored := by
        cases raw with
        | run raw =>
          cases hraw
          exact ⟨raw, rfl⟩
        | _ => cases hraw
      obtain ⟨hqueued, hsource, hsteering⟩ := inputs_run h hrunStored hm
      exact ⟨hqueued, hsource, hsteering⟩
    | _ => rw [hevent] at hrun; cases hrun
  | false =>
    have hqueued := (applyEvent_runsFrame hinv hrun happly).queued
    refine h.of_active hqueued fun b hb => ?_
    cases hcontext : entry.event.isContext with
    | false =>
      obtain ⟨a, ha, hmoved⟩ := applyEvent_moved hrun hcontext happly b hb
      refine ⟨a, ha, hmoved.same.source, ?_⟩
      have hsub := (hmoved.steering.map SteeringBatch.accepted).subset
      rw [List.map_map, List.map_map] at hsub
      exact hsub
    | true =>
      obtain ⟨-, m, hm, rfl⟩ := applyEvent_eq_ok.mp happly
      cases hevent : entry.event with
      | context event =>
        rw [applyEventKind, hevent] at hm
        obtain ⟨a, ha, hsource, hbatches⟩ := context_batches hinv hm b hb
        exact ⟨a, ha, hsource, hbatches ▸ fun _ hmem => hmem⟩
      | _ => rw [hevent] at hcontext; cases hcontext

theorem reachable_inputs (h : Reachable sessionId s log) : InputsInv s := by
  refine EventSource.Reaches.invariant (P := fun s _ => InputsInv s) inputsInv_init ?_ h
  rintro s log ⟨ms, input⟩ entries t hreached hs hpropose hcommit
  obtain ⟨proposals, -, -, rfl⟩ := proposeEntries_cases hpropose
  have hboth : EntriesInv t ∧ InputsInv t := by
    refine foldlM_preserves (P := fun u => EntriesInv u ∧ InputsInv u) ?_ hcommit
      ⟨(reachable_inv hreached).1.entries, hs⟩
    intro entry hmem u v hv hu
    refine ⟨applyEvent_entriesInv hu.1 hv, inputs_step hu.1 hu.2 ?_ hv⟩
    rcases mem_uncommitted hmem with ⟨proposal, -, heq⟩ | ⟨id, heq⟩
    · exact ⟨proposal.event, heq⟩
    · exact ⟨.promise (.cancelled id), heq⟩
  exact hboth.2

/-! ## Steering that is still missing -/

theorem contextEntriesAfter_append (u : CoreAgentState) (last : Nat) (first second : List SourcedInput) :
    contextEntriesAfter u last (first ++ second) =
      contextEntriesAfter u last first ++ contextEntriesAfter u (last + first.length) second := by
  induction first generalizing last with
  | nil => rfl
  | cons sourced rest ih =>
    rw [List.cons_append, contextEntriesAfter, contextEntriesAfter, ih, List.cons_append,
      List.length_cons, Nat.add_right_comm, Nat.add_assoc]

theorem updateSteering_at {f : SteeringBatch → Result SteeringBatch}
    {front back : List SteeringBatch} {batch batch' : SteeringBatch}
    (hfront : ∀ other ∈ front, other.steeringId ≠ batch.steeringId) (hf : f batch = .ok batch')
    (missing : DomainError) :
    updateSteering batch.steeringId f missing (front ++ batch :: back) =
      .ok (front ++ batch' :: back) := by
  induction front with
  | nil => rw [List.nil_append, updateSteering, if_pos rfl, hf, ok_bind, List.nil_append]
  | cons other rest ih =>
    rw [List.cons_append, updateSteering, if_neg (hfront other List.mem_cons_self),
      ih fun batch hbatch => hfront batch (List.mem_cons_of_mem _ hbatch)]
    rfl

/-- The batch with its next input in context. -/
def SteeringBatch.wrote (batch : SteeringBatch) (entryId : ContextEntryId) : SteeringBatch :=
  { batch with entryIds := batch.entryIds ++ [entryId] }

theorem commit_stored (input : ContextEntryInput) (entryId : ContextEntryId)
    (key : Option ContextEntryKey) (source : ContextEntrySource) (supersedes : Option ContextEntryId) :
    (input.commit entryId key source supersedes).stored =
      input.stored.commit entryId key source supersedes := rfl

/-- The next input of a batch is taken. -/
theorem applyEntry_steering {front back : List SteeringBatch} {batch : SteeringBatch}
    {input : ContextEntryInput} {written : ContextEntry} (hinv : EntriesInv s)
    (hactive : s.runs.active = some run) (hsteering : run.steering = front ++ batch :: back)
    (hfront : ∀ other ∈ front, other.steeringId ≠ batch.steeringId)
    (hinput : batch.input[batch.entryIds.length]? = some input)
    (hwritten : written = input.commit (s.idCursors.lastContextEntryId + 1) none
      (.steering run.runId batch.steeringId batch.entryIds.length) none) :
    applyEntry s written = .ok (appendEntry (s.setActive { run with
      steering := front ++ batch.wrote written.entryId :: back }) written) := by
  have hmatches : validateEntryMatchesInput written input false = .ok () := by
    rw [hwritten]
    simp [validateEntryMatchesInput, ContextEntryInput.commit]
  have hrecorded : recordSteeringInput batch written batch.entryIds.length =
      .ok (batch.wrote written.entryId) := by
    simp only [recordSteeringInput, hinput, orError_some, ok_bind, hmatches]
    rfl
  have hrecord : recordEntryMaterialization s written = .ok (s.setActive { run with
      steering := front ++ batch.wrote written.entryId :: back }) := by
    have hsource : written.source =
        .steering run.runId batch.steeringId batch.entryIds.length := by rw [hwritten]; rfl
    have hrun : activeRunRef s run.runId = .ok run := activeRunRef_eq_ok.mpr ⟨hactive, rfl⟩
    have hupdated := @updateSteering_at (recordSteeringInput · written batch.entryIds.length)
      front back batch _ hfront hrecorded
    simp only [recordEntryMaterialization, hsource, hrun, ok_bind, hsteering, hupdated]
  exact applyEntry_unkeyed hinv (by rw [hwritten]; rfl) (by rw [hwritten]; rfl) hrecord

/-- What is missing of a batch, one input at a time. -/
theorem missingInputs_next {runId : RunId} {batch : SteeringBatch} {input : ContextEntryInput}
    (entryId : ContextEntryId) (hinput : batch.input[batch.entryIds.length]? = some input) :
    batch.missingInputs runId =
      (none, .steering runId batch.steeringId batch.entryIds.length, input) ::
        (batch.wrote entryId).missingInputs runId := by
  obtain ⟨hlt, hget⟩ := List.getElem?_eq_some_iff.mp hinput
  have hlt' : batch.entryIds.length < batch.input.zipIdx.length := by rwa [List.length_zipIdx]
  unfold SteeringBatch.missingInputs
  rw [List.drop_eq_getElem_cons hlt', List.map_cons]
  simp [SteeringBatch.wrote, hget]

/-- All that is missing of one batch is taken. -/
theorem batch_written (u : CoreAgentState) {front back : List SteeringBatch} {batch : SteeringBatch}
    (hinv : EntriesInv s) (hactive : s.runs.active = some run)
    (hsteering : run.steering = front ++ batch :: back)
    (hfront : ∀ other ∈ front, other.steeringId ≠ batch.steeringId) (hstored : AsStored batch.input)
    (hlast : s.idCursors.lastContextEntryId = last) :
    ∃ t batch', ((contextEntriesAfter u last (batch.missingInputs run.runId)).map
        ContextEntry.stored).foldlM applyEntry s = .ok t ∧ EntriesInv t ∧
      t.runs.active = some { run with steering := front ++ batch' :: back } ∧
      batch'.steeringId = batch.steeringId ∧
      t.idCursors.lastContextEntryId = last + (batch.missingInputs run.runId).length := by
  induction hmissing : batch.input.length - batch.entryIds.length
    generalizing s run batch last with
  | zero =>
    have hnone : batch.missingInputs run.runId = [] := by
      unfold SteeringBatch.missingInputs
      rw [List.drop_eq_nil_of_le (by rw [List.length_zipIdx]; omega), List.map_nil]
    rw [hnone]
    refine ⟨s, batch, rfl, hinv, ?_, rfl, hlast⟩
    rw [hactive, ← hsteering]
  | succ missing ih =>
    have hlt : batch.entryIds.length < batch.input.length := by omega
    let input := batch.input[batch.entryIds.length]
    have hinput : batch.input[batch.entryIds.length]? = some input := List.getElem?_eq_getElem hlt
    have hsame : input.stored = input := hstored input (List.getElem_mem hlt)
    let written : ContextEntry := input.commit (last + 1) none
      (.steering run.runId batch.steeringId batch.entryIds.length) none
    let next := appendEntry (s.setActive { run with
      steering := front ++ batch.wrote written.entryId :: back }) written
    have hfirst : applyEntry s written = .ok next :=
      applyEntry_steering hinv hactive hsteering hfront hinput (by rw [hlast])
    obtain ⟨-, -, hinv', -, hcursor⟩ := applyEntry_spec hinv hfirst
    obtain ⟨t, batch', hfold, hinvt, hactive', hid, hlast'⟩ := ih (s := next) hinv' rfl rfl hfront hstored hcursor
      (by simp only [SteeringBatch.wrote, List.length_append, List.length_singleton]; omega)
    refine ⟨t, batch', ?_, hinvt, hactive', hid, ?_⟩
    · rw [missingInputs_next written.entryId hinput, contextEntriesAfter, List.map_cons]
      refine foldlM_cons_eq_ok.mpr ⟨next, ?_, hfold⟩
      rw [commit_stored, hsame]
      exact hfirst
    · rw [missingInputs_next written.entryId hinput, List.length_cons, hlast']
      change last + 1 + ((batch.wrote written.entryId).missingInputs run.runId).length = _
      omega

/-- All the steering that is missing is taken, after whatever else was written. -/
theorem steering_written (u : CoreAgentState) {front back : List SteeringBatch} (hinv : EntriesInv s)
    (hactive : s.runs.active = some run) (hsteering : run.steering = front ++ back)
    (hids : (run.steering.map SteeringBatch.steeringId).Nodup)
    (hstored : ∀ batch ∈ back, AsStored batch.input)
    (hlast : s.idCursors.lastContextEntryId = last) :
    ∃ t, ((contextEntriesAfter u last (back.flatMap (SteeringBatch.missingInputs run.runId))).map
      ContextEntry.stored).foldlM applyEntry s = .ok t := by
  induction back generalizing s run front last with
  | nil => exact ⟨s, rfl⟩
  | cons batch rest ih =>
    have hfront : ∀ other ∈ front, other.steeringId ≠ batch.steeringId := by
      intro other hother heq
      rw [hsteering, List.map_append, List.nodup_append] at hids
      exact hids.2.2 _ (List.mem_map_of_mem hother) _ (List.mem_map_of_mem List.mem_cons_self) heq
    obtain ⟨m, batch', hfold, hinv', hactive', hid, hlast'⟩ := batch_written u hinv hactive hsteering
      hfront (hstored batch List.mem_cons_self) hlast
    have hids' : ((front ++ batch' :: rest).map SteeringBatch.steeringId).Nodup := by
      rw [hsteering] at hids
      simpa [hid] using hids
    have hrest : front ++ batch' :: rest = (front ++ [batch']) ++ rest := by simp
    obtain ⟨t, ht⟩ := ih hinv' hactive' hrest hids'
      (fun batch hbatch => hstored batch (List.mem_cons_of_mem _ hbatch)) hlast'
    refine ⟨t, ?_⟩
    rw [List.flatMap_cons, contextEntriesAfter_append, List.map_append]
    exact foldlM_append_eq_ok.mpr ⟨m, hfold, ht⟩

/-- What the active run's steering still misses is taken by any later state that has its batches. -/
theorem missingSteering_applied {later : ActiveRun}
    (hrun : s.ForActive (RunInv s.idCursors s.tooling.revision)) (hinputs : InputsInv s)
    (hactive : s.runs.active = some run) (hinv : EntriesInv t) (hlater : t.runs.active = some later)
    (hid : later.runId = run.runId) (hsteering : later.steering = run.steering)
    (hmissing : missingSteeringEntriesAfter s t.idCursors.lastContextEntryId ≠ []) :
    ∃ u, applyContextEvent t (.entriesApplied t.context.revision
      ((missingSteeringEntriesAfter s t.idCursors.lastContextEntryId).map ContextEntry.stored)) =
        .ok u := by
  have hkeys : ∀ entry ∈ (missingSteeringEntriesAfter s t.idCursors.lastContextEntryId).map
      ContextEntry.stored, entry.key = none := by
    intro entry hentry
    obtain ⟨raw, hraw, rfl⟩ := List.mem_map.mp hentry
    exact (unkeyed_steering _ raw hraw).1
  obtain ⟨m, hm⟩ : ∃ m, ((missingSteeringEntriesAfter s t.idCursors.lastContextEntryId).map
      ContextEntry.stored).foldlM applyEntry t = .ok m := by
    have hids := (hrun run hactive).steeringSorted.imp fun h => ne_of_lt h
    have hwritten := steering_written s hinv hlater (List.nil_append _).symm (hsteering ▸ hids)
      (hsteering ▸ hinputs.steering run hactive) rfl
    unfold missingSteeringEntriesAfter
    rw [hactive]
    dsimp only
    rw [← hid, ← hsteering]
    exact hwritten
  refine ⟨bumpContextRevision m, entriesApplied_eq_ok.mpr ⟨rfl, m, ?_, rfl⟩⟩
  exact applyEntriesApplied_eq_ok.mpr
    ⟨by simpa using hmissing, validateNoDuplicateEntryKeys_unkeyed hkeys, hm⟩

end Lightspeed.Harness
