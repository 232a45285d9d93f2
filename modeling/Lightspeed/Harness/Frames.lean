import Lightspeed.Harness.Machine
import Lightspeed.Harness.Moves

/-!
# What an event leaves alone

Most events touch one component, and of the run in the active slot only its working state. The frame
lemmas here say so once for all events of a component, so that an invariant about one part of the state
is proved on the events that touch it.
-/

namespace Lightspeed.Harness

open Lib

variable {s t u : CoreAgentState} {entry : CoreAgentEntry} {index : Nat}

/-! ## The active run -/

/-- The same run: what it was accepted with does not change while it works. -/
structure ActiveRun.Same (a b : ActiveRun) : Prop where
  runId : b.runId = a.runId
  submissionId : b.submissionId = a.submissionId
  source : b.source = a.source
  runConfig : b.runConfig = a.runConfig
  firstSeq : b.firstSeq = a.firstSeq
  acceptedAtMs : b.acceptedAtMs = a.acceptedAtMs
  startedAtMs : b.startedAtMs = a.startedAtMs
  notifyOnTerminal : b.notifyOnTerminal = a.notifyOnTerminal

theorem ActiveRun.Same.refl (run : ActiveRun) : run.Same run := by constructor <;> rfl

/-- The same run with the same entries in context. Old steering may be forgotten. -/
structure ActiveRun.Moved (a b : ActiveRun) : Prop where
  same : a.Same b
  inputEntryIds : b.inputEntryIds = a.inputEntryIds
  steering : (b.steering.map SteeringBatch.unconsumed).Sublist
    (a.steering.map SteeringBatch.unconsumed)

theorem ActiveRun.Moved.of_sublist {a b : ActiveRun} (hsame : a.Same b)
    (hinput : b.inputEntryIds = a.inputEntryIds) (hsteering : b.steering.Sublist a.steering) :
    a.Moved b :=
  ⟨hsame, hinput, hsteering.map _⟩

theorem ActiveRun.Moved.of_eq {a b : ActiveRun} (hsame : a.Same b)
    (hinput : b.inputEntryIds = a.inputEntryIds) (hsteering : b.steering = a.steering) :
    a.Moved b :=
  .of_sublist hsame hinput (hsteering ▸ .refl _)

/-- No run enters or leaves the session. -/
structure RunsFrame (s t : CoreAgentState) : Prop where
  queued : t.runs.queued = s.runs.queued
  finished : t.runs.finished = s.runs.finished
  prunedThrough : t.runs.prunedThrough = s.runs.prunedThrough
  lastRunId : t.idCursors.lastRunId = s.idCursors.lastRunId
  active : ∀ b, t.runs.active = some b → ∃ a, s.runs.active = some a ∧ a.Same b
  inactive : t.runs.active = none → s.runs.active = none

/-- The active run stays active. -/
theorem RunsFrame.stays (h : RunsFrame s t) {run : ActiveRun} (hactive : s.runs.active = some run) :
    ∃ run', t.runs.active = some run' ∧ run.Same run' := by
  cases ht : t.runs.active with
  | none =>
    rw [h.inactive ht] at hactive
    cases hactive
  | some run' =>
    obtain ⟨a, ha, hsame⟩ := h.active run' ht
    exact ⟨run', rfl, Option.mem_unique hactive ha ▸ hsame⟩

/-- An event that leaves the runs as they are. -/
theorem RunsFrame.of_eq (hruns : t.runs = s.runs)
    (hcursor : t.idCursors.lastRunId = s.idCursors.lastRunId) : RunsFrame s t where
  queued := by rw [hruns]
  finished := by rw [hruns]
  prunedThrough := by rw [hruns]
  lastRunId := hcursor
  active := fun run h => ⟨run, hruns ▸ h, .refl run⟩
  inactive := fun h => hruns ▸ h

/-- An event that moves the active run on. -/
theorem RunsFrame.of_active {run run' : ActiveRun} (hactive : s.runs.active = some run)
    (hruns : t.runs = { s.runs with active := some run' }) (hsame : run.Same run')
    (hcursor : t.idCursors.lastRunId = s.idCursors.lastRunId) : RunsFrame s t where
  queued := by rw [hruns]
  finished := by rw [hruns]
  prunedThrough := by rw [hruns]
  lastRunId := hcursor
  active := fun b h => by
    rw [hruns] at h
    exact ⟨run, hactive, Option.some.inj h ▸ hsame⟩
  inactive := fun h => by
    rw [hruns] at h
    cases h

/-! ## Writing entries -/

/-- The same run with more of its input and steering written down. -/
structure ActiveRun.Wrote (a b : ActiveRun) : Prop where
  run : b = { a with inputEntryIds := b.inputEntryIds, steering := b.steering }
  steering : b.steering.map (fun batch => { batch with entryIds := [] }) =
    a.steering.map (fun batch => { batch with entryIds := [] })

theorem ActiveRun.Wrote.refl (run : ActiveRun) : run.Wrote run := ⟨rfl, rfl⟩

theorem ActiveRun.Wrote.trans {a b c : ActiveRun} (hab : a.Wrote b) (hbc : b.Wrote c) :
    a.Wrote c where
  run := by rw [hbc.run, hab.run]
  steering := hbc.steering.trans hab.steering

theorem ActiveRun.Wrote.same {a b : ActiveRun} (h : a.Wrote b) : a.Same b := by
  rw [h.run]
  constructor <;> rfl

theorem ActiveRun.Wrote.steeringIds {a b : ActiveRun} (h : a.Wrote b) :
    b.steering.map SteeringBatch.steeringId = a.steering.map SteeringBatch.steeringId := by
  have := congrArg (List.map SteeringBatch.steeringId) h.steering
  simpa [Function.comp_def] using this

/-- What writing entries leaves alone: it adds to context and records input and steering. -/
structure WriteFrame (s t : CoreAgentState) : Prop where
  state : t = { s with runs := t.runs, context := t.context, idCursors := t.idCursors }
  context : t.context = { s.context with entries := t.context.entries }
  cursors : t.idCursors =
    { s.idCursors with lastContextEntryId := t.idCursors.lastContextEntryId }
  runs : t.runs = { s.runs with active := t.runs.active }
  active : ∀ b, t.runs.active = some b → ∃ a, s.runs.active = some a ∧ a.Wrote b
  inactive : t.runs.active = none → s.runs.active = none

theorem WriteFrame.refl (s : CoreAgentState) : WriteFrame s s :=
  ⟨rfl, rfl, rfl, rfl, fun run h => ⟨run, h, .refl run⟩, id⟩

theorem WriteFrame.trans (hst : WriteFrame s t) (htu : WriteFrame t u) : WriteFrame s u where
  state := by rw [htu.state, hst.state]
  context := by rw [htu.context, hst.context]
  cursors := by rw [htu.cursors, hst.cursors]
  runs := by rw [htu.runs, hst.runs]
  active := fun c hc => by
    obtain ⟨b, hb, hbc⟩ := htu.active c hc
    obtain ⟨a, ha, hab⟩ := hst.active b hb
    exact ⟨a, ha, hab.trans hbc⟩
  inactive := fun h => hst.inactive (htu.inactive h)

/-- Only the entries of context change. -/
theorem WriteFrame.of_entries (entries : List ContextEntry) : WriteFrame s (s.setEntries entries) :=
  ⟨rfl, rfl, rfl, rfl, fun run h => ⟨run, h, .refl run⟩, id⟩

theorem recordRunInput_wrote {run run' : ActiveRun} {entry : ContextEntry}
    (h : recordRunInput run entry index = .ok run') : run.Wrote run' := by
  simp only [recordRunInput, bind_eq_ok, require_eq_ok, orError_eq_ok, exists_unit,
    Except.ok.injEq] at h
  obtain ⟨_, -, -, -, rfl⟩ := h
  exact ⟨rfl, rfl⟩

theorem recordSteeringInput_wrote {batch batch' : SteeringBatch} {entry : ContextEntry}
    (h : recordSteeringInput batch entry index = .ok batch') :
    ({ batch' with entryIds := [] } : SteeringBatch) = { batch with entryIds := [] } := by
  simp only [recordSteeringInput, bind_eq_ok, require_eq_ok, orError_eq_ok, exists_unit,
    Except.ok.injEq] at h
  obtain ⟨_, -, -, -, rfl⟩ := h
  rfl

theorem updateSteering_wrote {steeringId : SteeringId} {entry : ContextEntry}
    {missing : DomainError} {steering steering' : List SteeringBatch}
    (h : updateSteering steeringId (recordSteeringInput · entry index) missing steering =
      .ok steering') : steering'.map (fun batch => ({ batch with entryIds := [] } : SteeringBatch)) =
      steering.map (fun batch => { batch with entryIds := [] }) := by
  induction steering generalizing steering' with
  | nil => cases h
  | cons batch rest ih =>
    rw [updateSteering] at h
    by_cases hid : batch.steeringId = steeringId
    · rw [if_pos hid] at h
      obtain ⟨batch', hbatch, rfl⟩ := by simpa only [bind_eq_ok, Except.ok.injEq] using h
      rw [List.map_cons, List.map_cons, recordSteeringInput_wrote hbatch]
    · rw [if_neg hid] at h
      obtain ⟨rest', hrest, rfl⟩ := by simpa only [bind_eq_ok, Except.ok.injEq] using h
      rw [List.map_cons, List.map_cons, ih hrest]

/-- An entry is recorded on the run that supplied it, and on no other component. -/
theorem recordEntryMaterialization_frame {entry : ContextEntry}
    (h : recordEntryMaterialization s entry = .ok t) :
    WriteFrame s t ∧ t.context = s.context ∧ t.idCursors = s.idCursors := by
  have hset : ∀ {run run' : ActiveRun}, s.runs.active = some run → run.Wrote run' →
      WriteFrame s (s.setActive run') := by
    intro run run' hactive hwrote
    refine ⟨rfl, rfl, rfl, rfl, fun b hb => ⟨run, hactive, ?_⟩, fun hb => by cases hb⟩
    exact Option.some.inj hb ▸ hwrote
  unfold recordEntryMaterialization at h
  split at h
  · simp only [bind_eq_ok, activeRunRef_eq_ok, Except.ok.injEq] at h
    obtain ⟨run, ⟨hactive, -⟩, run', hrun, rfl⟩ := h
    exact ⟨hset hactive (recordRunInput_wrote hrun), rfl, rfl⟩
  · simp only [bind_eq_ok, activeRunRef_eq_ok, Except.ok.injEq] at h
    obtain ⟨run, ⟨hactive, -⟩, steering, hsteering, rfl⟩ := h
    exact ⟨hset hactive ⟨rfl, updateSteering_wrote hsteering⟩, rfl, rfl⟩
  · cases h
    exact ⟨.refl s, rfl, rfl⟩

/-! ## Entries -/

/-- Active entries stand in id order, and the cursor has counted each of them. -/
structure EntriesInv (s : CoreAgentState) : Prop where
  sorted : (s.context.entries.map ContextEntry.entryId).Pairwise (· < ·)
  bound : ∀ entry ∈ s.context.entries, entry.entryId ≤ s.idCursors.lastContextEntryId

theorem EntriesInv.nodup (h : EntriesInv s) : (s.context.entries.map ContextEntry.entryId).Nodup :=
  h.sorted.imp ne_of_lt

/-- Two active entries with one id are one entry. -/
theorem EntriesInv.eq_of_id (h : EntriesInv s) {a b : ContextEntry} (ha : a ∈ s.context.entries)
    (hb : b ∈ s.context.entries) (hid : a.entryId = b.entryId) : a = b :=
  List.inj_on_of_nodup_map h.nodup ha hb hid

/-- What is left of a context after entries were written to it: a write under a key may drop what stood
under that key, and nothing else goes. -/
structure Written (before entries after : List ContextEntry) : Prop where
  sublist : after.Sublist (before ++ entries)
  kept : ∀ entry ∈ before ++ entries, entry.key = none → entry ∈ after

theorem Written.nil (before : List ContextEntry) : Written before [] before :=
  ⟨by rw [List.append_nil], fun entry hentry _ => by rwa [List.append_nil] at hentry⟩

theorem Written.cons {before middle after rest : List ContextEntry} {entry : ContextEntry}
    (h : Written before [entry] middle) (hrest : Written middle rest after) :
    Written before (entry :: rest) after := by
  have happend : before ++ entry :: rest = (before ++ [entry]) ++ rest := by simp
  constructor
  · rw [happend]
    exact hrest.sublist.trans (h.sublist.append_right rest)
  · intro e he hkey
    rw [happend] at he
    refine hrest.kept e (List.mem_append.mpr ?_) hkey
    exact (List.mem_append.mp he).imp_left fun he => h.kept e he hkey

theorem replaceKeyed_spec {entry : ContextEntry} (h : replaceKeyed s entry = .ok t) :
    ∃ entries, t = s.setEntries entries ∧ entries.Sublist s.context.entries ∧
      ∀ e ∈ s.context.entries, e.key = none → e ∈ entries := by
  unfold replaceKeyed at h
  split at h
  · cases h
    exact ⟨s.context.entries, rfl, .refl _, fun e he _ => he⟩
  next key _ =>
    simp only [bind_eq_ok, require_eq_ok, exists_unit, Except.ok.injEq] at h
    obtain ⟨-, rfl⟩ := h
    split_ifs
    · refine ⟨_, rfl, List.filter_sublist, fun e he hkey => List.mem_filter.mpr ⟨he, ?_⟩⟩
      simp [hkey]
    · exact ⟨s.context.entries, rfl, .refl _, fun e he _ => he⟩

/-- A write under a key drops the oldest versions under it. -/
theorem capVersions_spec (entry : ContextEntry)
    (hids : (s.context.entries.map ContextEntry.entryId).Nodup) :
    ∃ entries, capVersions s entry = s.setEntries entries ∧ entries.Sublist s.context.entries ∧
      ∀ e ∈ s.context.entries, e.key = none → e ∈ entries := by
  unfold capVersions
  split
  · exact ⟨s.context.entries, rfl, .refl _, fun e he _ => he⟩
  next key _ =>
    split_ifs
    · refine ⟨_, rfl, List.filter_sublist, fun e he hkey => List.mem_filter.mpr ⟨he, ?_⟩⟩
      rw [decide_eq_true_eq]
      intro hdropped
      have hmem := List.dropLast_subset _ (List.take_subset _ _ hdropped)
      obtain ⟨other, hother, hid⟩ := List.mem_map.mp hmem
      obtain ⟨hother, hotherKey⟩ := List.mem_filter.mp hother
      obtain rfl : other = e := List.inj_on_of_nodup_map hids hother he hid
      simp [hkey] at hotherKey
    · exact ⟨s.context.entries, rfl, .refl _, fun e he _ => he⟩

/-- Fewer entries are still in order. -/
theorem EntriesInv.of_sublist (h : EntriesInv s) {entries : List ContextEntry}
    (hsub : entries.Sublist s.context.entries) : EntriesInv (s.setEntries entries) :=
  ⟨h.sorted.sublist (hsub.map _), fun entry hentry => h.bound entry (hsub.subset hentry)⟩

theorem EntriesInv.appendEntry (h : EntriesInv s) {entry : ContextEntry}
    (hid : entry.entryId = s.idCursors.lastContextEntryId + 1) :
    EntriesInv (appendEntry s entry) := by
  have hlt : ∀ e ∈ s.context.entries, e.entryId < entry.entryId := fun e he =>
    hid ▸ Nat.lt_succ_of_le (h.bound e he)
  constructor
  · simp only [Harness.appendEntry, List.map_append, List.map_singleton]
    refine List.pairwise_append.mpr ⟨h.sorted, List.pairwise_singleton _ _, ?_⟩
    simpa using hlt
  · intro e he
    rcases List.mem_append.mp he with he | he
    · exact (hlt e he).le
    · exact (List.mem_singleton.mp he ▸ le_rfl : e.entryId ≤ entry.entryId)

/-- One entry is written: it takes the next id, and its source is recorded. -/
theorem applyEntry_spec {entry : ContextEntry} (hinv : EntriesInv s)
    (h : applyEntry s entry = .ok t) :
    WriteFrame s t ∧ Written s.context.entries [entry] t.context.entries ∧ EntriesInv t ∧
      entry.entryId = s.idCursors.lastContextEntryId + 1 ∧
      t.idCursors.lastContextEntryId = entry.entryId := by
  obtain ⟨hvalid, recorded, replaced, hrecorded, hreplaced, rfl⟩ := applyEntry_eq_ok.mp h
  have hid := (validateNextEntry_eq_ok.mp hvalid).1
  obtain ⟨hframe, hcontext, hcursors⟩ := recordEntryMaterialization_frame hrecorded
  have hinv' : EntriesInv recorded := by
    constructor
    · rw [hcontext]
      exact hinv.sorted
    · rw [hcontext, hcursors]
      exact hinv.bound
  obtain ⟨kept, rfl, hsub, hkept⟩ := replaceKeyed_spec hreplaced
  rw [hcontext] at hsub hkept
  have hnext : entry.entryId = (recorded.setEntries kept).idCursors.lastContextEntryId + 1 := by
    rw [← hcursors] at hid
    exact hid
  have happended := (hinv'.of_sublist (hcontext ▸ hsub)).appendEntry hnext
  obtain ⟨after, hafter, hsub', hkept'⟩ := capVersions_spec entry happended.nodup
  rw [hafter]
  refine ⟨?_, ⟨?_, ?_⟩, happended.of_sublist hsub', hid, rfl⟩
  · refine hframe.trans ⟨rfl, rfl, rfl, rfl, fun run hrun => ⟨run, hrun, .refl run⟩, fun hrun => hrun⟩
  · exact hsub'.trans (hsub.append_right [entry])
  · intro e he hkey
    refine hkept' e (List.mem_append.mpr ?_) hkey
    exact (List.mem_append.mp he).imp_left fun he => hkept e he hkey

/-- Entries are written one after the other. -/
theorem applyEntries_spec {entries : List ContextEntry} (hinv : EntriesInv s)
    (h : entries.foldlM applyEntry s = .ok t) :
    WriteFrame s t ∧ Written s.context.entries entries t.context.entries ∧ EntriesInv t ∧
      entries.map ContextEntry.entryId =
        List.range' (s.idCursors.lastContextEntryId + 1) entries.length ∧
      t.idCursors.lastContextEntryId = s.idCursors.lastContextEntryId + entries.length := by
  induction entries generalizing s with
  | nil =>
    rw [List.foldlM_nil, pure_eq_ok] at h
    subst h
    exact ⟨.refl s, .nil _, hinv, rfl, rfl⟩
  | cons entry rest ih =>
    obtain ⟨m, hm, h⟩ := foldlM_cons_eq_ok.mp h
    obtain ⟨hframe, hwritten, hinv', hid, hcursor⟩ := applyEntry_spec hinv hm
    obtain ⟨hframe', hwritten', hinv'', hids, hcursor'⟩ := ih hinv' h
    refine ⟨hframe.trans hframe', hwritten.cons hwritten', hinv'', ?_, ?_⟩
    · rw [List.map_cons, hids, hcursor, hid, List.length_cons, List.range'_succ]
    · rw [hcursor', hcursor, hid, List.length_cons]
      omega

/-! ## Context events -/

/-- The same run as far as its turns, batches and approvals go. -/
structure ActiveRun.Kept (a b : ActiveRun) : Prop where
  run : b = { a with
    contextRecovery := b.contextRecovery, inputEntryIds := b.inputEntryIds, usage := b.usage
    steering := b.steering, entryGuardAttempted := b.entryGuardAttempted }
  steering : b.steering.map SteeringBatch.steeringId = a.steering.map SteeringBatch.steeringId

theorem ActiveRun.Kept.same {a b : ActiveRun} (h : a.Kept b) : a.Same b := by
  rw [h.run]
  constructor <;> rfl

theorem ActiveRun.Wrote.keeps {a b : ActiveRun} (h : a.Wrote b) : a.Kept b :=
  ⟨by rw [h.run], h.steeringIds⟩

theorem RunInv.kept {cursors : IdCursors} {revision : Nat} {a b : ActiveRun}
    (h : RunInv cursors revision a) (hkept : a.Kept b) : RunInv cursors revision b := by
  have hsteering := h.withSteering hkept.steering
  rw [hkept.run]
  exact { hsteering with }

/-- What a context event leaves alone. -/
structure ContextFrame (s t : CoreAgentState) : Prop where
  state : t = { s with runs := t.runs, context := t.context, idCursors := t.idCursors }
  cursors : t.idCursors =
    { s.idCursors with lastContextEntryId := t.idCursors.lastContextEntryId }
  runs : t.runs = { s.runs with active := t.runs.active }
  active : ∀ b, t.runs.active = some b → ∃ a, s.runs.active = some a ∧ a.Kept b
  inactive : t.runs.active = none → s.runs.active = none
  entries : EntriesInv t

theorem ContextFrame.runsFrame (h : ContextFrame s t) : RunsFrame s t where
  queued := by rw [h.runs]
  finished := by rw [h.runs]
  prunedThrough := by rw [h.runs]
  lastRunId := by rw [h.cursors]
  active := fun b hb => by
    obtain ⟨a, ha, hab⟩ := h.active b hb
    exact ⟨a, ha, hab.same⟩
  inactive := h.inactive

theorem ContextFrame.stays (h : ContextFrame s t) {run : ActiveRun}
    (hactive : s.runs.active = some run) : ∃ run', t.runs.active = some run' ∧ run.Kept run' := by
  obtain ⟨run', ht, -⟩ := h.runsFrame.stays hactive
  obtain ⟨a, ha, hkept⟩ := h.active run' ht
  exact ⟨run', ht, Option.mem_unique hactive ha ▸ hkept⟩

theorem WriteFrame.contextFrame (h : WriteFrame s t) (hinv : EntriesInv t) : ContextFrame s t where
  state := h.state
  cursors := h.cursors
  runs := h.runs
  active := fun b hb => by
    obtain ⟨a, ha, hab⟩ := h.active b hb
    exact ⟨a, ha, hab.keeps⟩
  inactive := h.inactive
  entries := hinv

/-- A new revision is all that a bump adds. -/
theorem ContextFrame.bump (h : ContextFrame s t) : ContextFrame s (bumpContextRevision t) where
  state := by
    rw [h.state]
    rfl
  cursors := h.cursors
  runs := h.runs
  active := h.active
  inactive := h.inactive
  entries := ⟨h.entries.sorted, h.entries.bound⟩

/-- A context event that may rewrite the active run's own counters and context's own fields. -/
theorem ContextFrame.of_mapActive {f : ActiveRun → ActiveRun} {context : ContextState}
    (hinv : EntriesInv s) (hf : ∀ run : ActiveRun, run.Kept (f run))
    (hentries : context.entries = s.context.entries) :
    ContextFrame s { s.mapActive f with context := context } where
  state := rfl
  cursors := rfl
  runs := rfl
  active := fun b hb => by
    obtain ⟨a, ha, rfl⟩ := Option.map_eq_some_iff.mp hb
    exact ⟨a, ha, hf a⟩
  inactive := fun hb => Option.map_eq_none_iff.mp hb
  entries := ⟨by rw [hentries]; exact hinv.sorted, by rw [hentries]; exact hinv.bound⟩

theorem recordCompactionAttempt_kept (s : CoreAgentState) (trigger : ContextCompactionTrigger)
    (run : ActiveRun) : run.Kept (recordCompactionAttempt s trigger run) := by
  unfold recordCompactionAttempt
  dsimp only
  cases run.latestTurn with
  | none => split_ifs <;> exact ⟨rfl, rfl⟩
  | some turn =>
    by_cases hlimit : turn.hitContextLimit
    · simp only [hlimit, if_true]
      split_ifs <;> exact ⟨rfl, rfl⟩
    · simp only [hlimit]
      split_ifs <;> exact ⟨rfl, rfl⟩

/-- Removing by several keys removes entries only. -/
theorem removeKeys_sublist (keys : List ContextEntryKey) (s : CoreAgentState) :
    ∃ entries, keys.foldl removeContextEntryByKey s = s.setEntries entries ∧
      entries.Sublist s.context.entries ∧ ∀ e ∈ s.context.entries, e.key = none → e ∈ entries := by
  induction keys generalizing s with
  | nil => exact ⟨s.context.entries, rfl, .refl _, fun e he _ => he⟩
  | cons key rest ih =>
    obtain ⟨entries, heq, hsub, hkept⟩ := ih (removeContextEntryByKey s key)
    refine ⟨entries, heq, hsub.trans List.filter_sublist, fun e he hkey => ?_⟩
    exact hkept e (List.mem_filter.mpr ⟨he, by simp [hkey]⟩) hkey

/-- Replacing entries in place keeps their ids. -/
theorem replaceEntries_ids (replacements entries : List ContextEntry) :
    (replacements.foldl replaceEntry entries).map ContextEntry.entryId =
      entries.map ContextEntry.entryId := by
  induction replacements generalizing entries with
  | nil => rfl
  | cons entry rest ih =>
    rw [List.foldl_cons, ih, replaceEntry, List.map_map]
    refine List.map_congr_left fun active _ => ?_
    by_cases h : active.entryId = entry.entryId <;> simp [h]

/-- A context event touches context, what is written down of the active run, and the entry cursor. -/
theorem applyContextEvent_frame {event : ContextEvent} (hinv : EntriesInv s)
    (h : applyContextEvent s event = .ok t) : ContextFrame s t := by
  cases event with
  | entriesApplied baseRevision entries =>
    obtain ⟨-, m, hm, rfl⟩ := entriesApplied_eq_ok.mp h
    obtain ⟨-, -, hm⟩ := applyEntriesApplied_eq_ok.mp hm
    obtain ⟨hframe, -, hinv', -⟩ := applyEntries_spec hinv hm
    exact (hframe.contextFrame hinv').bump
  | entriesRemoved baseRevision entryIds reason =>
    obtain ⟨-, -, -, -, -, rfl⟩ := entriesRemoved_eq_ok.mp h
    exact ((WriteFrame.of_entries _).contextFrame (hinv.of_sublist List.filter_sublist)).bump
  | keysRemoved baseRevision keys =>
    obtain ⟨-, -, -, rfl⟩ := keysRemoved_eq_ok.mp h
    obtain ⟨entries, heq, hsub, -⟩ := removeKeys_sublist keys s
    rw [heq]
    exact ((WriteFrame.of_entries _).contextFrame (hinv.of_sublist hsub)).bump
  | keyPrefixReplaced baseRevision keyPrefix entries =>
    obtain ⟨-, -, -, m, hm, rfl⟩ := keyPrefixReplaced_eq_ok.mp h
    have hremoved : EntriesInv (removeContextEntriesByKeyPrefix s keyPrefix) :=
      hinv.of_sublist List.filter_sublist
    have hframe : WriteFrame s (removeContextEntriesByKeyPrefix s keyPrefix) := .of_entries _
    split_ifs at hm
    · cases hm
      exact (hframe.contextFrame hremoved).bump
    · obtain ⟨-, -, hm⟩ := applyEntriesApplied_eq_ok.mp hm
      obtain ⟨hframe', -, hinv', -⟩ := applyEntries_spec hremoved hm
      exact ((hframe.trans hframe').contextFrame hinv').bump
  | entriesReplaced baseRevision entries =>
    obtain ⟨-, -, -, -, rfl⟩ := entriesReplaced_eq_ok.mp h
    refine ((WriteFrame.of_entries _).contextFrame ⟨?_, ?_⟩).bump
    · exact (replaceEntries_ids entries s.context.entries).symm ▸ hinv.sorted
    · intro entry hentry
      have hmem := List.mem_map_of_mem (f := ContextEntry.entryId) hentry
      rw [show (s.setEntries (entries.foldl replaceEntry s.context.entries)).context.entries =
        entries.foldl replaceEntry s.context.entries from rfl, replaceEntries_ids] at hmem
      obtain ⟨active, hactive, hid⟩ := List.mem_map.mp hmem
      exact hid ▸ hinv.bound active hactive
  | compactionRequested baseRevision trigger plan =>
    obtain ⟨-, -, -, -, -, -, rfl⟩ := compactionRequested_eq_ok.mp h
    have hentries : ({ s.context with compaction :=
        { s.context.compaction with phase := .pending plan } } : ContextState).entries =
          s.context.entries := rfl
    exact (ContextFrame.of_mapActive hinv (recordCompactionAttempt_kept s trigger) hentries).bump
  | compactionQueued baseRevision =>
    obtain ⟨-, -, -, rfl⟩ := compactionQueued_eq_ok.mp h
    exact ⟨rfl, rfl, rfl, fun run hrun => ⟨run, hrun, rfl, rfl⟩, id, ⟨hinv.sorted, hinv.bound⟩⟩
  | compactionFinished baseRevision status failureRef usage calls =>
    obtain ⟨-, -, -, rfl⟩ := compactionFinished_eq_ok.mp h
    exact ContextFrame.of_mapActive hinv (fun run => ⟨rfl, rfl⟩) rfl

/-! ## The other components -/

theorem ActiveRun.Judged.moved {a b : ActiveRun} (h : a.Judged b) : a.Moved b := by
  rw [h.run]
  exact .of_eq (by constructor <;> rfl) rfl rfl

theorem ActiveRun.Writes.moved {turnId : TurnId} {turn after : TurnState} {a b : ActiveRun}
    (h : a.Writes turnId turn after b) : a.Moved b where
  same := by rw [h.run]; constructor <;> rfl
  inputEntryIds := by rw [h.run]
  steering := h.steering ▸ .refl _

/-- A turn event moves the active run on. Of the context it changes no entry, no revision and no
compaction. -/
theorem applyTurnEvent_frame {event : TurnEvent} (h : applyTurnEvent s event = .ok t) :
    ∃ run run', s.runs.active = some run ∧ run.Moved run' ∧
      t.context.entries = s.context.entries ∧ t.context.revision = s.context.revision ∧
      t.context.compaction = s.context.compaction ∧
      t = { s.setActive run' with
        context := t.context
        idCursors := { s.idCursors with lastTurnId := t.idCursors.lastTurnId } } := by
  cases applyTurnEvent_moves h with
  | starts hactive | cancels hactive =>
    exact ⟨_, _, hactive, by exact .of_eq (by constructor <;> rfl) rfl rfl, rfl, rfl, rfl, rfl⟩
  | writes context hactive hopen hget hwrites hentries hrevision hcompaction =>
    exact ⟨_, _, hactive, hwrites.moved, hentries, hrevision, hcompaction, rfl⟩
  | completes hactive =>
    exact ⟨_, _, hactive, by exact .of_sublist (by constructor <;> rfl) rfl (pruneSteering_sublist _ _),
      rfl, rfl, rfl, rfl⟩

/-- A tool event moves the active run on, and may prune finished work. -/
theorem applyToolEvent_frame {event : ToolEvent} (h : applyToolEvent s event = .ok t) :
    ∃ run run', s.runs.active = some run ∧ run.Moved run' ∧
      t = { s.setActive run' with
        idCursors := { s.idCursors with lastToolBatchId := t.idCursors.lastToolBatchId }
        promises := t.promises, workflowTools := t.workflowTools, codeTools := t.codeTools } := by
  cases applyToolEvent_moves h with
  | works cursor hworks hactive hrun =>
    refine ⟨_, _, hactive, ?_, rfl⟩
    rw [hrun]
    exact .of_eq (by constructor <;> rfl) rfl rfl
  | parks hactive | unparks hactive =>
    exact ⟨_, _, hactive, by exact .of_eq (by constructor <;> rfl) rfl rfl, rfl⟩
  | completes hactive =>
    exact ⟨_, _, hactive, by exact .of_sublist (by constructor <;> rfl) rfl (pruneSteering_sublist _ _),
      rfl⟩

/-- Whether an event is about the session's runs: one enters, starts, ends, is steered or cancelled. -/
def CoreAgentEvent.isRun : CoreAgentEvent → Bool
  | .run _ => true
  | _ => false

/-- Only run events make runs enter and leave the session. -/
theorem applyEvent_runsFrame (hinv : EntriesInv s) (hevent : entry.event.isRun = false)
    (h : applyEvent s entry = .ok t) : RunsFrame s t := by
  obtain ⟨-, m, hm, rfl⟩ := applyEvent_eq_ok.mp h
  suffices hframe : RunsFrame s m from
    ⟨hframe.queued, hframe.finished, hframe.prunedThrough, hframe.lastRunId, hframe.active,
      hframe.inactive⟩
  cases applyEventKind_moves hm with
  | run heq => rw [heq] at hevent; cases hevent
  | approval heq h =>
    obtain ⟨run, run', hactive, hjudged, heq⟩ := applyApprovalEvent_moves h
    exact .of_active hactive (by rw [heq]; rfl) hjudged.moved.same (by rw [heq])
  | turn heq h =>
    obtain ⟨run, run', hactive, hmoved, -, -, -, heq⟩ := applyTurnEvent_frame h
    exact .of_active hactive (by rw [heq]; rfl) hmoved.same (by rw [heq])
  | context heq h => exact (applyContextEvent_frame hinv h).runsFrame
  | tool heq h =>
    obtain ⟨run, run', hactive, hmoved, heq⟩ := applyToolEvent_frame h
    exact .of_active hactive (by rw [heq]; rfl) hmoved.same (by rw [heq])
  | rests hspares hruns hcontext hcursors => exact .of_eq hruns (by rw [hcursors])

/-- A run event touches the runs and their cursors, and may prune finished work. -/
theorem applyRunEvent_frame {seq ms : Nat} {event : RunEvent}
    (h : applyRunEvent s seq ms event = .ok t) :
    t = { s with
      runs := t.runs
      idCursors := { s.idCursors with
        lastRunId := t.idCursors.lastRunId, lastSteeringId := t.idCursors.lastSteeringId }
      promises := t.promises, workflowTools := t.workflowTools, codeTools := t.codeTools } := by
  cases applyRunEvent_moves h with
  | queues hqueues hactive ht => rw [ht]
  | starts | steers | stops | ends => rfl

/-- What only context events change. -/
structure SameContext (s t : CoreAgentState) : Prop where
  entries : t.context.entries = s.context.entries
  revision : t.context.revision = s.context.revision
  compaction : t.context.compaction = s.context.compaction
  cursor : t.idCursors.lastContextEntryId = s.idCursors.lastContextEntryId

theorem SameContext.of_eq (hcontext : t.context = s.context)
    (hcursor : t.idCursors.lastContextEntryId = s.idCursors.lastContextEntryId) :
    SameContext s t := by
  refine ⟨?_, ?_, ?_, hcursor⟩ <;> rw [hcontext]

theorem SameContext.entriesInv (h : SameContext s t) (hinv : EntriesInv s) : EntriesInv t where
  sorted := by rw [h.entries]; exact hinv.sorted
  bound := by rw [h.entries, h.cursor]; exact hinv.bound

/-- Whether an event is about context. -/
def CoreAgentEvent.isContext : CoreAgentEvent → Bool
  | .context _ => true
  | _ => false

theorem applyEvent_sameContext (hevent : entry.event.isContext = false)
    (h : applyEvent s entry = .ok t) : SameContext s t := by
  obtain ⟨-, m, hm, rfl⟩ := applyEvent_eq_ok.mp h
  suffices hframe : SameContext s m from
    ⟨hframe.entries, hframe.revision, hframe.compaction, hframe.cursor⟩
  cases applyEventKind_moves hm with
  | run heq h => rw [applyRunEvent_frame h]; exact .of_eq rfl rfl
  | approval heq h =>
    obtain ⟨run, run', -, -, heq⟩ := applyApprovalEvent_moves h
    rw [heq]
    exact .of_eq rfl rfl
  | turn heq h =>
    obtain ⟨run, run', -, -, hentries, hrevision, hcompaction, heq⟩ := applyTurnEvent_frame h
    exact ⟨hentries, hrevision, hcompaction, by rw [heq]⟩
  | context heq => rw [heq] at hevent; cases hevent
  | tool heq h =>
    obtain ⟨run, run', -, -, heq⟩ := applyToolEvent_frame h
    rw [heq]
    exact .of_eq rfl rfl
  | rests hspares hruns hcontext hcursors => exact .of_eq hcontext (by rw [hcursors])

/-- Whether an event is about the session's lifecycle. -/
def CoreAgentEvent.isLifecycle : CoreAgentEvent → Bool
  | .lifecycle _ => true
  | _ => false

theorem applyEvent_lifecycle (hinv : EntriesInv s) (hevent : entry.event.isLifecycle = false)
    (h : applyEvent s entry = .ok t) : t.lifecycle = s.lifecycle := by
  obtain ⟨-, m, hm, rfl⟩ := applyEvent_eq_ok.mp h
  change m.lifecycle = s.lifecycle
  unfold applyEventKind at hm
  split at hm
  next event heq => rw [heq] at hevent; cases hevent
  next event _ => rw [applyRunEvent_frame hm]
  next event _ =>
    obtain ⟨run, run', -, -, heq⟩ := applyApprovalEvent_moves hm
    rw [heq]
    rfl
  next event _ =>
    obtain ⟨run, run', -, -, -, -, -, heq⟩ := applyTurnEvent_frame hm
    rw [heq]
    rfl
  next event _ => rw [(applyContextEvent_frame hinv hm).state]
  next event _ => cases event <;> cases hm <;> rfl
  next event _ =>
    obtain ⟨-, -, rfl⟩ := toolConfig_eq_ok.mp hm
    rfl
  next event _ =>
    obtain ⟨run, run', -, -, heq⟩ := applyToolEvent_frame hm
    rw [heq]
    rfl
  next event _ => rw [applyPromiseEvent_frame hm]
  next event _ =>
    obtain ⟨_, rfl, -⟩ := workflowToolConfig_ok hm
    rfl
  next event _ => rw [applyCodeToolEvent_frame hm]
  next event _ => rw [applyWorkflowToolEvent_frame hm]

/-- Every event keeps the entries in order. -/
theorem applyEvent_entriesInv (hinv : EntriesInv s) (h : applyEvent s entry = .ok t) :
    EntriesInv t := by
  by_cases hevent : entry.event.isContext = true
  · obtain ⟨-, m, hm, rfl⟩ := applyEvent_eq_ok.mp h
    cases hcontext : entry.event with
    | context event =>
      simp only [applyEventKind, hcontext] at hm
      have hframe := applyContextEvent_frame hinv hm
      exact ⟨hframe.entries.sorted, hframe.entries.bound⟩
    | _ =>
      rw [hcontext] at hevent
      cases hevent
  · exact (applyEvent_sameContext (by simpa using hevent) h).entriesInv hinv

/-- Only run events and context events change which entries are recorded on the active run. -/
theorem applyEvent_moved (hrun : entry.event.isRun = false)
    (hcontext : entry.event.isContext = false) (h : applyEvent s entry = .ok t) :
    ∀ b, t.runs.active = some b → ∃ a, s.runs.active = some a ∧ a.Moved b := by
  obtain ⟨-, m, hm, rfl⟩ := applyEvent_eq_ok.mp h
  change ∀ b, m.runs.active = some b → ∃ a, s.runs.active = some a ∧ a.Moved b
  have hsame : m.runs = s.runs →
      ∀ b, m.runs.active = some b → ∃ a, s.runs.active = some a ∧ a.Moved b := by
    intro hruns b hb
    exact ⟨b, hruns ▸ hb, .of_eq (.refl b) rfl rfl⟩
  have hmoved : ∀ run run', s.runs.active = some run → run.Moved run' →
      m.runs.active = some run' →
      ∀ b, m.runs.active = some b → ∃ a, s.runs.active = some a ∧ a.Moved b := by
    intro run run' hactive hmoved hm' b hb
    exact ⟨run, hactive, Option.mem_unique hm' hb ▸ hmoved⟩
  cases applyEventKind_moves hm with
  | run heq => rw [heq] at hrun; cases hrun
  | approval heq h =>
    obtain ⟨run, run', hactive, hjudged, heq⟩ := applyApprovalEvent_moves h
    exact hmoved run run' hactive hjudged.moved (by rw [heq]; rfl)
  | turn heq h =>
    obtain ⟨run, run', hactive, hsame, -, -, -, heq⟩ := applyTurnEvent_frame h
    exact hmoved run run' hactive hsame (by rw [heq]; rfl)
  | context heq => rw [heq] at hcontext; cases hcontext
  | tool heq h =>
    obtain ⟨run, run', hactive, hsame, heq⟩ := applyToolEvent_frame h
    exact hmoved run run' hactive hsame (by rw [heq]; rfl)
  | rests hspares hruns => exact hsame hruns

/-! ## Promises -/

/-- Whether an event is about promises. -/
def CoreAgentEvent.isPromise : CoreAgentEvent → Bool
  | .promise _ => true
  | _ => false

theorem applyRunEvent_work {event : RunEvent} {seq ms : Nat}
    (hevent : (CoreAgentEvent.run event).mayPrune = false) (h : applyRunEvent s seq ms event = .ok t) :
    t.promises = s.promises ∧ t.codeTools = s.codeTools ∧ t.workflowTools = s.workflowTools := by
  cases applyRunEvent_moves h with
  | queues hqueues hactive ht =>
    rw [ht]
    exact ⟨rfl, rfl, rfl⟩
  | starts | steers | stops => exact ⟨rfl, rfl, rfl⟩
  | ends hactive hends => rw [mayPrune_of_terminal hends] at hevent; cases hevent

theorem applyToolEvent_work {event : ToolEvent} (hevent : (CoreAgentEvent.tool event).mayPrune = false)
    (h : applyToolEvent s event = .ok t) :
    t.promises = s.promises ∧ t.codeTools = s.codeTools ∧ t.workflowTools = s.workflowTools := by
  cases applyToolEvent_moves h with
  | works | parks | unparks => exact ⟨rfl, rfl, rfl⟩
  | completes => cases hevent

/-- What an event does to promises, workflow tools and code tools: it is about them or prunes them, or
leaves them as they are. -/
inductive WorkMoves (s : CoreAgentState) (entry : CoreAgentEntry) (t : CoreAgentState) : Prop
  | prunes (hprune : entry.event.mayPrune = true)
  | promise {event : PromiseEvent} (heq : entry.event = .promise event)
      (h : applyPromiseEvent s event = .ok t)
  | codeTool {event : CodeToolEvent} (heq : entry.event = .codeTool event)
      (h : applyCodeToolEvent s event = .ok t)
  | workflowTool {event : WorkflowToolEvent} (heq : entry.event = .workflowTool event)
      (h : applyWorkflowToolEvent s event = .ok t)
  | rests (hpromises : t.promises = s.promises) (hscopes : t.codeTools = s.codeTools)
      (hbound : t.workflowTools.boundInvocations = s.workflowTools.boundInvocations)
      (hstarted : t.workflowTools.startRequests = s.workflowTools.startRequests)
      (hcursor : t.idCursors.lastPromiseId = s.idCursors.lastPromiseId)

theorem applyEventKind_work (hinv : EntriesInv s) (h : applyEventKind s entry = .ok t) :
    WorkMoves s entry t := by
  cases hprune : entry.event.mayPrune with
  | true => exact .prunes hprune
  | false =>
    unfold applyEventKind at h
    split at h
    next event _ =>
      rw [applyLifecycleEvent_frame h]
      exact .rests rfl rfl rfl rfl rfl
    next event heq =>
      obtain ⟨hpromises, hscopes, htools⟩ := applyRunEvent_work (heq ▸ hprune) h
      exact .rests hpromises hscopes (by rw [htools]) (by rw [htools]) (by rw [applyRunEvent_frame h])
    next event _ =>
      obtain ⟨_, _, -, -, hframe⟩ := applyApprovalEvent_moves h
      rw [hframe]
      exact .rests rfl rfl rfl rfl rfl
    next event _ =>
      obtain ⟨_, _, -, -, -, -, -, hframe⟩ := applyTurnEvent_frame h
      rw [hframe]
      exact .rests rfl rfl rfl rfl rfl
    next event _ =>
      have hframe := applyContextEvent_frame hinv h
      rw [hframe.state]
      exact .rests rfl rfl rfl rfl (by rw [hframe.cursors])
    next event _ => cases event <;> cases h <;> exact .rests rfl rfl rfl rfl rfl
    next event _ =>
      obtain ⟨-, -, rfl⟩ := toolConfig_eq_ok.mp h
      exact .rests rfl rfl rfl rfl rfl
    next event heq =>
      obtain ⟨hpromises, hscopes, htools⟩ := applyToolEvent_work (heq ▸ hprune) h
      obtain ⟨_, _, -, -, hframe⟩ := applyToolEvent_frame h
      exact .rests hpromises hscopes (by rw [htools]) (by rw [htools]) (by rw [hframe])
    next event heq => exact .promise heq h
    next event _ =>
      obtain ⟨_, rfl, hbound, hstarted⟩ := workflowToolConfig_ok h
      exact .rests rfl rfl hbound hstarted rfl
    next event heq => exact .codeTool heq h
    next event heq => exact .workflowTool heq h

/-- Only promise events and pruning change the promises. -/
theorem applyEvent_promises (hinv : EntriesInv s) (hpromise : entry.event.isPromise = false)
    (hprune : entry.event.mayPrune = false) (h : applyEvent s entry = .ok t) :
    t.promises = s.promises := by
  obtain ⟨-, m, hm, rfl⟩ := applyEvent_eq_ok.mp h
  change m.promises = s.promises
  cases applyEventKind_work hinv hm with
  | prunes hprunes => rw [hprunes] at hprune; cases hprune
  | promise heq => rw [heq] at hpromise; cases hpromise
  | codeTool heq h => rw [applyCodeToolEvent_frame h]
  | workflowTool heq h => rw [applyWorkflowToolEvent_frame h]
  | rests hpromises => exact hpromises

/-- What an event that prunes leaves is what was left of a state with the same work. -/
theorem applyEvent_pruned (hprune : entry.event.mayPrune = true) (h : applyEvent s entry = .ok t) :
    ∃ m : CoreAgentState, m.promises = s.promises ∧ m.workflowTools = s.workflowTools ∧
      t.promises = (pruneFinishedWork m).promises ∧
      t.workflowTools = (pruneFinishedWork m).workflowTools ∧
      t.codeTools = (pruneFinishedWork m).codeTools := by
  obtain ⟨-, m, hm, rfl⟩ := applyEvent_eq_ok.mp h
  cases hevent : entry.event with
  | run event =>
    simp only [applyEventKind, hevent] at hm
    rw [hevent] at hprune
    cases applyRunEvent_moves hm with
    | queues hqueues => rw [mayPrune_of_queues hqueues] at hprune; cases hprune
    | starts | steers | stops => cases hprune
    | ends hactive => exact ⟨(interruptCodeToolsForRun s _).setRuns _, rfl, rfl, rfl, rfl, rfl⟩
  | tool event =>
    simp only [applyEventKind, hevent] at hm
    rw [hevent] at hprune
    cases applyToolEvent_moves hm with
    | works cursor hworks => rw [mayPrune_of_works hworks] at hprune; cases hprune
    | parks | unparks => cases hprune
    | completes => exact ⟨s.setActive _, rfl, rfl, rfl, rfl, rfl⟩
  | _ => rw [hevent] at hprune; cases hprune

/-- Pruning drops the oldest settled promises. -/
theorem applyEvent_prunes (hprune : entry.event.mayPrune = true) (h : applyEvent s entry = .ok t) :
    t.promises = (pruneTerminalPromises s).promises := by
  obtain ⟨m, hpromises, -, hpruned, -⟩ := applyEvent_pruned hprune h
  rw [hpruned]
  change (pruneTerminalPromises m).promises = (pruneTerminalPromises s).promises
  simp only [pruneTerminalPromises, CoreAgentState.setPromises, hpromises]

/-- A promise event takes no promise away. -/
theorem applyPromiseEvent_contains {event : PromiseEvent} {id : PromiseId}
    (h : applyPromiseEvent s event = .ok t) (hid : s.promises.promises.contains id = true) :
    t.promises.promises.contains id = true := by
  have hinsert : ∀ (m : OrdMap PromiseId Promise) (key : PromiseId) (promise : Promise),
      m.contains id = true → (m.insert key promise).contains id = true := by
    intro m key promise hm
    rw [OrdMap.contains_iff] at hm ⊢
    rw [OrdMap.get?_insert]
    split_ifs
    · exact ⟨promise, rfl⟩
    · exact hm
  cases event with
  | created promise =>
    obtain ⟨-, -, -, rfl⟩ := promiseCreated_eq_ok.mp h
    exact hinsert _ _ _ hid
  | resolved promiseId payloadRef =>
    obtain ⟨_, -, -, rfl⟩ := promiseResolved_eq_ok.mp h
    exact hinsert _ _ _ hid
  | failed promiseId errorRef =>
    obtain ⟨_, -, -, rfl⟩ := promiseFailed_eq_ok.mp h
    exact hinsert _ _ _ hid
  | cancelled promiseId =>
    obtain ⟨_, -, -, rfl⟩ := promiseCancelled_eq_ok.mp h
    exact hinsert _ _ _ hid
  | detached promiseId =>
    obtain ⟨_, -, -, rfl⟩ := promiseDetached_eq_ok.mp h
    exact hinsert _ _ _ hid

/-- Only pruning takes promises away. -/
theorem applyEvent_contains {id : PromiseId} (hinv : EntriesInv s)
    (hprune : entry.event.mayPrune = false) (h : applyEvent s entry = .ok t)
    (hid : s.promises.promises.contains id = true) : t.promises.promises.contains id = true := by
  cases hpromise : entry.event.isPromise with
  | false =>
    rw [applyEvent_promises hinv hpromise hprune h]
    exact hid
  | true =>
    obtain ⟨-, m, hm, rfl⟩ := applyEvent_eq_ok.mp h
    cases hevent : entry.event with
    | promise event =>
      simp only [applyEventKind, hevent] at hm
      have hkept : m.promises.promises.contains id = true := applyPromiseEvent_contains hm hid
      exact hkept
    | _ => rw [hevent] at hpromise; cases hpromise

end Lightspeed.Harness
