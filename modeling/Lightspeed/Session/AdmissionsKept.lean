import Lightspeed.Lib.Lists
import Lightspeed.Session.Kept

/-!
# What admissions keep

Admissions append what commands propose. An operation appends a whole candidate, which was prepared on a
copy of the core state: the head that it compares says that no append came in between.
-/

namespace Lightspeed.Session

open Lib Harness Program

variable {args : AgentSessionArgs}
  {meets : (request : SessionRequest) → AgentSessionWorkflow → SessionReply request → Prop}
  {allowed : DriveInput → Prop} {I J P : AgentSessionWorkflow → Prop} {F : SessionError → Prop}
  {s t : AgentSessionWorkflow}

/-! ## Observations -/

theorem takeAdmissions_beside (s : AgentSessionWorkflow) (p : SessionAdmission → Bool) :
    Beside s (s.takeAdmissions p).2 := .queues rfl rfl rfl rfl rfl rfl rfl

theorem takeAdmissible_beside (s : AgentSessionWorkflow) : Beside s s.takeAdmissible.2 := by
  unfold AgentSessionWorkflow.takeAdmissible
  split_ifs
  · exact takeAdmissions_beside s _
  · exact takeAdmissions_beside s _
  · exact takeAdmissions_beside s _
  · exact .queues rfl rfl rfl rfl rfl rfl rfl

theorem Kept.admitControl (h : Kept args meets allowed I) (admission : SessionAdmission) :
    SessionKeeps meets P I (admitControl args admission) := by
  cases admission with
  | core command => exact .bind (h.admitAndAppendCommand command) fun _ => .pure _
  | _ => exact .pure _

theorem Kept.awaitActivity (h : Kept args meets allowed I) (observation : Observation) :
    SessionKeeps meets P I (awaitActivity args observation) := by
  refine .loop (fun _ => .bind (h.ask ?_) fun reply => ?_) ()
  · exact fun _ => trivial
  cases reply with
  | interrupted =>
    refine .bind (h.take fun s => takeAdmissions_beside s _) fun controls => ?_
    refine .bind (.attempt (.forM h.admitControl)) fun result => ?_
    cases result with
    | error error => exact .pure _
    | ok _ =>
      refine .bind keeps_read fun _ => ?_
      split
      · exact .pure _
      · exact .pure _
  | _ => exact .pure _

/-! ## Candidates -/

/-- The entries of a candidate extend the core state that it was taken of. -/
structure Prepares (args : AgentSessionArgs) (allowed : DriveInput → Prop) (core : CoreAgentState)
    (candidate : PreparationCandidate) : Prop where
  head : candidate.originalHead = core.reducedTo
  extends_ : Extended args allowed core candidate.entries candidate.state

variable {core : CoreAgentState} {candidate next : PreparationCandidate} {nowMs : Nat}

theorem prepares_new (core : CoreAgentState) : Prepares args allowed core (.new core) :=
  ⟨rfl, .nil⟩

theorem Prepares.pushCommand (h : Prepares args allowed core candidate)
    (hcommands : ∀ command, allowed (.admitCommand command)) {command : CoreAgentCommand}
    (hpush : candidate.pushCommand args nowMs command = some next) :
    Prepares args allowed core next := by
  unfold PreparationCandidate.pushCommand at hpush
  split at hpush
  · cases hpush
  · split at hpush
    · cases hpush
    next entries hpropose =>
      split at hpush
      · cases hpush
      next state hreduce =>
        cases hpush
        exact ⟨h.head, .append h.extends_ (hcommands command) hpropose hreduce⟩

theorem Prepares.push (h : Prepares args allowed core candidate)
    (hcommands : ∀ command, allowed (.admitCommand command)) {command : CoreAgentCommand}
    (hpush : candidate.push args nowMs command = some next) : Prepares args allowed core next := by
  obtain ⟨first, hfirst, hrest⟩ := Option.bind_eq_some_iff.mp hpush
  refine foldlM_some_preserves (fun a b invalidKey hstep ha => ?_) hrest (h.pushCommand hcommands hfirst)
  unfold PreparationCandidate.removeInvalid at hstep
  split at hstep
  · cases hstep
    exact ha
  · exact ha.pushCommand hcommands hstep

theorem Prepares.pushPrepared (h : Prepares args allowed core candidate)
    (hcommands : ∀ command, allowed (.admitCommand command)) {prepared : SessionToolsetPreparation}
    (hpush : candidate.pushPrepared args nowMs prepared = some next) :
    Prepares args allowed core next := by
  refine foldlM_some_preserves (fun a b command hstep ha => ?_) hpush h
  split at hstep
  · cases hstep
    exact ha
  · exact ha.push hcommands hstep

/-! ## The head -/

/-- The core state is the given one, or events came after it. -/
def Advanced (core now : CoreAgentState) : Prop := now = core ∨ core.nextSeq < now.nextSeq

theorem nextSeq_fold {entries : List CoreAgentEntry} {now : CoreAgentState}
    (h : entries.foldlM applyEvent core = .ok now) : now.nextSeq = core.nextSeq + entries.length := by
  induction entries generalizing core with
  | nil =>
    rw [List.foldlM_nil, pure_eq_ok] at h
    exact h ▸ rfl
  | cons entry rest ih =>
    obtain ⟨m, hm, h⟩ := foldlM_cons_eq_ok.mp h
    obtain ⟨hnext, u, -, rfl⟩ := applyEvent_eq_ok.mp hm
    have hseq : CoreAgentState.nextSeq { u with reducedTo := some entry.seq } = core.nextSeq + 1 :=
      congrArg (· + 1) hnext
    rw [ih h, hseq, List.length_cons, Nat.add_assoc, Nat.add_comm 1]

/-- The head tells whether events came after a core state. -/
theorem Advanced.eq_of_head {now : CoreAgentState} (h : Advanced core now)
    (hhead : now.reducedTo = core.reducedTo) : now = core := by
  refine h.resolve_right fun hlt => ?_
  unfold CoreAgentState.nextSeq at hlt
  rw [hhead] at hlt
  exact absurd hlt (Nat.lt_irrefl _)

/-- What is kept, is kept with the events since a core state. -/
theorem Kept.since (h : Kept args meets allowed I) (core : CoreAgentState) :
    Kept args meets allowed fun s => I s ∧ Advanced core s.coreState where
  commands := h.commands
  beside s t hs hbeside := by
    refine ⟨h.beside s t hs.1 hbeside, ?_⟩
    rw [hbeside.core]
    exact hs.2
  append s entries t followups hs hne hextended hmeets happly := by
    refine ⟨h.append s entries t followups hs.1 hne hextended hmeets happly, .inr ?_⟩
    have hlength : 0 < entries.length := List.length_pos_iff.mpr hne
    have hafter := nextSeq_fold hextended.reduces
    rw [hafter]
    rcases hs.2 with hcore | hlt
    · rw [hcore]
      exact Nat.lt_add_of_pos_right hlength
    · exact hlt.trans (Nat.lt_add_of_pos_right hlength)

/-! ## Operations -/

/-- A program that keeps `I` comes to candidates of a core state only. -/
abbrev YieldsCandidate (args : AgentSessionArgs)
    (meets : (request : SessionRequest) → AgentSessionWorkflow → SessionReply request → Prop)
    (allowed : DriveInput → Prop) (P I : AgentSessionWorkflow → Prop) (core : CoreAgentState)
    (p : SessionProgram (Option PreparationCandidate)) : Prop :=
  Yields sessionOutside meets (asleep P) I
    (fun result => ∀ candidate, result = some candidate → Prepares args allowed core candidate)
    (fun _ => True) p

theorem yields_none : YieldsCandidate args meets allowed P I core (pure none) := by
  refine .pure ?_
  rintro candidate ⟨⟩

theorem yields_some (h : Prepares args allowed core candidate) :
    YieldsCandidate args meets allowed P I core (pure (some candidate)) :=
  .pure fun _ heq => Option.some.inj heq ▸ h

theorem Kept.observeInto (h : Kept args meets allowed I) (observation : Observation)
    (hcandidate : Prepares args allowed core candidate) :
    Yields sessionOutside meets (asleep P) I
      (fun result => ∀ found, result = some found → Prepares args allowed core found.1)
      (fun _ => True) (observeInto args observation candidate) := by
  refine .bind (h.awaitActivity observation).yields fun reply _ => ?_
  split
  next prepared defaultInstructions =>
    refine .bind keeps_read.yields fun s _ => ?_
    split
    · refine .pure fun found hfound => ?_
      obtain ⟨pushed, hpushed, rfl⟩ := Option.map_eq_some_iff.mp hfound
      exact hcandidate.pushPrepared h.commands hpushed
    · refine .pure ?_
      rintro found ⟨⟩
  · refine .pure ?_
    rintro found ⟨⟩

theorem yields_map_fst {result : Option (PreparationCandidate × (CoreAgentState → Bool))}
    (hresult : ∀ found, result = some found → Prepares args allowed core found.1) :
    YieldsCandidate args meets allowed P I core (pure (result.map Prod.fst)) := by
  refine .pure fun candidate hcandidate => ?_
  obtain ⟨found, hfound, rfl⟩ := Option.map_eq_some_iff.mp hcandidate
  exact hresult found hfound

theorem Kept.prepareRuntimeProjection (h : Kept args meets allowed I)
    (hcandidate : Prepares args allowed core candidate) :
    YieldsCandidate args meets allowed P I core (prepareRuntimeProjection args candidate) :=
  .bind (h.observeInto _ hcandidate) fun _ hresult => yields_map_fst hresult

theorem Kept.configure (h : Kept args meets allowed I) (config : SessionConfig)
    (expectedRevision : Option Nat) (hcandidate : Prepares args allowed core candidate) :
    YieldsCandidate args meets allowed P I core (configure args config expectedRevision candidate) := by
  refine .bind (h.observeInto _ hcandidate) fun result hresult => ?_
  cases result with
  | none => exact yields_none
  | some found =>
    refine .bind keeps_read.yields fun s _ => .pure fun pushed hpushed => ?_
    exact (hresult found rfl).push h.commands hpushed

theorem Kept.applyProfile (h : Kept args meets allowed I)
    (hcandidate : Prepares args allowed core candidate) :
    YieldsCandidate args meets allowed P I core (applyProfile args candidate) := by
  refine .bind (h.observeInto _ hcandidate) fun result hresult => ?_
  cases result with
  | none => exact yields_none
  | some found =>
    have hfound := hresult found rfl
    dsimp only
    split
    · exact .bind (h.observeInto _ hfound) fun _ hput => yields_map_fst hput
    · exact yields_some hfound

theorem Kept.prepareCandidate (h : Kept args meets allowed I) (operation : SessionOperation)
    (hcandidate : Prepares args allowed core candidate) :
    YieldsCandidate args meets allowed P I core (prepareCandidate args operation candidate) := by
  cases operation with
  | configure config expectedRevision => exact h.configure config expectedRevision hcandidate
  | applyProfile _ _ => exact h.applyProfile hcandidate
  | refreshContext => exact yields_some hcandidate

/-- An operation is prepared on the core state that it starts from. -/
theorem Kept.prepareOperation (h : Kept args meets allowed I) (operation : SessionOperation)
    (hs : I s) :
    Keeps sessionOutside meets (asleep P)
      (fun result t => (I t ∧ Advanced s.coreState t.coreState) ∧
        ∀ candidate, result = some candidate → Prepares args allowed s.coreState candidate)
      (fun _ t => (I t ∧ Advanced s.coreState t.coreState) ∧ True)
      (prepareOperation args operation) s := by
  have hsince := h.since s.coreState
  have hstart : I s ∧ Advanced s.coreState s.coreState := ⟨hs, .inl rfl⟩
  have hnew := @prepares_new args allowed s.coreState
  refine .bind (.act ?_)
  dsimp only
  split_ifs
  · exact yields_none s hstart
  · exact yields_some hnew s hstart
  · exact yields_none s hstart
  · refine Yields.bind (hsince.prepareCandidate operation hnew) (fun result hresult => ?_) s hstart
    cases result with
    | none => exact yields_none
    | some candidate => exact hsince.prepareRuntimeProjection (hresult candidate rfl)

/-- The candidate is appended as long as the head is the one it was prepared on. -/
theorem Kept.executeOperation (h : Kept args meets allowed I) (operation : SessionOperation) :
    SessionKeeps meets P I (executeOperation args operation) := by
  intro s hs
  refine .bind ((h.prepareOperation operation hs).mono ?_ fun _ _ ht => ⟨ht.1.1, trivial⟩)
  rintro result t ⟨⟨ht, hadvanced⟩, hresult⟩
  cases result with
  | none => exact .done ht
  | some candidate =>
    obtain ⟨hhead, hextends⟩ := hresult candidate rfl
    refine .bind (.act ?_)
    dsimp only
    split_ifs with hmoved
    · exact .done ht
    · have hsame : t.coreState = s.coreState :=
        hadvanced.eq_of_head ((not_not.mp hmoved).trans hhead)
      rw [← hsame] at hextends
      refine .bind (.attempt ((h.appendEvents (J := fun _ => True) (fun _ _ _ _ => trivial) ht trivial
        hextends).mono ?_ ?_))
      · exact fun _ u hu => .done hu
      · rintro error u ⟨hu, -⟩
        cases error with
        | refused => exact .done hu
        | fatal => exact .fail ⟨hu, trivial⟩

theorem Kept.processOperation (h : Kept args meets allowed I) (request : SessionOperationRequest) :
    SessionKeeps meets P I (processOperation args request) := by
  have hreceipt : SessionKeeps meets P I (changeState fun s =>
      { s with operationReceipts := s.operationReceipts ++ [request.receipt] }) :=
    h.change fun _ => .queues rfl rfl rfl rfl rfl rfl rfl
  refine .bind keeps_read fun s => ?_
  split
  · exact .pure _
  · dsimp only
    split
    · exact .bind (h.executeOperation _) fun _ => hreceipt
    · exact hreceipt

/-- A session becomes ready, never unready. -/
theorem Kept.prepareInitialSession (h : Kept args meets allowed I) :
    SessionKeeps meets P I (prepareInitialSession args) := by
  refine .bind keeps_read fun s => ?_
  split
  · exact .pure _
  · refine .bind (h.change fun _ => .queues rfl rfl rfl rfl rfl rfl rfl) fun _ => ?_
    split
    · exact keeps_raise trivial
    · refine .bind (h.executeOperation _) fun done => ?_
      split
      · exact h.change fun _ => ⟨rfl, rfl, rfl, rfl, fun _ => rfl, id, .inr (.inl rfl)⟩
      · exact .pure _

/-! ## Runs -/

theorem Kept.publishCommands (h : Kept args meets allowed I)
    (commands : List (CoreAgentState → Option CoreAgentCommand)) :
    SessionKeeps meets P I (publishCommands args commands) := by
  induction commands with
  | nil => exact .pure _
  | cons command rest ih =>
    refine .bind keeps_read fun s => ?_
    split
    · exact ih
    · refine .bind (.attempt (h.admitAndAppendCommand _)) fun result => ?_
      split
      · exact ih
      · exact .pure _

theorem Kept.publishTools (h : Kept args meets allowed I) (prepared : SessionToolsetPreparation) :
    SessionKeeps meets P I (publishTools args prepared) := by
  refine .bind keeps_read fun s => ?_
  split
  · exact .pure _
  · exact h.publishCommands _

theorem Kept.refreshRuntimeProjectionBeforeRun (h : Kept args meets allowed I) :
    SessionKeeps meets P I (refreshRuntimeProjectionBeforeRun args) := by
  refine .bind (h.awaitActivity _) fun reply => ?_
  split
  · exact h.publishCommands _
  · exact .pure _

theorem Kept.publishBeforeRun (h : Kept args meets allowed I) (prepared : SessionToolsetPreparation) :
    SessionKeeps meets P I (publishBeforeRun args prepared) := by
  refine .bind keeps_read fun s => ?_
  split
  · exact .pure _
  · exact h.publishTools prepared

theorem Kept.refreshBeforeRun (h : Kept args meets allowed I) :
    SessionKeeps meets P I (refreshBeforeRun args) := by
  refine .bind keeps_read fun s => ?_
  split
  · exact .pure _
  · exact h.refreshRuntimeProjectionBeforeRun

theorem Kept.prepareRun (h : Kept args meets allowed I) (prepared : SessionToolsetPreparation) :
    SessionKeeps meets P I (prepareRun args prepared) := by
  refine .bind keeps_read fun s => ?_
  split
  · exact .pure _
  · refine .bind (h.publishBeforeRun prepared) fun published => ?_
    split
    · exact .bind h.refreshBeforeRun fun _ => .pure _
    · exact .pure _

theorem Kept.admitPrepared (h : Kept args meets allowed I) (command : CoreAgentCommand)
    (deferred : Option SessionToolsetPreparation) :
    SessionKeeps meets P I (admitPrepared args command deferred) := by
  refine .bind (h.admitAndAppendCommand command) fun result => ?_
  cases result with
  | rejected => exact .pure _
  | accepted =>
    cases deferred with
    | none => exact .pure _
    | some prepared =>
      refine .bind keeps_read fun s => ?_
      split
      · exact keeps_raise trivial
      · exact h.change fun s => ⟨rfl, rfl, rfl, rfl, id, fun _ => by simp, .inr (.inl rfl)⟩

/-- A run goes to preparation in an open session only. -/
theorem Kept.admitCommandOrPrepare (h : Kept args meets allowed I) (command : CoreAgentCommand)
    (observed : Option SessionToolsetPreparation) :
    SessionKeeps meets P I (admitCommandOrPrepare args command observed) := by
  intro s hs
  refine .bind (.act ?_)
  dsimp only
  split_ifs with hrun hready
  · cases observed with
    | none =>
      refine .bind (.act ?_)
      exact .done (h.beside s _ hs ⟨rfl, rfl, rfl, rfl, id, id, .inr (.inr hrun.1)⟩)
    | some prepared =>
      refine Preserves.bind (h.prepareRun prepared) (fun result => ?_) s hs
      cases result with
      | none => exact .pure _
      | some deferred => exact .bind (h.admitPrepared command deferred) fun _ => .pure _
  · exact .done hs
  · exact Preserves.bind (h.admitPrepared command none) (fun _ => .pure _) s hs

theorem Kept.admitOne (h : Kept args meets allowed I) (admission : SessionAdmission) :
    SessionKeeps meets P I (admitOne args admission) := by
  cases admission with
  | operation request => exact .bind (h.processOperation request) fun _ => .pure _
  | core command => exact h.admitCommandOrPrepare command none
  | preparedRun command result =>
    cases result with
    | none => exact .pure _
    | some prepared =>
      exact h.admitCommandOrPrepare (takeInputCapacity prepared command) (some prepared)

theorem Kept.admitAdmissions (h : Kept args meets allowed I) (admissions : List SessionAdmission) :
    SessionKeeps meets P I (admitAdmissions args admissions) := by
  induction admissions with
  | nil => exact .pure _
  | cons admission rest ih =>
    refine .bind (h.admitOne admission) fun prepares => ?_
    split
    · exact h.change fun _ => .queues rfl rfl rfl rfl rfl rfl rfl
    · exact ih

theorem Kept.drainPendingAdmissions (h : Kept args meets allowed I) :
    SessionKeeps meets P I (drainPendingAdmissions args) := by
  refine .bind (h.take takeAdmissible_beside) fun admissions => ?_
  split
  · exact .pure _
  · refine .bind (h.admitAdmissions admissions) fun _ => ?_
    exact .bind (h.change fun _ => .queues rfl rfl rfl rfl rfl rfl rfl) fun _ => .pure _

end Lightspeed.Session
