import Lightspeed.Harness.Accepted
import Lightspeed.Session.Loop

/-!
# What the programs of a session keep

Most of what a session does changes a queue, and every change of its core state is an append. An invariant
of the loop is shown for these two once, as `Kept`, and then every program of the session outside the drive
preserves it.
-/

namespace Lightspeed.Session

open Lib Harness Program

/-! ## Beside the appends -/

/-- Nothing changed in where the loop stands and in what waits for the drive. -/
structure SameStanding (s t : AgentSessionWorkflow) : Prop where
  owed : t.driveOwed = s.driveOwed
  driving : t.driving = s.driving
  unparks : t.pendingToolBatchUnparks = s.pendingToolBatchUnparks
  ready : t.ready = s.ready
  toolsets : t.pendingToolsets = s.pendingToolsets
  preparation : t.runPreparation = s.runPreparation

theorem SameStanding.refl (s : AgentSessionWorkflow) : SameStanding s s :=
  ⟨rfl, rfl, rfl, rfl, rfl, rfl⟩

theorem SameStanding.trans {u : AgentSessionWorkflow} (hst : SameStanding s t)
    (htu : SameStanding t u) : SameStanding s u :=
  ⟨htu.owed.trans hst.owed, htu.driving.trans hst.driving, htu.unparks.trans hst.unparks,
    htu.ready.trans hst.ready, htu.toolsets.trans hst.toolsets,
    htu.preparation.trans hst.preparation⟩

/-- What a step that appends nothing leaves alone: the core state and where the loop stands. A session
may become ready, more tools may wait, and a preparation may end, or begin in an open session. -/
structure Beside (s t : AgentSessionWorkflow) : Prop where
  core : t.coreState = s.coreState
  owed : t.driveOwed = s.driveOwed
  driving : t.driving = s.driving
  unparks : t.pendingToolBatchUnparks = s.pendingToolBatchUnparks
  ready : s.ready = true → t.ready = true
  toolsets : s.pendingToolsets ≠ [] → t.pendingToolsets ≠ []
  preparation : t.runPreparation = none ∨ t.runPreparation = s.runPreparation ∨
    s.coreState.lifecycle.status = .open

theorem Beside.of_same (hcore : t.coreState = s.coreState) (h : SameStanding s t) : Beside s t :=
  ⟨hcore, h.owed, h.driving, h.unparks, h.ready.trans, fun hne => h.toolsets ▸ hne,
    .inr (.inl h.preparation)⟩

theorem Beside.refl (s : AgentSessionWorkflow) : Beside s s := .of_same rfl (.refl s)

theorem Beside.trans {u : AgentSessionWorkflow} (hst : Beside s t) (htu : Beside t u) :
    Beside s u where
  core := htu.core.trans hst.core
  owed := htu.owed.trans hst.owed
  driving := htu.driving.trans hst.driving
  unparks := htu.unparks.trans hst.unparks
  ready h := htu.ready (hst.ready h)
  toolsets h := htu.toolsets (hst.toolsets h)
  preparation := by
    rcases htu.preparation with hnone | hsame | hopen
    · exact .inl hnone
    · rw [hsame]
      exact hst.preparation
    · rw [hst.core] at hopen
      exact .inr (.inr hopen)

/-- A step that changes only queues. -/
theorem Beside.queues (hcore : t.coreState = s.coreState) (howed : t.driveOwed = s.driveOwed)
    (hdriving : t.driving = s.driving)
    (hunparks : t.pendingToolBatchUnparks = s.pendingToolBatchUnparks) (hready : t.ready = s.ready)
    (htoolsets : t.pendingToolsets = s.pendingToolsets)
    (hpreparation : t.runPreparation = s.runPreparation) : Beside s t :=
  .of_same hcore ⟨howed, hdriving, hunparks, hready, htoolsets, hpreparation⟩

theorem queueAdmission_beside (s : AgentSessionWorkflow) (command : CoreAgentCommand) :
    Beside s (s.queueAdmission command) := .queues rfl rfl rfl rfl rfl rfl rfl

theorem queueAdmissions_beside (s : AgentSessionWorkflow) (commands : List CoreAgentCommand) :
    Beside s (commands.foldl AgentSessionWorkflow.queueAdmission s) := by
  induction commands generalizing s with
  | nil => exact .refl s
  | cons command rest ih => exact (queueAdmission_beside s command).trans (ih _)

/-- Signals reach the queues, the clock and the history only. -/
theorem receive_beside {signal : SessionSignal} (h : s.receive signal = some t) : Beside s t := by
  cases signal with
  | submitAdmissions commands =>
    cases h
    exact queueAdmissions_beside s commands
  | prepareSession request | retrySetup | deliverEmission resolution | takeReceipt ticket =>
    cases h
    exact .queues rfl rfl rfl rfl rfl rfl rfl
  | codeToolRequest request =>
    cases h
    unfold AgentSessionWorkflow.enqueueCodeTool
    split_ifs
    · exact .refl s
    · exact .queues rfl rfl rfl rfl rfl rfl rfl
  | handlerFinished | dispatchCodeTool origin | codeToolCompleted origin outcome | clock nowMs
  | history length suggested =>
    unfold AgentSessionWorkflow.receive at h
    dsimp only at h
    split_ifs at h
    cases h
    exact .queues rfl rfl rfl rfl rfl rfl rfl
  | runPrepared result =>
    obtain ⟨command, -, rfl⟩ := Option.map_eq_some_iff.mp h
    exact ⟨rfl, rfl, rfl, rfl, id, id, .inl rfl⟩

/-! ## What an append makes of the state -/

theorem queueExecutionCancel_same (s : AgentSessionWorkflow) (entry : CoreAgentEntry) :
    (s.queueExecutionCancel entry).coreState = s.coreState ∧
      SameStanding s (s.queueExecutionCancel entry) := by
  unfold AgentSessionWorkflow.queueExecutionCancel
  split
  · exact ⟨rfl, .refl s⟩
  · split
    · exact ⟨rfl, .refl s⟩
    · dsimp only
      split_ifs
      · exact ⟨rfl, .refl s⟩
      · exact ⟨rfl, rfl, rfl, rfl, rfl, rfl, rfl⟩

theorem queuePromiseCancellation_same (s : AgentSessionWorkflow) (entry : CoreAgentEntry) :
    (s.queuePromiseCancellation entry).coreState = s.coreState ∧
      SameStanding s (s.queuePromiseCancellation entry) := by
  unfold AgentSessionWorkflow.queuePromiseCancellation
  split
  · exact ⟨rfl, rfl, rfl, rfl, rfl, rfl, rfl⟩
  · exact ⟨rfl, .refl s⟩

theorem applyAppendedEntry_same {entry : CoreAgentEntry} {followup : Option DetachedPromiseFollowup}
    (h : s.applyAppendedEntry entry = some (t, followup)) :
    applyEvent s.coreState entry = .ok t.coreState ∧ SameStanding s t := by
  unfold AgentSessionWorkflow.applyAppendedEntry at h
  split at h
  · cases h
  next core hcore =>
    cases h
    obtain ⟨hcancel, hcancelled⟩ := queueExecutionCancel_same { s with coreState := core } entry
    obtain ⟨hpromise, hqueued⟩ := queuePromiseCancellation_same
      (AgentSessionWorkflow.queueExecutionCancel { s with coreState := core } entry) entry
    have hset : SameStanding s { s with coreState := core } := ⟨rfl, rfl, rfl, rfl, rfl, rfl⟩
    refine ⟨?_, hset.trans (hcancelled.trans hqueued)⟩
    rw [hpromise, hcancel]
    exact hcore

theorem applyAppendedEntries_same {followups : List DetachedPromiseFollowup}
    (h : s.applyAppendedEntries entries = some (t, followups)) :
    entries.foldlM applyEvent s.coreState = .ok t.coreState ∧ SameStanding s t := by
  induction entries generalizing s followups with
  | nil =>
    cases h
    exact ⟨rfl, .refl _⟩
  | cons entry rest ih =>
    obtain ⟨⟨m, followup⟩, hentry, h⟩ := Option.bind_eq_some_iff.mp h
    obtain ⟨⟨u, others⟩, hrest, h⟩ := Option.bind_eq_some_iff.mp h
    cases h
    obtain ⟨hfirst, hsame⟩ := applyAppendedEntry_same hentry
    obtain ⟨hothers, hsame'⟩ := ih hrest
    exact ⟨foldlM_cons_eq_ok.mpr ⟨_, hfirst, hothers⟩, hsame.trans hsame'⟩

/-- What the append of entries that reduce to a core state leaves of a session's state. -/
structure Appends (reduced : CoreAgentState) (s t : AgentSessionWorkflow) : Prop where
  core : t.coreState = reduced
  owed : t.driveOwed = s.driveOwed
  driving : t.driving = s.driving
  unparks : t.pendingToolBatchUnparks = s.pendingToolBatchUnparks
  ready : t.ready = s.ready
  toolsets : reduced.lifecycle.status ≠ .closed → t.pendingToolsets = s.pendingToolsets
  preparation : t.runPreparation =
    if reduced.lifecycle.status = .closed then none else s.runPreparation

theorem applyAppended_appends {followups : List DetachedPromiseFollowup}
    (h : s.applyAppended entries = some (t, followups)) :
    entries.foldlM applyEvent s.coreState = .ok t.coreState ∧ Appends t.coreState s t := by
  obtain ⟨⟨m, others⟩, hentries, h⟩ := Option.bind_eq_some_iff.mp h
  obtain ⟨emissions, -, h⟩ := Option.bind_eq_some_iff.mp h
  obtain ⟨hcore, hsame⟩ := applyAppendedEntries_same hentries
  obtain ⟨rfl, rfl⟩ := Prod.mk.inj (Option.some.inj h)
  split_ifs with hclosed
  · have hstatus : m.coreState.lifecycle.status = .closed := hclosed
    exact ⟨hcore, rfl, hsame.owed, hsame.driving, hsame.unparks, hsame.ready,
      fun hopen => absurd hstatus hopen, (if_pos hstatus).symm⟩
  · have hstatus : m.coreState.lifecycle.status ≠ .closed := hclosed
    exact ⟨hcore, rfl, hsame.owed, hsame.driving, hsame.unparks, hsame.ready,
      fun _ => hsame.toolsets, hsame.preparation.trans (if_neg hstatus).symm⟩

/-! ## Invariants -/

variable {args : AgentSessionArgs}
  {meets : (request : SessionRequest) → AgentSessionWorkflow → SessionReply request → Prop}
  {allowed : DriveInput → Prop} {I J P : AgentSessionWorkflow → Prop} {F : SessionError → Prop}
  {s t : AgentSessionWorkflow} {s t : AgentSessionWorkflow} {entries : List CoreAgentEntry}

/-- What holds where the loop sleeps. -/
def asleep (P : AgentSessionWorkflow → Prop) : SessionRequest → AgentSessionWorkflow → Prop
  | .workflowWork _, s => P s
  | _, _ => True

/-- What steps beside the appends keep. -/
def KeptBeside (I : AgentSessionWorkflow → Prop) : Prop := ∀ s t, I s → Beside s t → I t

/-- The entries extend the core state of a session by what allowed inputs propose. -/
abbrev Extended (args : AgentSessionArgs) (allowed : DriveInput → Prop) (core : CoreAgentState)
    (entries : List CoreAgentEntry) (reduced : CoreAgentState) : Prop :=
  EventSource.Extends (drive args.sessionId) (fun input => allowed input.2) core entries reduced

/-- What the steps of a session keep whose appends come from commands and other allowed inputs. -/
structure Kept (args : AgentSessionArgs)
    (meets : (request : SessionRequest) → AgentSessionWorkflow → SessionReply request → Prop)
    (allowed : DriveInput → Prop) (I : AgentSessionWorkflow → Prop) : Prop where
  commands : ∀ command, allowed (.admitCommand command)
  beside : KeptBeside I
  append : ∀ s entries t followups, I s → entries ≠ [] →
    Extended args allowed s.coreState entries t.coreState → meets (.appendEvents entries) s .stored →
    s.applyAppended entries = some (t, followups) → I t

/-- A program of a session keeps `I`, however it fails. -/
abbrev SessionKeeps
    (meets : (request : SessionRequest) → AgentSessionWorkflow → SessionReply request → Prop)
    (P I : AgentSessionWorkflow → Prop) {α : Type} (p : SessionProgram α) : Prop :=
  Preserves sessionOutside meets (asleep P) I (fun _ => True) p

/-- A program of a session keeps `I`, and the session ends when it fails. -/
abbrev KeepsOrDies
    (meets : (request : SessionRequest) → AgentSessionWorkflow → SessionReply request → Prop)
    (P I : AgentSessionWorkflow → Prop) {α : Type} (p : SessionProgram α) : Prop :=
  Preserves sessionOutside meets (asleep P) I (· = .fatal) p

theorem Kept.signal (h : Kept args meets allowed I) (s : AgentSessionWorkflow)
    (signal : SessionSignal) (t : AgentSessionWorkflow) (hs : I s)
    (hreceive : sessionOutside.receive s signal = some t) : I t :=
  h.beside s t hs (receive_beside hreceive)

theorem Kept.ask (h : Kept args meets allowed I) {request : SessionRequest}
    (hasleep : ∀ s, asleep P request s) : Preserves sessionOutside meets (asleep P) I F (ask request) :=
  .wait h.signal fun s _ => hasleep s

theorem Kept.take (h : Kept args meets allowed I) {α : Type}
    {f : AgentSessionWorkflow → α × AgentSessionWorkflow} (hf : ∀ s, Beside s (f s).2) :
    Preserves sessionOutside meets (asleep P) I F (takeState f) :=
  .act fun s hs => h.beside s _ hs (hf s)

theorem Kept.change (h : Kept args meets allowed I) {f : AgentSessionWorkflow → AgentSessionWorkflow}
    (hf : ∀ s, Beside s (f s)) : Preserves sessionOutside meets (asleep P) I F (changeState f) :=
  .act fun s hs => h.beside s _ hs (hf s)

theorem keeps_read : Preserves sessionOutside meets (asleep P) I F readState := .act fun _ hs => hs

theorem keeps_raise {α : Type} {error : SessionError} (h : F error) :
    Preserves sessionOutside meets (asleep P) I F (raise error : SessionProgram α) := .fail h

/-! ## Appends -/

/-- Entries are applied to the state they were proposed on. The store refuses what is not bare, and a
refusal leaves the state alone. -/
theorem Kept.storeEntries (h : Kept args meets allowed I) (hJ : KeptBeside J)
    {reduced : CoreAgentState} (hs : I s) (hj : J s)
    (hextended : Extended args allowed s.coreState entries reduced) (hne : entries ≠ []) :
    Keeps sessionOutside meets (asleep P) (fun _ t => I t ∧ t.coreState = reduced)
      (fun error t => I t ∧ (error = .refused → J t ∧ ∃ entry ∈ entries, isBare entry.event = false))
      (storeEntries entries) s := by
  refine .bind (.wait _ (fun t => I t ∧ J t ∧ t.coreState = s.coreState) ⟨hs, hj, rfl⟩ ?_
    (fun _ _ => trivial) ?_)
  · rintro t signal u ⟨ht, hjt, hcore⟩ hreceive
    have hbeside := receive_beside hreceive
    exact ⟨h.beside t u ht hbeside, hJ t u hjt hbeside, hbeside.core.trans hcore⟩
  · rintro t reply ⟨ht, hjt, hcore⟩ hallows hmeets
    cases reply with
    | refused =>
      have hany : entries.any (fun entry => !isBare entry.event) = true := hallows
      obtain ⟨entry, hmem, hbare⟩ := List.any_eq_true.mp hany
      exact .fail ⟨ht, fun _ => ⟨hjt, entry, hmem, by simpa using hbare⟩⟩
    | failed => exact .fail ⟨ht, nofun⟩
    | stored =>
      refine .bind (.act ?_)
      cases happly : t.applyAppended entries with
      | none => exact .fail ⟨ht, nofun⟩
      | some applied =>
        obtain ⟨u, followups⟩ := applied
        obtain ⟨hreduced, -⟩ := applyAppended_appends happly
        have hsame : (.ok u.coreState : Result CoreAgentState) = .ok reduced := by
          rw [← hreduced, hcore]
          exact hextended.reduces
        have hcore' : u.coreState = reduced := Except.ok.inj hsame
        rw [← hcore', ← hcore] at hextended
        exact .done ⟨h.append t entries u followups ht hne hextended hmeets happly, hcore'⟩

/-- The entries of one proposal that the drive made. -/
theorem extended_of_propose {core : CoreAgentState} {input : Nat × DriveInput}
    (hallowed : allowed input.2) (h : proposeEntries args.sessionId core input = .ok entries) :
    ∃ reduced, Extended args allowed core entries reduced := by
  obtain ⟨proposals, hinput, happend⟩ := bind_eq_ok.mp h
  obtain ⟨reduced, hreduced, hentries⟩ := bind_eq_ok.mp happend
  cases hentries
  exact ⟨reduced, .single hallowed h (driven_eq_ok.mp hreduced)⟩

/-- A removal that was proposed is stored, or the session fails. -/
theorem Kept.removeInvalid (h : Kept args meets allowed I)
    (invalidKey : CoreAgentState → Option ContextEntryKey) :
    KeepsOrDies meets P I (removeInvalid args invalidKey) := by
  intro s hs
  refine .bind (.act ?_)
  dsimp only
  split
  · exact .done hs
  next key _ =>
    split
    · exact .fail ⟨hs, rfl⟩
    · exact .done hs
    next entries hne hpropose =>
      obtain ⟨reduced, hextended⟩ := extended_of_propose (h.commands _) hpropose
      refine .bind (.attempt ((h.storeEntries (J := fun _ => True) (fun _ _ _ _ => trivial) hs trivial
        hextended fun heq => hne (heq ▸ rfl)).mono ?_ ?_))
      · exact fun _ t ht => .done ht.1
      · exact fun _ t ht => .fail ⟨ht.1, rfl⟩

/-- Runs that detached promises start wait in the queue. -/
theorem Kept.queueDetachedPromiseFollowups (h : Kept args meets allowed I)
    (followups : List DetachedPromiseFollowup) :
    KeepsOrDies meets P I (queueDetachedPromiseFollowups followups) := by
  have hone : ∀ followup, KeepsOrDies meets P I
      (queueDetachedPromiseFollowup followup) := by
    intro followup
    refine .bind (h.ask fun _ => trivial) fun materialized => ?_
    cases materialized with
    | none => exact keeps_raise rfl
    | some materialized =>
      refine .bind (h.ask fun _ => trivial) fun summaryRef => ?_
      cases summaryRef with
      | none => exact keeps_raise rfl
      | some summaryRef => exact h.change fun s => queueAdmission_beside s _
  refine .bind keeps_read fun _ => ?_
  split
  · exact .pure _
  · exact .forM hone

/-- An append keeps `I`, and when the store refuses it, also what steps beside the appends keep. -/
theorem Kept.appendEvents (h : Kept args meets allowed I) (hJ : KeptBeside J)
    {reduced : CoreAgentState} (hs : I s) (hj : J s)
    (hextended : Extended args allowed s.coreState entries reduced) :
    Keeps sessionOutside meets (asleep P) (fun _ => I)
      (fun error t => I t ∧ (error = .refused → J t)) (appendEvents args entries) s := by
  have hfatal : ∀ (error : SessionError) t, I t ∧ error = .fatal → I t ∧ (error = .refused → J t) := by
    rintro error t ⟨ht, rfl⟩
    exact ⟨ht, nofun⟩
  unfold Session.appendEvents
  split
  · exact .done hs
  next hne =>
    refine .bind ((h.storeEntries hJ hs hj hextended fun heq => hne heq).mono ?_ fun error t ht =>
      ⟨ht.1, fun herror => (ht.2 herror).1⟩)
    rintro followups t ⟨ht, -⟩
    refine .bind ((Preserves.forM h.removeInvalid t ht).mono ?_ hfatal)
    exact fun _ u hu => (h.queueDetachedPromiseFollowups followups u hu).mono (fun _ _ hv => hv) hfatal

/-! ## Commands -/

/-- A command that is rejected left alone what steps beside the appends keep. -/
theorem Kept.command (h : Kept args meets allowed I) (hJ : KeptBeside J) (command : CoreAgentCommand)
    (hs : I s) (hj : J s) :
    Keeps sessionOutside meets (asleep P) (fun result t => I t ∧ (result = .rejected → J t))
      (fun _ => I) (admitAndAppendCommand args command) s := by
  refine .bind (.act ?_)
  dsimp only
  split
  · exact .done ⟨hs, fun _ => hj⟩
  · split
    · exact .done ⟨hs, fun _ => hj⟩
    · split
      · exact .fail hs
      · exact .done ⟨hs, fun _ => hj⟩
    next entries hpropose =>
      obtain ⟨reduced, hextended⟩ := extended_of_propose (h.commands command) hpropose
      refine .bind (.attempt ((h.appendEvents hJ hs hj hextended).mono ?_ ?_))
      · exact fun _ t ht => .done ⟨ht, nofun⟩
      · rintro error t ⟨ht, hrefused⟩
        cases error with
        | fatal => exact .fail ht
        | refused =>
          dsimp only
          split
          · exact .fail ht
          · exact .done ⟨ht, fun _ => hrefused rfl⟩

theorem Kept.admitAndAppendCommand (h : Kept args meets allowed I) (command : CoreAgentCommand) :
    SessionKeeps meets P I (admitAndAppendCommand args command) :=
  fun _ hs => (h.command (J := fun _ => True) (fun _ _ _ _ => trivial) command hs trivial).mono
    (fun _ _ ht => ht.1) fun _ _ ht => ⟨ht, trivial⟩

end Lightspeed.Session
