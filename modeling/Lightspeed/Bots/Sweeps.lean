import Mathlib.Data.List.ReduceOption
import Lightspeed.Bots.Watching

/-!
# The sweep and the ends of runs

While a lane waits for its run, the controller wakes in time to see whether the lane's session is dead. The
end of a run that an emission brings goes to the lanes that carry its token. That the one lane is on the
session which sent the emission is checked before the run is read, and a lane that is moved while the loop
reads is found where it has gone.
-/

namespace Lightspeed.Bots

open Lib Harness

variable {sha256Hex : String → String} {s t : System} {nowMs : Int} {answer : Answer}

namespace ControllerState

variable {s t : ControllerState} {sessionId : String}

/-! ## Waking for the sweep -/

/-- The controller wakes in time for a sweep. -/
theorem wakeDeadline_le {atMs : Int} (h : s.deadSessionSweepAtMs = some atMs) (nowMs : Int) :
    ∃ deadline ≤ atMs, s.wakeDeadline nowMs = some deadline := by
  let reasons := [s.nextBufferDeadline, s.nextIdleCloseDeadline, s.rotationRetryAtMs,
    s.deadSessionSweepAtMs, s.reconcileRetryAtMs.filter fun _ => s.configDirty && s.mainSessionFree,
    ((s.pendingDeliveries.filterMap (·.notBeforeMs)).filter (nowMs < ·)).min?,
    if !s.pendingDeliveries.isEmpty && s.config.runsPerDay.isSome && s.budgetExhaustedView nowMs
      then some (nowMs + msUntilNextUtcDay nowMs) else none,
    if s.config.runsPerDay.isSome && !s.activeBySession.lanes.entries.isEmpty
      then some (s.descendantsRefreshedAtMs + botDescendantRefreshIntervalMs) else none]
  have hmem : atMs ∈ reasons.reduceOption := by
    rw [List.reduceOption_mem_iff, ← h]
    simp [reasons]
  cases hmin : reasons.reduceOption.min? with
  | none =>
    rw [List.min?_eq_none_iff.mp hmin] at hmem
    cases hmem
  | some deadline => exact ⟨deadline, (List.min?_eq_some_iff.mp hmin).2 atMs hmem, hmin⟩

/-- A sweep that is due returns the sessions of the lanes that wait, and arms the next. -/
theorem takeDeadSessionSweep_due {atMs : Int} {lane : ActiveLane}
    (h : s.deadSessionSweepAtMs = some atMs) (hdue : atMs ≤ nowMs)
    (hlane : s.activeBySession.get? sessionId = some lane) (hwaits : lane.waits = true) :
    sessionId ∈ (s.takeDeadSessionSweep nowMs).2 ∧
      (s.takeDeadSessionSweep nowMs).1.deadSessionSweepAtMs =
        some (nowMs + botDeadSessionSweepIntervalMs) := by
  have hmem : sessionId ∈ s.lanesAwaitingTerminal :=
    mem_lanesAwaitingTerminal.mpr ⟨lane, hlane, hwaits⟩
  have hlate : ¬ (s.deadSessionSweepAtMs.all (nowMs < ·)) = true := by
    rw [h, Option.all_some, decide_eq_true_eq]
    exact not_lt.mpr hdue
  have hsome : ¬ s.lanesAwaitingTerminal.isEmpty = true := by
    rw [List.isEmpty_iff]
    exact List.ne_nil_of_mem hmem
  unfold takeDeadSessionSweep
  rw [if_neg hlate]
  exact ⟨hmem, if_neg hsome⟩

/-! ## Dispatch -/

/-- A lane that dispatch takes waits for no run yet. -/
theorem watched_takeLane {delivery : BotDelivery} {target : String} (h : s.Watched) :
    (s.takeLane delivery target nowMs).Watched := by
  intro key lane hlane hwaits
  unfold takeLane LaneMap.insert LaneMap.get? at hlane
  rw [OrdMap.get?_insert] at hlane
  split_ifs at hlane
  · rw [← Option.some.inj hlane] at hwaits
    cases hwaits
  · exact h key lane hlane hwaits

theorem watched_of_watch (h : t.watch = s.watch) (hs : s.Watched) : t.Watched := by
  obtain ⟨hlanes, hsweep⟩ := Prod.mk.inj h
  unfold Watched
  rwa [hlanes, hsweep]

theorem kept_of_watch (h : t.watch = s.watch) {key : String} {lane : ActiveLane}
    (hlane : t.activeBySession.get? key = some lane) :
    ∃ old, s.activeBySession.get? key = some old ∧ lane.delivery = old.delivery := by
  rw [(Prod.mk.inj h).1] at hlane
  exact ⟨lane, hlane, rfl⟩

theorem watched_dispatchFrom {kept rest : List BotDelivery} {waiting : List String} (h : s.Watched) :
    (s.dispatchFrom nowMs kept rest waiting).1.Watched := by
  induction rest generalizing s kept waiting with
  | nil => exact h
  | cons delivery rest ih =>
    have h : (s.rollBudgetDay nowMs).Watched := watched_of_watch watch_rollBudgetDay h
    rw [dispatchFrom]
    generalize s.rollBudgetDay nowMs = s at h ⊢
    dsimp only
    split_ifs
    · exact h
    · exact ih h
    · exact ih h
    · split
      · split_ifs
        · exact ih (s := s.takeSidecar _) h
        · exact ih h
      · exact ih (watched_takeLane h)

theorem seenEventIds_dispatchFrom {kept rest : List BotDelivery} {waiting : List String} :
    (s.dispatchFrom nowMs kept rest waiting).1.seenEventIds = s.seenEventIds := by
  induction rest generalizing s kept waiting with
  | nil => rfl
  | cons delivery rest ih =>
    have hroll : (s.rollBudgetDay nowMs).seenEventIds = s.seenEventIds := seenEventIds_rollBudgetDay
    rw [dispatchFrom, ← hroll]
    generalize s.rollBudgetDay nowMs = s
    dsimp only
    split_ifs
    · rfl
    · exact ih
    · exact ih
    · split
      · split_ifs
        · exact ih
        · exact ih
      · exact ih

theorem flushBuffer_keeps {key : String} : (s.flushBuffer sha256Hex key).watch = s.watch ∧
    (s.flushBuffer sha256Hex key).seenEventIds = s.seenEventIds := by
  unfold flushBuffer
  split
  · exact ⟨rfl, rfl⟩
  · dsimp only
    split_ifs <;> exact ⟨rfl, rfl⟩

theorem settles_flushRipeBuffers : s.Settles (s.flushRipeBuffers sha256Hex nowMs) := by
  unfold flushRipeBuffers
  dsimp only
  generalize (s.buffers.filter _).keys = ripe
  induction ripe generalizing s with
  | nil => exact .refl s
  | cons key rest ih =>
    have hfirst : (s.flushBuffer sha256Hex key).watch = s.watch ∧
        (s.flushBuffer sha256Hex key).seenEventIds = s.seenEventIds := flushBuffer_keeps
    exact (Settles.of_watch hfirst.1 hfirst.2).trans ih

theorem queueEvent_keeps {event : BotEvent} : (s.queueEvent sha256Hex event nowMs).watch = s.watch ∧
    (s.queueEvent sha256Hex event nowMs).seenEventIds = s.seenEventIds := by
  unfold queueEvent
  split
  · exact ⟨rfl, rfl⟩
  · dsimp only
    split_ifs
    · exact flushBuffer_keeps
    · exact ⟨rfl, rfl⟩

theorem watch_acceptEvent {event : BotEvent} (h : s.acceptEvent sha256Hex event nowMs = .ok t) :
    t.watch = s.watch := by
  unfold acceptEvent at h
  split at h
  · cases h
  · dsimp only at h
    split_ifs at h
    · rw [← Except.ok.inj h]
      rfl
    · rw [← Except.ok.inj h]
      exact queueEvent_keeps.1

theorem settles_acceptConfig {next : BotControllerConfig} (h : s.acceptConfig next = .ok t) :
    s.Settles t := by
  unfold acceptConfig at h
  split_ifs at h
  exact Except.ok.inj h ▸ .of_watch rfl rfl

theorem settles_requestRotation : s.Settles (s.requestRotation sessionId) := by
  unfold requestRotation
  split_ifs <;> exact .of_watch rfl rfl

theorem classify_keeps {envelope : EmissionEnvelope} : (s.classify envelope).1.watch = s.watch ∧
    (s.classify envelope).1.seenEventIds = s.seenEventIds := by
  unfold classify
  dsimp only
  split_ifs
  · exact ⟨rfl, rfl⟩
  · split
    · split_ifs <;> exact ⟨rfl, rfl⟩
    · exact ⟨rfl, rfl⟩

theorem settles_rotateMainForReconcile (h : s.rotateMainForReconcile = some t) : s.Settles t := by
  unfold rotateMainForReconcile at h
  split_ifs at h
  exact Option.some.inj h ▸ .of_watch rfl rfl

end ControllerState

open ControllerState

/-! ## The loop accepts nothing -/

/-- Nothing was accepted, and the memory is as it was. -/
structure System.AcceptsNone (s t : System) : Prop where
  seen : t.state.seenEventIds = s.state.seenEventIds
  log : acceptedIds t.log = acceptedIds s.log

/-- Nothing was accepted, and lanes that wait stay watched. -/
structure System.Stays (s t : System) : Prop extends s.AcceptsNone t where
  watched : s.state.Watched → t.state.Watched

theorem System.Stays.of_settles (h : s.state.Settles t.state)
    (hlog : acceptedIds t.log = acceptedIds s.log) : s.Stays t := ⟨⟨h.seen, hlog⟩, h.watched⟩

theorem System.Stays.of_watch (h : t.state.watch = s.state.watch)
    (hseen : t.state.seenEventIds = s.state.seenEventIds)
    (hlog : acceptedIds t.log = acceptedIds s.log) : s.Stays t := .of_settles (.of_watch h hseen) hlog

theorem processEmissions_keeps : (s.processEmissions sha256Hex).state.watch = s.state.watch ∧
    s.AcceptsNone (s.processEmissions sha256Hex) := by
  unfold System.processEmissions
  split
  · exact ⟨rfl, rfl, rfl⟩
  next envelope rest hinbox =>
    unfold System.processEmission
    obtain ⟨hwatch, hseen⟩ : _ = s.state.watch ∧ _ = s.state.seenEventIds :=
      @classify_keeps { s.state with emissionInbox := rest } envelope
    split
    next state hstate => rw [hstate] at hwatch hseen; exact ⟨hwatch, hseen, rfl⟩
    next state message hstate => rw [hstate] at hwatch hseen; exact ⟨hwatch, hseen, rfl⟩
    next state sessionId invocation holder hstate =>
      rw [hstate] at hwatch hseen
      exact ⟨hwatch, hseen, rfl⟩
    next state sessionId runId token status failureRef hstate =>
      rw [hstate] at hwatch hseen
      split_ifs <;> exact ⟨hwatch, hseen, rfl⟩
    next state hstate => rw [hstate] at hwatch hseen; exact ⟨hwatch, hseen, rfl⟩

/-- A stage of the loop accepts nothing and watches, unless it starts the next execution. -/
theorem runStage_stays {suggested : Bool} {stage : Stage} (hstage : stage ≠ .renew) :
    s.Stays (s.runStage sha256Hex suggested stage) := by
  cases stage with
  | check =>
    unfold System.runStage System.check
    dsimp only
    split_ifs <;> exact .of_watch rfl rfl rfl
  | emissions => exact ⟨processEmissions_keeps.2, watched_of_watch processEmissions_keeps.1⟩
  | sweep =>
    have hsweep : s.state.Settles (s.state.takeDeadSessionSweep s.nowMs).1 := settles_takeDeadSessionSweep
    unfold System.runStage System.sweepDeadSessions
    dsimp only
    split_ifs <;> exact .of_settles hsweep rfl
  | rollDead dead =>
    cases dead with
    | nil => exact .of_watch rfl rfl rfl
    | cons first rest =>
      unfold System.runStage System.rollDead
      dsimp only
      split
      · exact .of_watch rfl rfl rfl
      next state hfail =>
        have hfailed := settles_failLaneOnDeadSession hfail
        split_ifs
        · exact .of_settles hfailed rfl
        · exact .of_settles (hfailed.trans settles_rollSessionForward) rfl
  | rotate =>
    unfold System.runStage System.rotateRequestedSessions
    dsimp only
    split_ifs <;> exact .of_watch rfl rfl rfl
  | rotateEach nowMs targets retry =>
    cases targets with
    | nil => exact .of_watch rfl rfl rfl
    | cons target rest =>
      unfold System.runStage System.rotateEach
      dsimp only
      split_ifs <;> exact .of_watch rfl rfl rfl
  | flush =>
    refine .of_settles settles_flushRipeBuffers ?_
    show acceptedIds (s.log ++ System.queuedSince s.state _) = acceptedIds s.log
    rw [acceptedIds_append, System.queuedSince, acceptedIds_queued, List.append_nil]
  | closeIdle nowMs sessions | closeEach sessions => cases sessions <;> exact .of_watch rfl rfl rfl
  | descendants =>
    unfold System.runStage System.refreshDescendantsToday
    dsimp only
    split_ifs <;> exact .of_watch watch_rollBudgetDay seenEventIds_rollBudgetDay rfl
  | «rename» =>
    unfold System.runStage System.applyDisplayName
    dsimp only
    split_ifs <;> exact .of_watch rfl rfl rfl
  | renameEach targets => cases targets <;> exact .of_watch rfl rfl rfl
  | reconcile =>
    unfold System.runStage System.reconcileUnlessBusy
    dsimp only
    split_ifs <;> exact .of_watch rfl rfl rfl
  | dispatch =>
    unfold System.runStage System.runDispatch
    dsimp only
    split_ifs
    · exact ⟨⟨seenEventIds_dispatchFrom, rfl⟩, watched_dispatchFrom⟩
    · exact .of_watch rfl rfl rfl
  | renew => exact absurd rfl hstage
  | teardown =>
    unfold System.runStage System.teardown
    dsimp only
    split_ifs
    · exact .of_watch rfl rfl rfl
    · refine .of_watch rfl rfl ?_
      show acceptedIds (s.log ++ [_]) = acceptedIds s.log
      rw [acceptedIds_append]
      exact List.append_nil _
  | _ => exact .of_watch rfl rfl rfl

theorem bestEffort_settles {state next : ControllerState}
    (h : System.bestEffort answer state = some next) : state.Settles next := by
  unfold System.bestEffort at h
  split at h
  · exact Option.some.inj h ▸ .refl state
  · exact Option.some.inj h ▸ .of_watch rfl rfl
  · cases h

theorem resumeReadingMain_stays {main : String} (h : s.resumeReadingMain main answer = some t) :
    s.Stays t := by
  unfold System.resumeReadingMain at h
  split at h
  · exact Option.some.inj h ▸ .of_watch rfl rfl rfl
  · exact Option.some.inj h ▸ .of_watch rfl rfl rfl
  · exact Option.some.inj h ▸ .of_watch rfl rfl rfl
  · split_ifs at h
    · exact Option.some.inj h ▸ .of_watch rfl rfl rfl
    · exact Option.some.inj h ▸ .of_settles settles_rollSessionForward rfl
  · cases h

theorem resumeEnsuringMain_stays {attempt : Nat} {request : BotEnsureSessionRequest}
    (h : s.resumeEnsuringMain attempt request answer = some t) : s.Stays t := by
  unfold System.resumeEnsuringMain at h
  split at h
  · rw [← Option.some.inj h]
    refine .of_watch rfl rfl ?_
    show acceptedIds (s.log ++ [_]) = acceptedIds s.log
    rw [acceptedIds_append]
    exact List.append_nil _
  iterate 2
    · split at h
      next state hrotate =>
        split_ifs at hrotate
        exact Option.some.inj h ▸ .of_settles (settles_rotateMainForReconcile hrotate) rfl
      · exact Option.some.inj h ▸ .of_watch rfl rfl rfl
  · split_ifs at h
    · exact Option.some.inj h ▸ .of_watch rfl rfl rfl
    · exact Option.some.inj h ▸ .of_watch rfl rfl rfl
  · exact Option.some.inj h ▸ .of_watch rfl rfl rfl
  · cases h

/-- A closed session's own rotation changes no lane. -/
theorem settles_rotateClosed {state : ControllerState} {target : String} {isMain : Bool} :
    state.Settles (System.rotateClosed state target isMain) := by
  unfold System.rotateClosed
  extract_lets cleared
  have hcleared : state.Settles cleared := .of_watch rfl rfl
  have hrotated : cleared.Settles (cleared.rotateMainSession true) := .of_watch rfl rfl
  split_ifs
  · exact hcleared.trans hrotated
  · exact hcleared.trans settles_forgetRoutedSession

/-- Every end of a wait of the loop accepts nothing and watches. -/
theorem resumeLoop_stays {wait : Wait} (h : s.resumeLoop sha256Hex answer wait = some t) :
    s.Stays t := by
  cases wait with
  | begin =>
    simp only [System.resumeLoop] at h
    split at h
    · exact Option.some.inj h ▸ .of_watch rfl rfl rfl
    · cases h
  | readingRun sessionId runId token status failureMessageRef pc =>
    obtain ⟨⟨state, next⟩, hread, ht⟩ := Option.map_eq_some_iff.mp h
    have hstate := reconcileRun_settles hread
    rw [← ht]
    cases next with
    | none => exact .of_settles (hstate.trans settles_attachTerminal) rfl
    | some next => exact .of_settles hstate rfl
  | readingDead | counting =>
    simp only [System.resumeLoop] at h
    split at h
    · exact Option.some.inj h ▸ .of_watch rfl rfl rfl
    · exact Option.some.inj h ▸ .of_watch rfl rfl rfl
    · cases h
  | rollingDead sessionId dead =>
    obtain ⟨⟨state, closed⟩, hclose, ht⟩ := Option.map_eq_some_iff.mp h
    have hstate := closeSession_settles hclose
    rw [← ht]
    dsimp only
    split_ifs
    · exact .of_settles (hstate.trans settles_rollSessionForward) rfl
    · exact .of_settles hstate rfl
  | rotating nowMs target isMain targets retry =>
    obtain ⟨⟨state, closed⟩, hclose, ht⟩ := Option.map_eq_some_iff.mp h
    have hstate := closeSession_settles hclose
    rw [← ht]
    dsimp only
    split_ifs
    · exact .of_settles (hstate.trans settles_rotateClosed) rfl
    · exact .of_settles hstate rfl
  | closingIdle nowMs sessionId sessions =>
    obtain ⟨⟨state, closed⟩, hclose, ht⟩ := Option.map_eq_some_iff.mp h
    have hstate := closeSession_settles hclose
    rw [← ht]
    dsimp only
    split_ifs
    · exact .of_settles (hstate.trans settles_forgetRoutedSession) rfl
    · exact .of_settles (hstate.trans (.of_watch rfl rfl)) rfl
  | «renaming» | archiving | recordingClosed =>
    obtain ⟨state, heffort, ht⟩ := Option.map_eq_some_iff.mp h
    have hstate := bestEffort_settles heffort
    rw [← ht]
    exact .of_settles (hstate.trans (.of_watch rfl rfl)) rfl
  | readingMain main => exact resumeReadingMain_stays h
  | rollingMain main status =>
    obtain ⟨⟨state, closed⟩, hclose, ht⟩ := Option.map_eq_some_iff.mp h
    have hstate := closeSession_settles hclose
    rw [← ht]
    dsimp only
    split_ifs
    · exact .of_settles (hstate.trans settles_rollSessionForward) rfl
    · exact .of_settles (hstate.trans (.of_watch rfl rfl)) rfl
  | ensuringMain attempt request => exact resumeEnsuringMain_stays h
  | rollingEnsure main message =>
    obtain ⟨⟨state, closed⟩, hclose, ht⟩ := Option.map_eq_some_iff.mp h
    have hstate := closeSession_settles hclose
    rw [← ht]
    dsimp only
    split_ifs
    · exact .of_settles ((hstate.trans settles_rollSessionForward).trans (.of_watch rfl rfl)) rfl
    · exact .of_settles (hstate.trans (.of_watch rfl rfl)) rfl
  | closingEach sessionId sessions =>
    obtain ⟨⟨state, closed⟩, hclose, ht⟩ := Option.map_eq_some_iff.mp h
    exact ht ▸ .of_settles (closeSession_settles hclose) rfl
  | parked laneTick eventTick deadline =>
    simp only [System.resumeLoop] at h
    split_ifs at h
    exact Option.some.inj h ▸ .of_watch rfl rfl rfl

/-! ## Every step watches -/

theorem botEvent_watch {event : BotEvent} : (s.botEvent sha256Hex event).state.watch = s.state.watch := by
  unfold System.botEvent
  dsimp only
  split
  · rfl
  next next haccept =>
    have hwatch : next.watch = s.tickClock.watch := watch_acceptEvent haccept
    exact hwatch

theorem botConfig_settles {config : BotControllerConfig} :
    s.state.Settles (s.botConfig config).state := by
  have htick : s.state.Settles s.tickClock := .of_watch rfl rfl
  unfold System.botConfig
  dsimp only
  split
  · exact htick.trans settles_recordError
  next next haccept => exact htick.trans (settles_acceptConfig haccept)

/-- Every step of the controller leaves the lanes that wait watched. -/
theorem step_watched {input : System.Input} (h : s.state.Watched)
    (hstep : s.step sha256Hex input = some t) : t.state.Watched := by
  unfold System.step at hstep
  split at hstep
  next stage suggested hloop =>
    rw [← Option.some.inj hstep]
    by_cases hstage : stage = .renew
    · rw [hstage]
      unfold System.runStage System.continueAsNew
      dsimp only
      split_ifs
      · exact watched_new
      · exact h
    · exact (runStage_stays hstage).watched h
  · exact (resumeLoop_stays hstep).watched h
  · split_ifs at hstep
    exact Option.some.inj hstep ▸ h
  · split_ifs at hstep
    exact Option.some.inj hstep ▸ watched_of_watch botEvent_watch h
  · exact Option.some.inj hstep ▸ botConfig_settles.watched h
  · exact Option.some.inj hstep ▸ settles_requestRotation.watched h
  · exact Option.some.inj hstep ▸ h
  · unfold System.resumeTask at hstep
    split at hstep
    · cases hstep
    · obtain ⟨turn, hturn, ht⟩ := Option.map_eq_some_iff.mp hstep
      exact ht ▸ (resume_rests hturn).watched h
  · cases hstep

theorem reaches_watched (h : (System.controller sha256Hex).Reaches s) : s.state.Watched := by
  refine h.invariant (P := fun s => s.state.Watched) ?_ fun s input t _ hs hstep => step_watched hs hstep
  intro s hinit
  obtain ⟨config, mainGeneration, sessionGenerations, nowMs, rfl⟩ := hinit.eq_start
  exact watched_new

end Lightspeed.Bots
