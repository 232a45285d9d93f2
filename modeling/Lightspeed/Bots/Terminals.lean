import Lightspeed.Bots.Sweeps

/-!
# The ends of runs and the lanes that they name

An emission brings the end of a run, with the session that sent it and the token of the delivery. The loop
checks that the lane on that session carries the token, reads the run, and hands the end to every lane with
the token. Tasks run while it reads. As long as none of them moves a lane off that session or onto it, the
lane that gets the end is the one that was checked.
-/

namespace Lightspeed.Bots

open Lib Harness ControllerState

variable {sha256Hex : String → String} {s t : System} {answer : Answer} {sessionId token : String}

/-- The token of a lane's delivery. -/
def ActiveLane.terminalToken (sha256Hex : String → String) (lane : ActiveLane) : String :=
  deliveryTerminalToken sha256Hex lane.delivery.id

/-- The deliveries of the lanes are told apart by their tokens. -/
def TokensApart (sha256Hex : String → String) (s : ControllerState) : Prop :=
  ∀ key key' lane lane', s.activeBySession.get? key = some lane →
    s.activeBySession.get? key' = some lane' → lane.terminalToken sha256Hex = lane'.terminalToken sha256Hex → key = key'

/-- The session and the token of the end of a run that the loop reads. -/
def LoopPc.readsRun : LoopPc → Option (String × String)
  | .waiting (.readingRun sessionId _ token _ _ _) => some (sessionId, token)
  | _ => none

/-- A task moves a lane off the session, or another lane onto it, while the loop reads the run that ended
there. -/
def MovesWhileReading (sha256Hex : String → String) (s : System) (input : System.Input) : Prop :=
  ∃ sessionId token index answer task turn source target,
    s.loop.readsRun = some (sessionId, token) ∧ input = .task index answer ∧
      s.tasks[index]? = some task ∧ task.resume sha256Hex s.nowMs answer s.state = some turn ∧
        MovesLane source target turn.log ∧ source ≠ target ∧ (source = sessionId ∨ target = sessionId)

/-- While the loop reads a run, the lane on the session that sent the end is the one with its token. -/
def ReadsNamed (sha256Hex : String → String) (s : System) : Prop :=
  ∀ sessionId token, s.loop.readsRun = some (sessionId, token) → ∀ key lane,
    s.state.activeBySession.get? key = some lane → (lane.terminalToken sha256Hex = token ↔ key = sessionId)

/-! ## What the loop reads -/

theorem processEmissions_reads
    (h : (s.processEmissions sha256Hex).loop.readsRun = some (sessionId, token)) :
    ∃ lane, s.state.activeBySession.get? sessionId = some lane ∧ lane.terminalToken sha256Hex = token := by
  unfold System.processEmissions at h
  split at h
  · cases h
  next envelope rest hinbox =>
    have hclassify : (({ s.state with emissionInbox := rest } : ControllerState).classify
        envelope).1.watch = s.state.watch := classify_keeps.1
    unfold System.processEmission at h
    split at h
    · cases h
    · cases h
    · cases h
    next state from_ runId carried status failureRef hstate =>
      rw [hstate] at hclassify
      split_ifs at h with hawaits
      · obtain ⟨rfl, rfl⟩ := Prod.mk.inj (Option.some.inj h)
        unfold laneAwaitsTerminalFrom at hawaits
        obtain ⟨lane, hlane, htoken⟩ := (Option.any_eq_true _ _).mp hawaits
        have hlanes : state.activeBySession = s.state.activeBySession := (Prod.mk.inj hclassify).1
        rw [hlanes] at hlane
        exact ⟨lane, hlane, beq_iff_eq.mp htoken⟩
      · cases h
    · cases h

/-- The loop begins to read a run in the stage of the emissions only. -/
theorem runStage_reads {suggested : Bool} {stage : Stage}
    (h : (s.runStage sha256Hex suggested stage).loop.readsRun = some (sessionId, token)) :
    (s.runStage sha256Hex suggested stage).state.watch = s.state.watch ∧
      ∃ lane, s.state.activeBySession.get? sessionId = some lane ∧ lane.terminalToken sha256Hex = token := by
  cases stage with
  | emissions => exact ⟨processEmissions_keeps.1, processEmissions_reads h⟩
  | check =>
    unfold System.runStage System.check at h
    dsimp only at h
    split_ifs at h <;> cases h
  | sweep =>
    unfold System.runStage System.sweepDeadSessions at h
    dsimp only at h
    split_ifs at h <;> cases h
  | rollDead dead =>
    cases dead with
    | nil => cases h
    | cons first rest =>
      unfold System.runStage System.rollDead at h
      dsimp only at h
      split at h
      · cases h
      · split_ifs at h <;> cases h
  | rotate =>
    unfold System.runStage System.rotateRequestedSessions at h
    dsimp only at h
    split_ifs at h <;> cases h
  | rotateEach nowMs targets retry =>
    cases targets with
    | nil => cases h
    | cons target rest =>
      unfold System.runStage System.rotateEach at h
      dsimp only at h
      split_ifs at h <;> cases h
  | closeIdle nowMs sessions | closeEach sessions => cases sessions <;> cases h
  | descendants =>
    unfold System.runStage System.refreshDescendantsToday at h
    dsimp only at h
    split_ifs at h <;> cases h
  | «rename» =>
    unfold System.runStage System.applyDisplayName at h
    dsimp only at h
    split_ifs at h <;> cases h
  | renameEach targets => cases targets <;> cases h
  | reconcile =>
    unfold System.runStage System.reconcileUnlessBusy at h
    dsimp only at h
    split_ifs at h <;> cases h
  | dispatch =>
    unfold System.runStage System.runDispatch at h
    dsimp only at h
    split_ifs at h <;> cases h
  | renew =>
    unfold System.runStage System.continueAsNew at h
    dsimp only at h
    split_ifs at h <;> cases h
  | teardown =>
    unfold System.runStage System.teardown at h
    dsimp only at h
    split_ifs at h <;> cases h
  | _ => cases h

/-- The loop goes on reading the run that it reads. -/
theorem resumeLoop_reads {wait : Wait} (hresume : s.resumeLoop sha256Hex answer wait = some t)
    (h : t.loop.readsRun = some (sessionId, token)) :
    (LoopPc.waiting wait).readsRun = some (sessionId, token) ∧ s.state.Settles t.state := by
  have hreads : ∀ u : System, some u = some t → u.loop.readsRun = some (sessionId, token) :=
    fun u hu => Option.some.inj hu ▸ h
  cases wait with
  | readingRun sessionId' runId token' status failureMessageRef pc =>
    obtain ⟨⟨state, next⟩, hread, ht⟩ := Option.map_eq_some_iff.mp hresume
    rw [← ht] at h ⊢
    cases next with
    | none => cases h
    | some next => exact ⟨h, reconcileRun_settles hread⟩
  | begin =>
    simp only [System.resumeLoop] at hresume
    split at hresume
    · cases hreads _ hresume
    · cases hresume
  | readingDead | counting =>
    simp only [System.resumeLoop] at hresume
    split at hresume
    · cases hreads _ hresume
    · cases hreads _ hresume
    · cases hresume
  | rollingDead | closingEach | «renaming» | archiving | recordingClosed =>
    obtain ⟨_, -, ht⟩ := Option.map_eq_some_iff.mp hresume
    rw [← ht] at h
    cases h
  | rotating | closingIdle | rollingMain | rollingEnsure =>
    obtain ⟨_, -, ht⟩ := Option.map_eq_some_iff.mp hresume
    rw [← ht] at h
    dsimp only at h
    split_ifs at h <;> cases h
  | readingMain main =>
    simp only [System.resumeLoop, System.resumeReadingMain] at hresume
    split at hresume
    · cases hreads _ hresume
    · cases hreads _ hresume
    · cases hreads _ hresume
    · split_ifs at hresume
      · cases hreads _ hresume
      · cases hreads _ hresume
    · cases hresume
  | ensuringMain attempt request =>
    simp only [System.resumeLoop, System.resumeEnsuringMain] at hresume
    split at hresume
    · cases hreads _ hresume
    iterate 2
      · split at hresume
        · cases hreads _ hresume
        · cases hreads _ hresume
    · split_ifs at hresume
      · cases hreads _ hresume
      · cases hreads _ hresume
    · cases hreads _ hresume
    · cases hresume
  | parked laneTick eventTick deadline =>
    simp only [System.resumeLoop] at hresume
    split_ifs at hresume
    cases hreads _ hresume

/-! ## The lane that an end names -/

/-- The lanes were there for the same deliveries, so they carry the same tokens. -/
theorem ReadsNamed.of_kept (h : ReadsNamed sha256Hex s)
    (hkept : ∀ sessionId token, t.loop.readsRun = some (sessionId, token) →
      s.loop.readsRun = some (sessionId, token) ∧
        ∀ key lane, t.state.activeBySession.get? key = some lane →
          ∃ old, s.state.activeBySession.get? key = some old ∧ lane.delivery = old.delivery) :
    ReadsNamed sha256Hex t := by
  intro sessionId token hreads key lane hlane
  obtain ⟨hreads', hlanes⟩ := hkept sessionId token hreads
  obtain ⟨old, hold, hdelivery⟩ := hlanes key lane hlane
  unfold ActiveLane.terminalToken
  rw [hdelivery]
  exact h sessionId token hreads' key old hold

/-- A step that moves no lane off the session or onto it keeps the lane that was checked. -/
theorem step_readsNamed {input : System.Input} (h : ReadsNamed sha256Hex s)
    (hapart : TokensApart sha256Hex s.state) (hstays : ¬ MovesWhileReading sha256Hex s input)
    (hstep : s.step sha256Hex input = some t) : ReadsNamed sha256Hex t := by
  unfold System.step at hstep
  split at hstep
  next stage suggested hloop =>
    intro sessionId token hreads key lane hlane
    rw [← Option.some.inj hstep] at hreads hlane
    obtain ⟨hwatch, checked, hchecked, htoken⟩ := runStage_reads hreads
    rw [(Prod.mk.inj hwatch).1] at hlane
    constructor
    · intro heq
      exact hapart key sessionId lane checked hlane hchecked (heq.trans htoken.symm)
    · rintro rfl
      rw [hchecked] at hlane
      rwa [← Option.some.inj hlane]
  next wait answer hloop =>
    refine h.of_kept fun sessionId token hreads => ?_
    obtain ⟨hsame, hsettles⟩ := resumeLoop_reads hstep hreads
    exact ⟨hloop ▸ hsame, hsettles.kept⟩
  next wait nowMs hloop =>
    split_ifs at hstep
    exact Option.some.inj hstep ▸ h
  next wait event hloop =>
    split_ifs at hstep
    have hloop' : (s.botEvent sha256Hex event).loop = s.loop := by
      unfold System.botEvent
      dsimp only
      split <;> rfl
    rw [← Option.some.inj hstep]
    exact h.of_kept fun _ _ hreads => ⟨hloop' ▸ hreads, fun _ _ => kept_of_watch botEvent_watch⟩
  next wait config hloop =>
    have hloop' : (s.botConfig config).loop = s.loop := by
      unfold System.botConfig
      dsimp only
      split <;> rfl
    rw [← Option.some.inj hstep]
    exact h.of_kept fun _ _ hreads => ⟨hloop' ▸ hreads, botConfig_settles.kept⟩
  next wait rotated hloop =>
    have hsettles : s.tickClock.Settles (s.tickClock.requestRotation rotated) := settles_requestRotation
    rw [← Option.some.inj hstep]
    exact h.of_kept fun _ _ hreads => ⟨hreads, hsettles.kept⟩
  next wait envelope hloop => exact Option.some.inj hstep ▸ h
  next wait index answer hloop =>
    unfold System.resumeTask at hstep
    split at hstep
    · cases hstep
    next task htask =>
      obtain ⟨turn, hturn, ht⟩ := Option.map_eq_some_iff.mp hstep
      rw [← ht]
      intro sessionId token hreads key lane hlane
      have hreads' : s.loop.readsRun = some (sessionId, token) := hreads
      obtain ⟨source, old, hold, hdelivery, hmoved⟩ := (resume_rests hturn).kept key lane hlane
      have hnamed := h sessionId token hreads' source old hold
      unfold ActiveLane.terminalToken
      rw [hdelivery]
      by_cases hsame : source = key
      · rwa [← hsame]
      -- The lane was moved, neither off the session nor onto it.
      have hmoves : MovesLane source key turn.log := hmoved.resolve_left hsame
      have hclear : ¬ (source = sessionId ∨ key = sessionId) := fun hends =>
        hstays ⟨sessionId, token, index, answer, task, turn, source, key, hreads', rfl, htask, hturn,
          hmoves, hsame, hends⟩
      have hother : ¬ old.terminalToken sha256Hex = token := fun htoken =>
        hclear (.inl (hnamed.mp htoken))
      exact iff_of_false hother fun hkey => hclear (.inr hkey)
  · cases hstep

theorem run_readsNamed {steps : List (System × System.Input)}
    (hrun : (System.controller sha256Hex).Run steps s)
    (hapart : ∀ step ∈ steps, TokensApart sha256Hex step.1.state)
    (hstays : ∀ step ∈ steps, ¬ MovesWhileReading sha256Hex step.1 step.2) :
    ReadsNamed sha256Hex s := by
  refine hrun.invariant (P := ReadsNamed sha256Hex)
    (M := fun s input => TokensApart sha256Hex s.state ∧ ¬ MovesWhileReading sha256Hex s input) ?_ ?_
    fun step hmem => ⟨hapart step hmem, hstays step hmem⟩
  · intro s hinit
    obtain ⟨config, mainGeneration, sessionGenerations, nowMs, rfl⟩ := hinit.eq_start
    intro sessionId token hreads
    cases hreads
  · intro s input t _ hs hmeets hstep
    exact step_readsNamed hs hmeets.1 hmeets.2 hstep

/-! ## What an end changes -/

/-- Reading a run changes the lane on its session only. -/
theorem get?_reconcileRun {state : ControllerState} {runId target key : String} {pc : ReconcilePc}
    {out : ControllerState × Option ReconcilePc}
    (h : reconcileRun runId target pc answer state = some out) (hkey : key ≠ target) :
    out.1.activeBySession.get? key = state.activeBySession.get? key := by
  have hresolve : ∀ (state : ControllerState) resolution,
      (state.setLaneResolution target resolution).activeBySession.get? key =
        state.activeBySession.get? key := by
    intro state resolution
    unfold setLaneResolution modifyLane LaneMap.modify LaneMap.get?
    rw [OrdMap.get?_modify, if_neg hkey]
  have hnext : ∀ (state : ControllerState) invocations rest,
      (reconcileNext runId target invocations state rest).1.activeBySession.get? key =
        state.activeBySession.get? key := by
    intro state invocations rest
    cases rest with
    | nil =>
      unfold reconcileNext reconcileUnresolved
      dsimp only
      split_ifs
      · exact hresolve ..
      · rfl
      · rfl
    | cons => rfl
  unfold reconcileRun at h
  split at h
  · exact Option.some.inj h ▸ hnext ..
  · exact Option.some.inj h ▸ rfl
  · exact Option.some.inj h ▸ (hnext ..).trans (hresolve ..)
  · exact Option.some.inj h ▸ hnext ..
  · exact Option.some.inj h ▸ hnext ..
  · cases h

/-- A lane that an end of a run does not name. -/
def Unnamed (sha256Hex : String → String) (s : System) (sessionId token key : String) : Prop :=
  ∀ lane, s.state.activeBySession.get? key = some lane →
    ¬ (key = sessionId ∧ lane.terminalToken sha256Hex = token)

/-- With the lane that was checked in place, an answer to the loop's reading changes no other. -/
theorem resumeLoop_unnamed {key : String} (h : ReadsNamed sha256Hex s)
    (hreads : s.loop.readsRun = some (sessionId, token))
    (hstep : s.step sha256Hex (.loop answer) = some t)
    (hunnamed : Unnamed sha256Hex s sessionId token key) :
    t.state.activeBySession.get? key = s.state.activeBySession.get? key := by
  obtain ⟨runId, status, failureMessageRef, pc, hloop⟩ : ∃ runId status failureMessageRef pc,
      s.loop = .waiting (.readingRun sessionId runId token status failureMessageRef pc) := by
    unfold LoopPc.readsRun at hreads
    split at hreads
    next runId _ status failureMessageRef pc heq =>
      obtain ⟨rfl, rfl⟩ := Prod.mk.inj (Option.some.inj hreads)
      exact ⟨runId, status, failureMessageRef, pc, heq⟩
    · cases hreads
  unfold System.step at hstep
  rw [hloop] at hstep
  obtain ⟨⟨state, next⟩, hread, ht⟩ := Option.map_eq_some_iff.mp hstep
  have hstate : state.activeBySession.get? key = s.state.activeBySession.get? key := by
    by_cases hkey : key = sessionId
    · -- The lane on the session is the one that is named, so there is none.
      have hnone : s.state.activeBySession.get? key = none := by
        cases hlane : s.state.activeBySession.get? key with
        | none => rfl
        | some lane =>
          exact absurd ⟨hkey, (h sessionId token hreads key lane hlane).mpr hkey⟩
            (hunnamed lane hlane)
      rw [hnone]
      cases hlane : state.activeBySession.get? key with
      | none => rfl
      | some lane =>
        obtain ⟨old, hold, -⟩ := (reconcileRun_settles hread).kept key lane hlane
        rw [hnone] at hold
        cases hold
    · exact get?_reconcileRun hread hkey
  rw [← ht]
  cases next with
  | some next => exact hstate
  | none =>
    change (state.attachTerminal sha256Hex token _).activeBySession.get? key = _
    rw [get?_attachTerminal, hstate]
    cases hlane : s.state.activeBySession.get? key with
    | none => rfl
    | some lane =>
      have hother : ¬ lane.terminalToken sha256Hex = token := fun htoken =>
        hunnamed lane hlane ⟨(h sessionId token hreads key lane hlane).mp htoken, htoken⟩
      rw [Option.map_some, if_neg]
      exact fun heq => hother (beq_iff_eq.mp heq)

/-- A dead session's failure changes the lane on that session only. -/
theorem rollDead_get? {suggested : Bool} {key : String} {status : BotSessionStatus}
    {rest : List (String × BotSessionStatus)}
    (hloop : s.loop = .running (.rollDead ((sessionId, status) :: rest)))
    (hstep : s.step sha256Hex (.run suggested) = some t) (hkey : key ≠ sessionId) :
    t.state.activeBySession.get? key = s.state.activeBySession.get? key := by
  unfold System.step at hstep
  rw [hloop] at hstep
  rw [← Option.some.inj hstep]
  unfold System.runStage System.rollDead
  dsimp only
  split
  · rfl
  next state hfail =>
    have hstate : state.activeBySession.get? key = s.state.activeBySession.get? key :=
      get?_failLaneOnDeadSession hfail hkey
    have hroll : (state.rollSessionForward sessionId).watch = state.watch := by
      unfold rollSessionForward
      dsimp only
      split_ifs <;> rfl
    split_ifs
    · exact hstate
    · change (state.rollSessionForward sessionId).activeBySession.get? key = _
      rw [(Prod.mk.inj hroll).1, hstate]

/-- Along a run in which the lanes' deliveries are told apart, and none is moved off a session or onto it
while the loop reads the run that ended there: a lane that waits for its run is watched by a sweep, for
which the controller wakes and which finds it; and an end that an emission brings, or a dead session,
changes the lane that it names and no other. -/
theorem waiting_lanes_watched {steps : List (System × System.Input)}
    (hrun : (System.controller sha256Hex).Run steps s)
    (hapart : ∀ step ∈ steps, TokensApart sha256Hex step.1.state)
    (hstays : ∀ step ∈ steps, ¬ MovesWhileReading sha256Hex step.1 step.2) :
    (∀ sessionId lane, s.state.activeBySession.get? sessionId = some lane →
        lane.runId.isSome = true → lane.terminal = none →
      ∃ atMs, s.state.deadSessionSweepAtMs = some atMs ∧
        (∀ nowMs, ∃ deadline ≤ atMs, s.state.wakeDeadline nowMs = some deadline) ∧
        ∀ nowMs, atMs ≤ nowMs → sessionId ∈ (s.state.takeDeadSessionSweep nowMs).2 ∧
          (s.state.takeDeadSessionSweep nowMs).1.deadSessionSweepAtMs =
            some (nowMs + botDeadSessionSweepIntervalMs)) ∧
    (∀ suggested t key, s.loop = .running .emissions → s.step sha256Hex (.run suggested) = some t →
      t.state.activeBySession.get? key = s.state.activeBySession.get? key) ∧
    (∀ sessionId token answer t key, s.loop.readsRun = some (sessionId, token) →
      s.step sha256Hex (.loop answer) = some t → Unnamed sha256Hex s sessionId token key →
        t.state.activeBySession.get? key = s.state.activeBySession.get? key) ∧
    (∀ sessionId status rest suggested t key,
      s.loop = .running (.rollDead ((sessionId, status) :: rest)) →
        s.step sha256Hex (.run suggested) = some t → key ≠ sessionId →
          t.state.activeBySession.get? key = s.state.activeBySession.get? key) := by
  refine ⟨?_, ?_, ?_, ?_⟩
  · intro sessionId lane hlane hrunId hterminal
    have hwaits : lane.waits = true := by
      rw [ActiveLane.waits, hrunId, hterminal]
      rfl
    obtain ⟨atMs, hsweep⟩ :=
      Option.isSome_iff_exists.mp (reaches_watched ⟨steps, hrun⟩ sessionId lane hlane hwaits)
    exact ⟨atMs, hsweep, wakeDeadline_le hsweep, fun nowMs hdue =>
      takeDeadSessionSweep_due hsweep hdue hlane hwaits⟩
  · intro suggested t key hloop hstep
    unfold System.step at hstep
    rw [hloop] at hstep
    rw [← Option.some.inj hstep]
    exact congrArg (fun lanes => lanes.get? key) (Prod.mk.inj processEmissions_keeps.1).1
  · intro sessionId token answer t key hreads hstep hunnamed
    exact resumeLoop_unnamed (run_readsNamed hrun hapart hstays) hreads hstep hunnamed
  · intro sessionId status rest suggested t key hloop hstep hkey
    exact rollDead_get? hloop hstep hkey

/-! ## Runs that an emission ends -/

/-- One lane is told apart. -/
theorem tokensApart_of_length {state : ControllerState}
    (h : state.activeBySession.lanes.keys.length ≤ 1) : TokensApart sha256Hex state := by
  intro key key' lane lane' hlane hlane' _
  have hkey : key ∈ state.activeBySession.lanes.keys := OrdMap.mem_keys.mpr ⟨lane, hlane⟩
  have hkey' : key' ∈ state.activeBySession.lanes.keys := OrdMap.mem_keys.mpr ⟨lane', hlane'⟩
  obtain ⟨i, hi, rfl⟩ := List.getElem_of_mem hkey
  obtain ⟨j, hj, rfl⟩ := List.getElem_of_mem hkey'
  have hsame : i = j := by omega
  simp only [hsame]

theorem staysWhileReading_of_none {input : System.Input} (h : s.loop.readsRun = none) :
    ¬ MovesWhileReading sha256Hex s input := by
  rintro ⟨_, _, _, _, _, _, _, _, hreads, -⟩
  rw [h] at hreads
  cases hreads

/-- The end of the run that a session had for a delivery. -/
def endOf (sessionId deliveryId : String) : EmissionEnvelope :=
  { emissionId := "m"
    producer := .session "u" sessionId 0
    body := .runTerminal (deliveryTerminalToken id deliveryId) 1 .completed none }

/-- The loop parks, and an emission wakes it. -/
def untilReading (sessionId : String) : List System.Input :=
  [.deliverEmission (endOf sessionId (deliveryId id ["e"])), .loop .woken, .run false, .run false]

/-- The lane on the main session waits for its run, and the loop reads the run when its end comes. -/
def triageEnded : List System.Input :=
  triageDispatched ++ [.run false, .run false, .task 0 .woken, .task 0 (.status .idle),
    .task 0 (.started "run_1" none)] ++ untilReading triageStart.state.mainSessionId

theorem waiting_lanes_watched_triage : ∃ steps s t sessionId lane atMs token,
    (System.controller id).Run steps s ∧ s.state.activeBySession.get? sessionId = some lane ∧
      lane.runId.isSome = true ∧ lane.terminal = none ∧ s.state.deadSessionSweepAtMs = some atMs ∧
        sessionId ∈ (s.state.takeDeadSessionSweep atMs).2 ∧
          s.loop.readsRun = some (sessionId, token) ∧
            s.step id (.loop (.invocations 1 [])) = some t ∧
              t.state.activeBySession.get? sessionId ≠ s.state.activeBySession.get? sessionId ∧
                ∀ key, Unnamed id s sessionId token key →
                  t.state.activeBySession.get? key = s.state.activeBySession.get? key := by
  obtain ⟨⟨steps, s⟩, hs, hmeets, hreads, hwaits, hchanges⟩ :
      ∃ r ∈ (System.controller id).trace triageStart triageEnded,
      (∀ step ∈ r.1, step.1.state.activeBySession.lanes.keys.length ≤ 1 ∧
        step.1.loop.readsRun = none) ∧ r.2.loop.readsRun = some (triageStart.state.mainSessionId,
        deliveryTerminalToken id (deliveryId id ["e"])) ∧
        ((r.2.state.activeBySession.get? triageStart.state.mainSessionId).any fun lane =>
          lane.runId.isSome && lane.terminal.isNone) = true ∧
            ((r.2.step id (.loop (.invocations 1 []))).any fun t =>
              t.state.activeBySession.get? triageStart.state.mainSessionId !=
                r.2.state.activeBySession.get? triageStart.state.mainSessionId) = true := by
    decide +kernel
  obtain ⟨lane, hlane, hwaits⟩ := (Option.any_eq_true _ _).mp hwaits
  obtain ⟨t, ht, hchanges⟩ := (Option.any_eq_true _ _).mp hchanges
  obtain ⟨hrunId, hterminal⟩ := Bool.and_eq_true_iff.mp hwaits
  have hrun := (Machine.Run.init (m := System.controller id) triageStart_initial).trace hs
  obtain ⟨hwatched, -, hnamed, -⟩ := waiting_lanes_watched hrun
    (fun step hmem => tokensApart_of_length (hmeets step hmem).1)
    (fun step hmem => staysWhileReading_of_none (hmeets step hmem).2)
  obtain ⟨atMs, hsweep, -, hfinds⟩ := hwatched _ lane hlane hrunId (Option.isNone_iff_eq_none.mp hterminal)
  refine ⟨steps, s, t, _, lane, atMs, _, hrun, hlane, hrunId, Option.isNone_iff_eq_none.mp hterminal,
    hsweep, (hfinds atMs (le_refl atMs)).1, hreads, ht, bne_iff_ne.mp hchanges, ?_⟩
  intro key hunnamed
  exact hnamed _ _ _ t key hreads ht hunnamed

/-- The id of a session that a key of the bot routes to. -/
def keyedSessionId : String := "bot:v1:triage:k"

def keyedEvent : BotEvent :=
  { triageEvent with
    session := some { sessionId := keyedSessionId, label := "k", sessionKey := some "k" } }

/-- The lane on the key's session asks for it, an emission says that a run ended there, and while the loop
reads that run the session turns out to be another's: the lane goes on with the key's next generation. -/
def keyedMoved : List System.Input :=
  .botEvent keyedEvent :: untilEnsuring ++ [.loop (.ensured 1 []), .run false, .run false, .run false,
    .task 0 .woken] ++ untilReading keyedSessionId ++
      [.task 0 (.declarationMismatch "another declaration"), .task 0 (.ensured 1 [])]

/-- A lane that moved while the loop read gets the end of a run of the session that it left. -/
theorem moved_lane_takes_end : ∃ s t sessionId token key, (System.controller id).Reaches s ∧
    TokensApart id s.state ∧ s.loop.readsRun = some (sessionId, token) ∧
      s.step id (.loop (.invocations 1 [])) = some t ∧ key ≠ sessionId ∧
        t.state.activeBySession.get? key ≠ s.state.activeBySession.get? key := by
  obtain ⟨s, hs, hone, hreads, hchanges⟩ : ∃ s ∈ (System.controller id).exec triageStart keyedMoved,
      s.state.activeBySession.lanes.keys.length ≤ 1 ∧
        s.loop.readsRun = some (keyedSessionId, deliveryTerminalToken id (deliveryId id ["e"])) ∧
          ((s.step id (.loop (.invocations 1 []))).any fun t =>
            t.state.activeBySession.get? (keyedSessionId ++ "-g2") !=
              s.state.activeBySession.get? (keyedSessionId ++ "-g2")) = true := by decide +kernel
  obtain ⟨t, ht, hchanges⟩ := (Option.any_eq_true _ _).mp hchanges
  exact ⟨s, t, keyedSessionId, _, keyedSessionId ++ "-g2", Machine.exec_reaches triageStart_initial hs,
    tokensApart_of_length hone, hreads, ht, by decide +kernel, bne_iff_ne.mp hchanges⟩

end Lightspeed.Bots
