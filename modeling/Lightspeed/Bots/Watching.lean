import Lightspeed.Bots.Conservation

/-!
# Waiting lanes are watched

A lane that waits for the end of its run is never left without a sweep that will find its session dead.
What a turn of a task does to the table of lanes: it adds none, moves one only when it says so, and leaves
no waiting lane unwatched.
-/

namespace Lightspeed.Bots

open Lib Harness

/-- Whether a lane waits for the end of its run. -/
def ActiveLane.waits (lane : ActiveLane) : Bool := lane.runId.isSome && lane.terminal.isNone

/-- Whether the lane on one session was moved to the other. -/
def MovesLane (source target : String) (log : List Obs) : Prop :=
  ∃ displaced, .rekeyed source target displaced ∈ log

/-! ## What is accepted -/

/-- The ids of the events that were accepted as new, in order. -/
def acceptedIds (log : List Obs) : List String := (log.flatMap acceptedOf).map (·.id)

theorem acceptedIds_append (log more : List Obs) :
    acceptedIds (log ++ more) = acceptedIds log ++ acceptedIds more := by
  unfold acceptedIds
  rw [List.flatMap_append, List.map_append]

theorem acceptedIds_cons (obs : Obs) (log : List Obs) :
    acceptedIds (obs :: log) = acceptedIds [obs] ++ acceptedIds log := acceptedIds_append [obs] log

theorem acceptedIds_queued (deliveries : List BotDelivery) :
    acceptedIds (deliveries.map .queued) = [] := by
  induction deliveries with
  | nil => rfl
  | cons d rest ih => exact ih

/-- What is logged has no acceptance. -/
def Turn.Quiet (turn : Turn) : Prop := acceptedIds turn.log = []

/-! ## Lanes that wait -/

namespace ControllerState

variable {s t u : ControllerState} {nowMs : Int} {sessionId target message : String}
  {delivery : BotDelivery} {runId sessionId source key : String} {outcome : DeliveryOutcome}
  {session : RoutedSession} {attempt : Nat}

/-- A sweep is due some time while a lane waits. -/
def Watched (s : ControllerState) : Prop :=
  ∀ key lane, s.activeBySession.get? key = some lane → lane.waits = true →
    s.deadSessionSweepAtMs.isSome = true

/-- The lanes, and the time of the next sweep. -/
def watch (s : ControllerState) : LaneMap × Option Int := (s.activeBySession, s.deadSessionSweepAtMs)

/-- Waiting lanes stay watched, every lane was there for the same delivery, and no event is seen. -/
structure Settles (s t : ControllerState) : Prop where
  watched : s.Watched → t.Watched
  kept : ∀ key lane, t.activeBySession.get? key = some lane →
    ∃ old, s.activeBySession.get? key = some old ∧ lane.delivery = old.delivery
  seen : t.seenEventIds = s.seenEventIds

theorem Settles.refl (s : ControllerState) : Settles s s :=
  ⟨id, fun _ lane h => ⟨lane, h, rfl⟩, rfl⟩

theorem Settles.trans (h : Settles s t) (h' : Settles t u) : Settles s u := by
  refine ⟨h'.watched ∘ h.watched, fun key lane hlane => ?_, h'.seen.trans h.seen⟩
  obtain ⟨mid, hmid, hdelivery⟩ := h'.kept key lane hlane
  obtain ⟨old, hold, hdelivery'⟩ := h.kept key mid hmid
  exact ⟨old, hold, hdelivery.trans hdelivery'⟩

/-- Every lane was there for the same delivery, and waits no more than it did; the sweep stays. -/
theorem Settles.of_lanes (hsweep : t.deadSessionSweepAtMs = s.deadSessionSweepAtMs)
    (hlanes : ∀ key lane, t.activeBySession.get? key = some lane →
      ∃ old, s.activeBySession.get? key = some old ∧ lane.delivery = old.delivery ∧
        (lane.waits = true → old.waits = true))
    (hseen : t.seenEventIds = s.seenEventIds) : Settles s t := by
  refine ⟨?_, ?_, hseen⟩
  · intro hwatched key lane hlane hwaits
    obtain ⟨old, hold, -, hwaits'⟩ := hlanes key lane hlane
    rw [hsweep]
    exact hwatched key old hold (hwaits' hwaits)
  · intro key lane hlane
    obtain ⟨old, hold, hdelivery, -⟩ := hlanes key lane hlane
    exact ⟨old, hold, hdelivery⟩

theorem Settles.of_watch (h : t.watch = s.watch)
    (hseen : t.seenEventIds = s.seenEventIds) : Settles s t := by
  obtain ⟨hlanes, hsweep⟩ := Prod.mk.inj h
  refine .of_lanes hsweep (fun key lane hlane => ?_) hseen
  rw [hlanes] at hlane
  exact ⟨lane, hlane, rfl, id⟩

theorem settles_tickLane : Settles s s.tickLane := .of_watch rfl rfl

theorem settles_recordError : Settles s (s.recordError message) := .of_watch rfl rfl

theorem settles_rememberDelivery {recent : BotRecentDelivery} :
    Settles s (s.rememberDelivery recent) := .of_watch rfl rfl

theorem settles_requeueFront : Settles s (s.requeueFront delivery nowMs) := .of_watch rfl rfl

theorem settles_releaseSidecar : Settles s (s.releaseSidecar target nowMs) := .of_watch rfl rfl

/-! ## The table of lanes -/

theorem mem_lanesAwaitingTerminal : sessionId ∈ s.lanesAwaitingTerminal ↔
    ∃ lane, s.activeBySession.get? sessionId = some lane ∧ lane.waits = true := by
  unfold lanesAwaitingTerminal
  rw [OrdMap.mem_keys]
  simp only [OrdMap.get?_filter, Option.filter_eq_some_iff]
  rfl

theorem settles_removeLane : Settles s (s.removeLane target) := by
  refine .of_lanes rfl (fun key lane hlane => ?_) rfl
  unfold removeLane LaneMap.erase LaneMap.get? at hlane
  rw [OrdMap.get?_erase] at hlane
  split_ifs at hlane
  exact ⟨lane, hlane, rfl, id⟩

/-- A lane that changes what it reports, and starts to wait only when that is watched. -/
theorem get?_modifyLane {f : ActiveLane → ActiveLane}
    {hf : ∀ lane, (f lane).sessionId = lane.sessionId}
    (hdelivery : ∀ lane, (f lane).delivery = lane.delivery) {lane : ActiveLane}
    (h : (s.modifyLane sessionId f hf).activeBySession.get? key = some lane) :
    ∃ old, s.activeBySession.get? key = some old ∧ lane.delivery = old.delivery ∧
      (lane = old ∨ lane = f old) := by
  unfold modifyLane LaneMap.modify LaneMap.get? at h
  rw [OrdMap.get?_modify] at h
  split_ifs at h
  · obtain ⟨old, hold, rfl⟩ := Option.map_eq_some_iff.mp h
    exact ⟨old, hold, hdelivery old, .inr rfl⟩
  · exact ⟨lane, h, rfl, .inl rfl⟩

theorem settles_modifyLane {f : ActiveLane → ActiveLane}
    {hf : ∀ lane, (f lane).sessionId = lane.sessionId} (hdelivery : ∀ lane, (f lane).delivery = lane.delivery)
    (hwaits : ∀ lane, (f lane).waits = true → lane.waits = true) :
    Settles s (s.modifyLane sessionId f hf) := by
  refine .of_lanes rfl (fun key lane hlane => ?_) rfl
  obtain ⟨old, hold, hsame, rfl | rfl⟩ := get?_modifyLane hdelivery hlane
  · exact ⟨lane, hold, hsame, id⟩
  · exact ⟨old, hold, hsame, hwaits old⟩

theorem settles_parkLane : Settles s (s.parkLane sessionId) :=
  settles_modifyLane (fun _ => rfl) fun _ h => h

theorem settles_setLaneResolution {resolution : LaneResolution} :
    Settles s (s.setLaneResolution sessionId resolution) :=
  settles_modifyLane (fun _ => rfl) fun _ h => h

/-- A lane that was handed the end of its run waits no more. -/
theorem get?_attachTerminal {sha256Hex : String → String} {token : String} {terminal : LaneTerminal}
    (key : String) : (s.attachTerminal sha256Hex token terminal).activeBySession.get? key =
      (s.activeBySession.get? key).map fun lane =>
        if deliveryTerminalToken sha256Hex lane.delivery.id == token then
          { lane with terminal := some terminal } else lane := by
  unfold attachTerminal
  dsimp only
  split_ifs <;> exact OrdMap.get?_mapValues ..

theorem settles_attachTerminal {sha256Hex : String → String} {token : String}
    {terminal : LaneTerminal} : Settles s (s.attachTerminal sha256Hex token terminal) := by
  have hsweep : (s.attachTerminal sha256Hex token terminal).deadSessionSweepAtMs =
      s.deadSessionSweepAtMs := by
    unfold attachTerminal
    dsimp only
    split_ifs <;> rfl
  have hseen : (s.attachTerminal sha256Hex token terminal).seenEventIds = s.seenEventIds := by
    unfold attachTerminal
    dsimp only
    split_ifs <;> rfl
  refine .of_lanes hsweep (fun key lane hlane => ?_) hseen
  rw [get?_attachTerminal] at hlane
  obtain ⟨old, hold, rfl⟩ := Option.map_eq_some_iff.mp hlane
  refine ⟨old, hold, ?_, ?_⟩
  · split <;> rfl
  · split
    · intro hwaits
      simp [ActiveLane.waits] at hwaits
    · exact id

/-- The failure of a dead session changes the lane on that session only. -/
theorem get?_failLaneOnDeadSession (h : s.failLaneOnDeadSession sessionId message = some t)
    (hkey : key ≠ sessionId) : t.activeBySession.get? key = s.activeBySession.get? key := by
  unfold failLaneOnDeadSession at h
  split at h
  · rw [← Option.some.inj h]
    unfold tickLane modifyLane LaneMap.modify LaneMap.get?
    rw [OrdMap.get?_modify, if_neg hkey]
  · cases h

theorem settles_failLaneOnDeadSession (h : s.failLaneOnDeadSession sessionId message = some t) :
    Settles s t := by
  unfold failLaneOnDeadSession at h
  split at h
  · rw [← Option.some.inj h]
    refine Settles.trans ?_ settles_tickLane
    refine settles_modifyLane (fun _ => rfl) fun lane hwaits => ?_
    simp [ActiveLane.waits] at hwaits
  · cases h

theorem settles_requeueLane {notBeforeMs : Int} :
    Settles s (s.requeueLane target delivery notBeforeMs) :=
  settles_removeLane.trans (.of_watch rfl rfl)

/-- A lane that is moved to the session that it is on stays; any other one waits where it is moved to. -/
theorem get?_rekeyLane {lane : ActiveLane}
    (h : (s.rekeyLane source target).activeBySession.get? key = some lane) :
    s.activeBySession.get? key = some lane ∨
      key = target ∧ ∃ old, s.activeBySession.get? source = some old ∧
        lane = { old with sessionId := target } := by
  unfold rekeyLane at h
  split at h
  · exact .inl h
  next old hold =>
    unfold LaneMap.insert LaneMap.erase LaneMap.get? at h
    rw [OrdMap.get?_insert] at h
    split_ifs at h with hkey
    · exact .inr ⟨hkey.symm, old, hold, (Option.some.inj h).symm⟩
    · rw [OrdMap.get?_erase] at h
      split_ifs at h
      exact .inl h

theorem seenEventIds_rekeyLane : (s.rekeyLane source target).seenEventIds = s.seenEventIds := by
  unfold rekeyLane
  split <;> rfl

theorem watched_rekeyLane (h : s.Watched) : (s.rekeyLane source target).Watched := by
  have hsweep : (s.rekeyLane source target).deadSessionSweepAtMs = s.deadSessionSweepAtMs := by
    unfold rekeyLane
    split <;> rfl
  intro key lane hlane hwaits
  rw [hsweep]
  rcases get?_rekeyLane hlane with hold | ⟨-, old, hold, rfl⟩
  · exact h key lane hold hwaits
  · exact h source old hold hwaits

theorem watch_rollBudgetDay : (s.rollBudgetDay nowMs).watch = s.watch := by
  unfold rollBudgetDay
  split_ifs <;> rfl

theorem seenEventIds_rollBudgetDay : (s.rollBudgetDay nowMs).seenEventIds = s.seenEventIds := by
  unfold rollBudgetDay
  split_ifs <;> rfl

/-- The start of a run is watched from then on. -/
theorem settles_markLaneStarted : Settles s (s.markLaneStarted sessionId runId nowMs) := by
  have hwatch : (s.markLaneStarted sessionId runId nowMs).watch =
      ((s.modifyLane sessionId fun lane => { lane with runId := some runId }).activeBySession,
        some (s.deadSessionSweepAtMs.getD (nowMs + botDeadSessionSweepIntervalMs))) := by
    unfold markLaneStarted
    dsimp only
    rw [tickLane]
    exact watch_rollBudgetDay
  have hseen : (s.markLaneStarted sessionId runId nowMs).seenEventIds = s.seenEventIds := by
    unfold markLaneStarted
    dsimp only
    rw [tickLane]
    exact seenEventIds_rollBudgetDay
  obtain ⟨hlanes, hsweep⟩ := Prod.mk.inj hwatch
  refine ⟨?_, ?_, hseen⟩
  · intro _ _ _ _ _
    rw [hsweep]
    rfl
  · intro key lane hlane
    rw [hlanes] at hlane
    obtain ⟨old, hold, hdelivery, -⟩ :=
      get?_modifyLane (f := fun lane => { lane with runId := some runId }) (fun _ => rfl) hlane
    exact ⟨old, hold, hdelivery⟩

/-- The sweep is given up with the last lane that waits. -/
theorem settles_releaseLane : Settles s (s.releaseLane sessionId nowMs) := by
  have hremove : Settles s (s.removeLane sessionId) := settles_removeLane
  refine hremove.trans ?_
  unfold releaseLane
  dsimp only
  split_ifs with hnone
  · refine ⟨fun _ key lane hlane hwaits => ?_, fun key lane hlane => ⟨lane, hlane, rfl⟩, rfl⟩
    have hmem : key ∈ (s.removeLane sessionId).lanesAwaitingTerminal :=
      mem_lanesAwaitingTerminal.mpr ⟨lane, hlane, hwaits⟩
    rw [List.isEmpty_iff.mp hnone] at hmem
    cases hmem
  · exact .of_watch rfl rfl

theorem settles_takeDeadSessionSweep : Settles s (s.takeDeadSessionSweep nowMs).1 := by
  unfold takeDeadSessionSweep
  dsimp only
  split_ifs with hearly hnone
  · exact .refl s
  · refine ⟨fun _ key lane hlane hwaits => ?_, fun key lane hlane => ⟨lane, hlane, rfl⟩, rfl⟩
    have hmem : key ∈ s.lanesAwaitingTerminal := mem_lanesAwaitingTerminal.mpr ⟨lane, hlane, hwaits⟩
    rw [List.isEmpty_iff.mp hnone] at hmem
    cases hmem
  · exact ⟨fun _ _ _ _ _ => rfl, fun key lane hlane => ⟨lane, hlane, rfl⟩, rfl⟩

theorem settles_retryDelivery (h : s.retryDelivery target delivery nowMs = some t) : Settles s t := by
  unfold retryDelivery at h
  dsimp only at h
  split_ifs at h
  exact Option.some.inj h ▸ settles_requeueLane

theorem settles_rollSessionForward : Settles s (s.rollSessionForward sessionId) := by
  unfold rollSessionForward
  dsimp only
  split_ifs <;> exact .of_watch rfl rfl

theorem settles_forgetRoutedSession : Settles s (s.forgetRoutedSession sessionId) := by
  unfold forgetRoutedSession
  dsimp only
  split_ifs <;> exact .of_watch rfl rfl

/-- Every lane of a new execution that waits is watched. -/
theorem watched_new {args : BotControllerArgs} : (ControllerState.new args nowMs).Watched := by
  intro key lane hlane _
  change (if (args.carry.getD {}).waitingLanes.isEmpty then none
    else some (nowMs + botDeadSessionSweepIntervalMs)).isSome = true
  change (LaneMap.ofList ((args.carry.getD {}).waitingLanes.map inheritedLane)).get? key =
    some lane at hlane
  split_ifs with hnone
  · rw [List.isEmpty_iff.mp hnone] at hlane
    cases hlane
  · rfl

end ControllerState

/-! ## Turns of the lanes -/

section

variable {s t : ControllerState} {nowMs : Int} {target message : String} {delivery : BotDelivery}
  {turn : Turn} {answer : Answer} {sha256Hex : String → String}

/-- What a turn does to the table of lanes. -/
structure TurnSettles (s : ControllerState) (turn : Turn) : Prop where
  watched : s.Watched → turn.state.Watched
  seen : turn.state.seenEventIds = s.seenEventIds
  kept : ∀ key lane, turn.state.activeBySession.get? key = some lane →
    ∃ source old, s.activeBySession.get? source = some old ∧ lane.delivery = old.delivery ∧
      (source = key ∨ MovesLane source key turn.log)

theorem TurnSettles.of_settles (h : s.Settles turn.state) : TurnSettles s turn := by
  refine ⟨h.watched, h.seen, fun key lane hlane => ?_⟩
  obtain ⟨old, hold, hdelivery⟩ := h.kept key lane hlane
  exact ⟨key, old, hold, hdelivery, .inl rfl⟩

theorem TurnSettles.after (h : s.Settles t) (hturn : TurnSettles t turn) : TurnSettles s turn := by
  refine ⟨hturn.watched ∘ h.watched, hturn.seen.trans h.seen, fun key lane hlane => ?_⟩
  obtain ⟨source, mid, hmid, hdelivery, hmoved⟩ := hturn.kept key lane hlane
  obtain ⟨old, hold, hdelivery'⟩ := h.kept source mid hmid
  exact ⟨source, old, hold, hdelivery.trans hdelivery', hmoved⟩

/-- A turn that settles the state of the lane's task, and accepts nothing. -/
structure Rests (s : ControllerState) (turn : Turn) : Prop where
  settles : s.Settles turn.state
  quiet : turn.Quiet

theorem Rests.after (h : s.Settles t) (hturn : Rests t turn) : Rests s turn :=
  ⟨h.trans hturn.settles, hturn.quiet⟩

/-- What a turn does to the table of lanes, when it accepts nothing. -/
structure TurnRests (s : ControllerState) (turn : Turn) : Prop extends TurnSettles s turn where
  quiet : turn.Quiet

theorem Rests.toTurn (h : Rests s turn) : TurnRests s turn := ⟨.of_settles h.settles, h.quiet⟩

theorem TurnRests.after (h : s.Settles t) (hturn : TurnRests t turn) : TurnRests s turn :=
  ⟨.after h hturn.toTurnSettles, hturn.quiet⟩

/-- A turn that first moves its lane says so. -/
theorem Rests.rekey (h : Rests (s.rekeyLane source target) turn) :
    TurnRests s { turn with log := rekeyObs source target s :: turn.log } := by
  refine ⟨⟨fun hwatched => h.settles.watched (ControllerState.watched_rekeyLane hwatched),
    h.settles.seen.trans ControllerState.seenEventIds_rekeyLane, fun key lane hlane => ?_⟩, ?_⟩
  · obtain ⟨mid, hmid, hdelivery⟩ := h.settles.kept key lane hlane
    rcases ControllerState.get?_rekeyLane hmid with hold | ⟨rfl, old, hold, rfl⟩
    · exact ⟨key, mid, hold, hdelivery, .inl rfl⟩
    · exact ⟨source, old, hold, hdelivery, .inr ⟨_, List.mem_cons_self⟩⟩
  · show acceptedIds (_ :: turn.log) = []
    rw [acceptedIds_cons, h.quiet]
    rfl

theorem finishDelivery_rests : Rests s (finishDelivery nowMs sessionId delivery outcome s) := by
  have hremembered : s.Settles (s.rememberDelivery (recentSnapshot delivery sessionId outcome nowMs)) :=
    .of_watch rfl rfl
  exact ⟨hremembered.trans ControllerState.settles_releaseLane, rfl⟩

theorem failDelivery_rests : Rests s (failDelivery nowMs target delivery message s) :=
  .after (t := s.recordError message) (.of_watch rfl rfl) finishDelivery_rests

theorem rollForwardAndRequeue_rests : Rests s (rollForwardAndRequeue nowMs delivery target s) :=
  ⟨ControllerState.settles_rollSessionForward.trans ControllerState.settles_requeueLane, rfl⟩

theorem retryOnSuccessor_rests {status : BotSessionStatus} :
    Rests s (retryOnSuccessor nowMs delivery target status message s) := by
  unfold retryOnSuccessor
  split_ifs
  · exact failDelivery_rests
  · exact ⟨.refl s, rfl⟩
  · exact rollForwardAndRequeue_rests

theorem deliver_rests : Rests s (deliver delivery target s) := by
  unfold deliver
  split_ifs <;> exact ⟨.refl s, rfl⟩

theorem routedSessionReady_rests {ensured : String} :
    TurnRests s (routedSessionReady delivery target ensured s) := by
  unfold routedSessionReady
  dsimp only
  split_ifs
  · exact deliver_rests.rekey
  · exact deliver_rests.toTurn

theorem ensureRoutedSession_rests :
    TurnRests s (ensureRoutedSession nowMs delivery target session attempt sessionId s) := by
  unfold ensureRoutedSession
  split
  next known hknown =>
    have hsettles : s.Settles known := by
      by_cases hnone : (s.extraSession sessionId).isNone = true
      · rw [ControllerState.observeRoutedSession, if_pos hnone] at hknown
        cases hknown
      · rw [ControllerState.observeRoutedSession, if_neg hnone] at hknown
        rw [← Option.some.inj hknown]
        exact .of_watch rfl rfl
    exact .after hsettles routedSessionReady_rests
  · exact Rests.toTurn ⟨.refl s, rfl⟩

theorem enforceExtraSessionCap_rests {keep : String} :
    TurnRests s (enforceExtraSessionCap delivery target keep s) := by
  unfold enforceExtraSessionCap
  split_ifs
  · split
    · exact routedSessionReady_rests
    · exact Rests.toTurn ⟨.refl s, rfl⟩
  · exact routedSessionReady_rests

theorem routedSessionMismatch_rests :
    TurnRests s (routedSessionMismatch nowMs delivery target session attempt sessionId message s) := by
  unfold routedSessionMismatch
  dsimp only
  split_ifs
  · refine .after ?_ ensureRoutedSession_rests
    exact .of_watch rfl rfl
  · refine .after (t := s.recordError message) ?_ finishDelivery_rests.toTurn
    exact .of_watch rfl rfl

theorem resumeEnsuring_rests {request : BotEnsureSessionRequest}
    (h : resumeEnsuring nowMs delivery target session attempt request answer s = some turn) :
    TurnRests s turn := by
  unfold resumeEnsuring at h
  split at h
  · rw [← Option.some.inj h]
    refine .after ?_ enforceExtraSessionCap_rests
    exact .of_watch rfl rfl
  · exact Option.some.inj h ▸ routedSessionMismatch_rests
  · exact Option.some.inj h ▸ routedSessionMismatch_rests
  · exact Option.some.inj h ▸ retryOnSuccessor_rests.rekey
  next message =>
    rw [← Option.some.inj h]
    exact .after (t := s.recordError message) (.of_watch rfl rfl) finishDelivery_rests.toTurn
  · cases h

theorem closeSession_settles {closed : Bool}
    (h : closeSession sessionId answer s = some (t, closed)) : s.Settles t := by
  unfold closeSession at h
  split at h
  · obtain ⟨rfl, -⟩ := Prod.mk.inj (Option.some.inj h)
    exact .refl s
  · obtain ⟨rfl, -⟩ := Prod.mk.inj (Option.some.inj h)
    exact .of_watch rfl rfl
  · cases h

theorem resumeEvicting_rests {keep victim : String}
    (h : resumeEvicting delivery target keep victim answer s = some turn) : TurnRests s turn := by
  obtain ⟨⟨t, closed⟩, hclose, hturn⟩ := Option.map_eq_some_iff.mp h
  rw [← hturn]
  dsimp only
  split_ifs
  · exact .after ((closeSession_settles hclose).trans ControllerState.settles_forgetRoutedSession)
      enforceExtraSessionCap_rests
  · exact .after (closeSession_settles hclose) routedSessionReady_rests

theorem resumeRollingForward_rests
    (h : resumeRollingForward nowMs delivery target message answer s = some turn) : Rests s turn := by
  obtain ⟨⟨t, closed⟩, hclose, hturn⟩ := Option.map_eq_some_iff.mp h
  rw [← hturn]
  dsimp only
  split_ifs
  · exact .after (closeSession_settles hclose) rollForwardAndRequeue_rests
  · exact .after (closeSession_settles hclose) failDelivery_rests

theorem resumePublishing_rests {next : AfterPublish}
    (h : resumePublishing delivery target next answer s = some turn) : Rests s turn := by
  unfold resumePublishing at h
  split at h
  · exact Option.some.inj h ▸ ⟨.refl s, rfl⟩
  · exact Option.some.inj h ▸ ⟨.of_watch rfl rfl, rfl⟩
  · cases h

theorem resumeAppending_rests (h : resumeAppending nowMs delivery target answer s = some turn) :
    Rests s turn := by
  unfold resumeAppending at h
  split at h
  · exact Option.some.inj h ▸ finishDelivery_rests
  · exact Option.some.inj h ▸ ⟨.refl s, rfl⟩
  · cases h

theorem resumeAppendStatus_rests
    (h : resumeAppendStatus nowMs delivery target message answer s = some turn) : Rests s turn := by
  unfold resumeAppendStatus at h
  split at h
  · split_ifs at h
    · exact Option.some.inj h ▸ retryOnSuccessor_rests
    · exact Option.some.inj h ▸ failDelivery_rests
  · exact Option.some.inj h ▸ failDelivery_rests
  · cases h

theorem resumeStatus_rests (h : resumeStatus nowMs delivery target answer s = some turn) :
    Rests s turn := by
  unfold resumeStatus at h
  split at h
  · exact Option.some.inj h ▸ ⟨.refl s, rfl⟩
  · split_ifs at h
    · exact Option.some.inj h ▸ ⟨ControllerState.settles_requeueLane, rfl⟩
    · exact Option.some.inj h ▸ ⟨.refl s, rfl⟩
  · exact Option.some.inj h ▸ retryOnSuccessor_rests
  · exact Option.some.inj h ▸ failDelivery_rests
  · cases h

theorem resumeSteering_rests (h : resumeSteering nowMs delivery target answer s = some turn) :
    Rests s turn := by
  unfold resumeSteering at h
  split at h
  · exact Option.some.inj h ▸ finishDelivery_rests
  · exact Option.some.inj h ▸ ⟨ControllerState.settles_requeueLane, rfl⟩
  · exact Option.some.inj h ▸ failDelivery_rests
  · cases h

theorem afterStart_rests {finished : Option RunStatus} :
    Rests s (afterStart delivery target runId finished s) := by
  unfold afterStart
  split
  · exact ⟨ControllerState.settles_parkLane, rfl⟩
  · exact ⟨.refl s, rfl⟩

theorem retryStart_rests : Rests s (retryStart nowMs delivery target message s) := by
  unfold retryStart
  split
  · exact failDelivery_rests
  next t hretry => exact ⟨(ControllerState.settles_retryDelivery hretry).trans (.of_watch rfl rfl), rfl⟩

theorem resumeStarting_rests (h : resumeStarting nowMs delivery target answer s = some turn) :
    Rests s turn := by
  unfold resumeStarting at h
  split at h
  · rw [← Option.some.inj h]
    split_ifs
    · exact ⟨ControllerState.settles_markLaneStarted.trans afterStart_rests.settles, rfl⟩
    · exact ⟨ControllerState.settles_markLaneStarted, rfl⟩
  · exact Option.some.inj h ▸ failDelivery_rests
  · exact Option.some.inj h ▸ retryOnSuccessor_rests
  · exact Option.some.inj h ▸ retryStart_rests
  · exact Option.some.inj h ▸ retryStart_rests
  · cases h

theorem settleTick_settles (h : settleTick answer s = some t) : s.Settles t := by
  unfold settleTick at h
  split at h
  · exact Option.some.inj h ▸ .of_watch rfl rfl
  · exact Option.some.inj h ▸ .of_watch rfl rfl
  · cases h

theorem reconcileNext_settles {invocations rest : List BotToolInvocationRef} :
    s.Settles (reconcileNext runId target invocations s rest).1 := by
  cases rest with
  | nil =>
    unfold reconcileNext reconcileUnresolved
    dsimp only
    split_ifs
    · exact ControllerState.settles_setLaneResolution
    · exact .refl s
    · exact .refl s
  | cons => exact .refl s

/-- Reading a run's resolve calls moves no lane. -/
theorem reconcileRun_settles {pc : ReconcilePc} {out : ControllerState × Option ReconcilePc}
    (h : reconcileRun runId target pc answer s = some out) : s.Settles out.1 := by
  unfold reconcileRun at h
  split at h
  · rw [← Option.some.inj h]
    refine .trans ?_ reconcileNext_settles
    exact .of_watch rfl rfl
  · rw [← Option.some.inj h]
    exact .of_watch rfl rfl
  · rw [← Option.some.inj h]
    exact ControllerState.settles_setLaneResolution.trans reconcileNext_settles
  · rw [← Option.some.inj h]
    refine .trans ?_ reconcileNext_settles
    exact .of_watch rfl rfl
  · rw [← Option.some.inj h]
    refine .trans ?_ reconcileNext_settles
    exact .of_watch rfl rfl
  · cases h

theorem resumeReconciling_rests {status : RunStatus} {pc : ReconcilePc}
    (h : resumeReconciling sha256Hex delivery target runId status pc answer s = some turn) :
    Rests s turn := by
  obtain ⟨⟨t, next⟩, hread, hturn⟩ := Option.map_eq_some_iff.mp h
  have hsettles : s.Settles t := reconcileRun_settles hread
  rw [← hturn]
  cases next with
  | none =>
    exact ⟨hsettles.trans
      (ControllerState.settles_attachTerminal.trans ControllerState.settles_parkLane), rfl⟩
  | some next => exact ⟨hsettles, rfl⟩

theorem resumeWaiting_rests : Rests s (resumeWaiting nowMs delivery target runId s) := by
  unfold resumeWaiting
  split
  · dsimp only
    split_ifs
    · exact ⟨.refl s, rfl⟩
    · exact finishDelivery_rests
  · exact failDelivery_rests

theorem startLane_rests : TurnRests s (startLane nowMs delivery target s) := by
  unfold startLane
  split_ifs
  · exact Rests.toTurn
      ⟨ControllerState.settles_removeLane.trans ControllerState.settles_tickLane, rfl⟩
  · split
    · exact deliver_rests.toTurn
    · exact ensureRoutedSession_rests

theorem resumeLane_rests {pc : LanePc}
    (h : resumeLane sha256Hex nowMs delivery target pc answer s = some turn) : TurnRests s turn := by
  cases pc with
  | start =>
    simp only [resumeLane] at h
    split at h
    · exact Option.some.inj h ▸ startLane_rests
    · cases h
  | ensuring session attempt request => exact resumeEnsuring_rests h
  | evicting keep victim => exact resumeEvicting_rests h
  | rollingForward message => exact (resumeRollingForward_rests h).toTurn
  | publishing next => exact (resumePublishing_rests h).toTurn
  | appending => exact (resumeAppending_rests h).toTurn
  | readingAppendStatus message => exact (resumeAppendStatus_rests h).toTurn
  | readingStatus => exact (resumeStatus_rests h).toTurn
  | steering => exact (resumeSteering_rests h).toTurn
  | starting => exact (resumeStarting_rests h).toTurn
  | receipting runId finished =>
    obtain ⟨t, htick, hturn⟩ := Option.map_eq_some_iff.mp h
    rw [← hturn]
    exact (afterStart_rests.after (settleTick_settles htick)).toTurn
  | reconciling runId status pc => exact (resumeReconciling_rests h).toTurn
  | resuming runId =>
    simp only [resumeLane] at h
    split at h
    · exact Option.some.inj h ▸ Rests.toTurn ⟨ControllerState.settles_parkLane, rfl⟩
    · cases h
  | waiting runId =>
    simp only [resumeLane] at h
    split at h
    · split_ifs at h
      exact Option.some.inj h ▸ resumeWaiting_rests.toTurn
    · cases h
  | readingUsage outcome =>
    simp only [resumeLane] at h
    split at h
    · exact Option.some.inj h ▸ finishDelivery_rests.toTurn
    · exact Option.some.inj h ▸ finishDelivery_rests.toTurn
    · cases h

/-! ## Turns of the other tasks -/

theorem settleDelivery_rests {pc : SettlePc}
    (h : settleDelivery delivery sessionId outcome pc answer s = some turn) : Rests s turn := by
  obtain ⟨t, htick, hturn⟩ := Option.map_eq_some_iff.mp h
  have hreceipts : Rests t (settleDeliveryReceipts delivery sessionId outcome t) := by
    unfold settleDeliveryReceipts
    split_ifs <;> exact ⟨.refl t, rfl⟩
  rw [← hturn]
  refine .after (settleTick_settles htick) ?_
  cases pc with
  | outcomes =>
    dsimp only
    split_ifs
    · exact hreceipts
    · exact ⟨.refl t, rfl⟩
  | botReceipts => exact hreceipts
  | deliveryReceipts => exact ⟨.refl t, rfl⟩

theorem settleSidecar_settles : s.Settles (settleSidecar nowMs delivery target outcome s).state :=
  ControllerState.settles_rememberDelivery.trans ControllerState.settles_releaseSidecar

theorem failSidecar_settles : s.Settles (failSidecar nowMs delivery target message s).state :=
  ControllerState.settles_recordError.trans settleSidecar_settles

theorem requeueSidecar_settles : s.Settles (requeueSidecar nowMs delivery target s).state :=
  ControllerState.settles_requeueFront.trans ControllerState.settles_releaseSidecar

/-- A sidecar changes no lane. -/
theorem resumeSidecar_rests {pc : SidecarPc}
    (h : resumeSidecar nowMs delivery target pc answer s = some turn) : Rests s turn := by
  unfold resumeSidecar at h
  split at h
  · split_ifs at h <;> obtain rfl := Option.some.inj h
    · exact ⟨ControllerState.settles_releaseSidecar, rfl⟩
    · exact ⟨.refl s, rfl⟩
    · exact ⟨.refl s, rfl⟩
  · obtain rfl := Option.some.inj h
    exact ⟨settleSidecar_settles, rfl⟩
  · obtain rfl := Option.some.inj h
    exact ⟨.refl s, rfl⟩
  · obtain rfl := Option.some.inj h
    exact ⟨requeueSidecar_settles, rfl⟩
  · obtain rfl := Option.some.inj h
    exact ⟨requeueSidecar_settles, rfl⟩
  · obtain rfl := Option.some.inj h
    exact ⟨failSidecar_settles, rfl⟩
  · obtain rfl := Option.some.inj h
    exact ⟨settleSidecar_settles, rfl⟩
  · obtain rfl := Option.some.inj h
    exact ⟨requeueSidecar_settles, rfl⟩
  · obtain rfl := Option.some.inj h
    exact ⟨failSidecar_settles, rfl⟩
  · obtain rfl := Option.some.inj h
    exact ⟨failSidecar_settles, rfl⟩
  · obtain rfl := Option.some.inj h
    exact ⟨failSidecar_settles, rfl⟩
  · cases h

theorem resumeInvocation_rests {pending : PendingInvocation} {pc : InvocationPc}
    (h : resumeInvocation pending pc answer s = some turn) : Rests s turn := by
  unfold resumeInvocation at h
  split at h
  · split at h <;> obtain rfl := Option.some.inj h
    · exact ⟨ControllerState.settles_recordError, rfl⟩
    · exact ⟨.refl s, rfl⟩
  · obtain rfl := Option.some.inj h
    exact ⟨.refl s, rfl⟩
  · obtain rfl := Option.some.inj h
    exact ⟨ControllerState.settles_recordError, rfl⟩
  · obtain rfl := Option.some.inj h
    exact ⟨ControllerState.settles_recordError, rfl⟩
  · obtain rfl := Option.some.inj h
    exact ⟨ControllerState.settles_tickLane, rfl⟩
  · obtain rfl := Option.some.inj h
    exact ⟨ControllerState.settles_recordError.trans ControllerState.settles_tickLane, rfl⟩
  · cases h

/-- Every turn of a task. -/
theorem resume_rests {task : Task} (h : task.resume sha256Hex nowMs answer s = some turn) :
    TurnRests s turn := by
  cases task with
  | lane delivery target pc => exact resumeLane_rests h
  | sidecar delivery target pc => exact (resumeSidecar_rests h).toTurn
  | settling delivery sessionId outcome pc => exact (settleDelivery_rests h).toTurn
  | invocation pending pc => exact (resumeInvocation_rests h).toTurn

end

end Lightspeed.Bots
