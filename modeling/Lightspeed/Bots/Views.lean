import Lightspeed.Bots.Board

/-!
# What the controller's functions do to its view

Each function of the controller's state, as a change of what the board shows. Most change nothing
there.
-/

namespace Lightspeed.Bots

open Lib Harness

/-! ## The table of lanes -/

namespace LaneMap

variable {m : LaneMap} {lane : ActiveLane} {key : String} {f : ActiveLane → ActiveLane}

theorem mem_holds {l : Hold} :
    l ∈ m.holds ↔ ∃ key lane, m.get? key = some lane ∧ laneHold (key, lane) = l := by
  simp only [holds, Multiset.mem_coe, List.mem_map, Prod.exists]
  constructor
  · rintro ⟨key, lane, hmem, rfl⟩
    exact ⟨key, lane, OrdMap.get?_eq_some_iff.mpr hmem, rfl⟩
  · rintro ⟨key, lane, hget, rfl⟩
    exact ⟨key, lane, OrdMap.get?_eq_some_iff.mp hget, rfl⟩

/-- A session without a lane is no lane's target. -/
theorem target_ne_of_get?_eq_none (h : m.get? key = none) : ∀ l ∈ m.holds, l.target ≠ key := by
  intro l hl heq
  obtain ⟨key', lane, hget, rfl⟩ := mem_holds.mp hl
  rw [show key' = key from heq, h] at hget
  cases hget

/-- Whether a session has a lane. -/
theorem mem_targets_iff : key ∈ m.holds.map Hold.target ↔ (m.get? key).isSome = true := by
  rw [Multiset.mem_map, Option.isSome_iff_exists]
  constructor
  · rintro ⟨l, hl, rfl⟩
    obtain ⟨key', lane, hget, rfl⟩ := mem_holds.mp hl
    exact ⟨lane, hget⟩
  · rintro ⟨lane, hget⟩
    exact ⟨_, mem_holds.mpr ⟨key, lane, hget, rfl⟩, rfl⟩

theorem holds_erase (m : LaneMap) (key : String) :
    (m.erase key).holds = m.holds.filter fun l => l.target ≠ key := by
  simp only [holds, erase, OrdMap.erase, OrdMap.filter, Multiset.filter_coe, List.filter_map]
  rfl

theorem holds_insert (m : LaneMap) (lane : ActiveLane) :
    (m.insert lane).holds =
      laneHold (lane.sessionId, lane) ::ₘ m.holds.filter fun l => l.target ≠ lane.sessionId := by
  rw [← holds_erase]
  exact Multiset.coe_eq_coe.mpr ((m.lanes.entries_insert_perm lane.sessionId lane).map laneHold)

/-- A session's lane is the only one there. -/
theorem holds_of_get? (h : m.get? key = some lane) :
    m.holds = laneHold (key, lane) ::ₘ m.holds.filter fun l => l.target ≠ key := by
  rw [← holds_erase]
  exact Multiset.coe_eq_coe.mpr ((OrdMap.entries_perm_of_get? h).map laneHold)

theorem holds_mapValues {hf : ∀ lane, (f lane).sessionId = lane.sessionId} {g : Hold → Hold}
    (hg : ∀ key lane, laneHold (key, f lane) = g (laneHold (key, lane))) :
    (m.mapValues f hf).holds = m.holds.map g := by
  simp only [holds, mapValues, OrdMap.mapValues, Multiset.map_coe, List.map_map]
  refine congrArg _ (List.map_congr_left fun entry _ => ?_)
  exact hg entry.1 entry.2

theorem holds_modify {hf : ∀ lane, (f lane).sessionId = lane.sessionId} {g : Hold → Hold}
    (hg : ∀ key lane, laneHold (key, f lane) = g (laneHold (key, lane))) :
    (m.modify key f hf).holds = m.holds.map fun l => if l.target = key then g l else l := by
  simp only [holds, modify, OrdMap.modify, OrdMap.mapValues, Multiset.map_coe, List.map_map]
  refine congrArg _ (List.map_congr_left fun entry _ => ?_)
  show laneHold (entry.1, if entry.1 = key then f entry.2 else entry.2) =
    if entry.1 = key then g (laneHold entry) else laneHold entry
  split_ifs
  · exact hg entry.1 entry.2
  · rfl

/-- What only adds to a lane's report of its run does not show. -/
theorem holds_modify_eq {hf : ∀ lane, (f lane).sessionId = lane.sessionId}
    (hg : ∀ key lane, laneHold (key, f lane) = laneHold (key, lane)) :
    (m.modify key f hf).holds = m.holds := by
  rw [holds_modify (g := id) hg]
  simp

end LaneMap

namespace ControllerState

variable {s t : ControllerState} {sessionId target message : String} {delivery : BotDelivery}
  {nowMs : Int}

/-! ## What does not show -/

@[simp] theorem view_recordError : (s.recordError message).view = s.view := rfl

@[simp] theorem view_tickLane : s.tickLane.view = s.view := rfl

@[simp] theorem view_bumpRoutedGeneration {base : String} :
    (s.bumpRoutedGeneration base).view = s.view := rfl

@[simp] theorem view_touchSession : (s.touchSession sessionId nowMs).view = s.view := rfl

@[simp] theorem view_forgetRoutedSession (s : ControllerState) (sessionId : String) :
    (s.forgetRoutedSession sessionId).view = s.view := by
  unfold forgetRoutedSession
  dsimp only
  split_ifs <;> rfl

@[simp] theorem view_rememberDelivery {recent : BotRecentDelivery} :
    (s.rememberDelivery recent).view = s.view := by
  unfold rememberDelivery view mainView
  rfl

@[simp] theorem view_releaseSidecar : (s.releaseSidecar sessionId nowMs).view = s.view := rfl

@[simp] theorem view_requestRotation : (s.requestRotation sessionId).view = s.view := by
  unfold requestRotation
  split_ifs <;> rfl

theorem view_observeRoutedSession {routed : RoutedSession}
    (h : s.observeRoutedSession sessionId routed nowMs = some t) : t.view = s.view := by
  by_cases hknown : (s.extraSession sessionId).isNone = true
  · rw [observeRoutedSession, if_pos hknown] at h
    cases h
  · rw [observeRoutedSession, if_neg hknown] at h
    rw [← Option.some.inj h]
    rfl

theorem view_takeDeadSessionSweep : (s.takeDeadSessionSweep nowMs).1.view = s.view := by
  unfold takeDeadSessionSweep
  split_ifs <;> rfl

theorem view_classify (s : ControllerState) (envelope : EmissionEnvelope) :
    (s.classify envelope).1.view = s.view := by
  unfold classify
  dsimp only
  split_ifs
  · rfl
  · split
    · split_ifs <;> rfl
    · rfl

/-- What the lanes do not show does not show. -/
theorem view_lanes {m : LaneMap} (h : m.holds = s.activeBySession.holds) :
    ({ s with activeBySession := m } : ControllerState).view = s.view := by
  unfold view
  dsimp only
  rw [h]
  rfl

/-- What only adds to a lane's report of its run does not show. -/
theorem view_modifyLane {hf : ∀ lane, (f lane).sessionId = lane.sessionId}
    (hg : ∀ key lane, laneHold (key, f lane) = laneHold (key, lane)) :
    (s.modifyLane sessionId f hf).view = s.view :=
  view_lanes (LaneMap.holds_modify_eq hg)

@[simp] theorem view_setLaneResolution {resolution : LaneResolution} :
    (s.setLaneResolution sessionId resolution).view = s.view :=
  view_modifyLane fun _ _ => rfl

@[simp] theorem view_attachTerminal {sha256Hex : String → String} {token : String}
    {terminal : LaneTerminal} : (s.attachTerminal sha256Hex token terminal).view = s.view := by
  unfold attachTerminal
  dsimp only
  have hlanes : ∀ f : ActiveLane → ActiveLane, (hf : ∀ lane, (f lane).sessionId = lane.sessionId) →
      (∀ key lane, laneHold (key, f lane) = laneHold (key, lane)) →
        ({ s with activeBySession := s.activeBySession.mapValues f hf } : ControllerState).view =
          s.view := by
    intro f hf hg
    have hholds : (s.activeBySession.mapValues f hf).holds = s.activeBySession.holds := by
      rw [LaneMap.holds_mapValues (g := id) hg, Multiset.map_id]
    exact view_lanes hholds
  split_ifs
  · rw [view_tickLane]
    refine hlanes _ _ fun key lane => ?_
    split <;> rfl
  · refine hlanes _ _ fun key lane => ?_
    split <;> rfl

theorem view_failLaneOnDeadSession (h : s.failLaneOnDeadSession sessionId message = some t) :
    t.view = s.view := by
  unfold failLaneOnDeadSession at h
  split at h
  · rw [← Option.some.inj h, view_tickLane]
    exact view_modifyLane fun _ _ => rfl
  · cases h

/-! ## The main session -/

theorem view_rotateMainSession_true :
    (s.rotateMainSession true).view = { s.view with main := s.view.main.rolled } := rfl

theorem view_rotateMainForReconcile (h : s.rotateMainForReconcile = some t) :
    t.view = { s.view with main := s.view.main.rotated } := by
  unfold rotateMainForReconcile at h
  split_ifs at h
  rw [← Option.some.inj h]
  rfl

/-- A dead session that is left behind shows when it is the main one. -/
theorem view_rollSessionForward (s : ControllerState) (sessionId : String) :
    (s.rollSessionForward sessionId).view = s.view ∨
      (s.rollSessionForward sessionId).view = { s.view with main := s.view.main.rolled } := by
  unfold rollSessionForward
  dsimp only
  split_ifs
  · exact .inr rfl
  · exact .inl rfl

/-- A configuration is accepted for the same bot only. -/
theorem view_acceptConfig {next : BotControllerConfig} (h : s.acceptConfig next = .ok t) :
    t.view = { s.view with main := s.view.main.configured next } ∧ next.botId = s.config.botId := by
  unfold acceptConfig at h
  split_ifs at h with hid
  rw [← Except.ok.inj h]
  refine ⟨rfl, ?_⟩
  simp only [Bool.or_eq_true, bne_iff_ne, ne_eq, not_or, not_not] at hid
  exact hid.2

/-! ## The queue and the lanes -/

theorem view_rollBudgetDay : (s.rollBudgetDay nowMs).view = s.view.roll nowMs := by
  unfold rollBudgetDay View.roll
  have hday : s.view.runDay = s.runDay := rfl
  rw [hday]
  split_ifs <;> rfl

theorem view_removeLane : (s.removeLane target).view = s.view.free target := by
  unfold removeLane view View.free
  rw [LaneMap.holds_erase]
  rfl

theorem view_requeueFront {notBeforeMs : Int} :
    (s.requeueFront delivery notBeforeMs).view =
      s.view.requeue { delivery with notBeforeMs := some notBeforeMs } := rfl

theorem view_requeueLane {notBeforeMs : Int} :
    (s.requeueLane target delivery notBeforeMs).view =
      (s.view.free target).requeue { delivery with notBeforeMs := some notBeforeMs } := by
  rw [requeueLane, view_tickLane, view_requeueFront, view_removeLane]

theorem view_releaseLane : (s.releaseLane sessionId nowMs).view = s.view.free sessionId := by
  unfold releaseLane
  rw [← view_removeLane]
  dsimp only
  split_ifs <;> rfl

theorem view_rekeyLane (s : ControllerState) (source target : String) :
    (s.rekeyLane source target).view = s.view.rekey source target := by
  unfold rekeyLane View.rekey
  have hmem : source ∈ s.view.lanes.map Hold.target ↔
      (s.activeBySession.get? source).isSome = true := LaneMap.mem_targets_iff
  split
  next hnone => rw [if_neg (by simp [hmem, hnone])]
  next lane hlane =>
    rw [if_pos (by simp [hmem, hlane])]
    have hsource : s.view.lanes.filter (fun l => l.target = source) = {laneHold (source, lane)} := by
      show s.activeBySession.holds.filter _ = _
      rw [LaneMap.holds_of_get? hlane, Multiset.filter_cons_of_pos (p := fun l : Hold => l.target = source) _ rfl,
        Multiset.filter_filter]
      simp
    have hlanes : ((s.activeBySession.erase source).insert { lane with sessionId := target }).holds =
        laneHold (target, { lane with sessionId := target }) ::ₘ
          s.activeBySession.holds.filter fun l => l.target ≠ source ∧ l.target ≠ target := by
      rw [LaneMap.holds_insert, LaneMap.holds_erase, Multiset.filter_filter]
      simp only [and_comm]
    rw [hsource, Multiset.map_singleton, Multiset.singleton_add]
    unfold view
    rw [hlanes]
    rfl

theorem view_parkLane :
    (s.parkLane sessionId).view = s.view.mark sessionId fun l => { l with parked := true } := by
  unfold parkLane modifyLane view View.mark
  rw [LaneMap.holds_modify (g := fun l => { l with parked := true }) fun _ _ => rfl]
  rfl

theorem view_markLaneStarted (s : ControllerState) (sessionId runId : String) (nowMs : Int) :
    (s.markLaneStarted sessionId runId nowMs).view =
      let v := (s.view.mark sessionId fun l => { l with started := true }).roll nowMs
      { v with runsToday := v.runsToday + 1 } := by
  have hmark : (s.modifyLane sessionId fun lane => { lane with runId := some runId }).view =
      s.view.mark sessionId fun l => { l with started := true } := by
    unfold modifyLane view View.mark
    rw [LaneMap.holds_modify (g := fun l => { l with started := true }) fun _ _ => rfl]
    rfl
  have hcount : ∀ t : ControllerState, ({ t with runsToday := t.runsToday + 1 }.tickLane).view =
      { t.view with runsToday := t.view.runsToday + 1 } := fun _ => rfl
  unfold markLaneStarted
  dsimp only
  rw [hcount, view_rollBudgetDay, ← hmark]
  rfl

/-- A delivery that takes the lane of a free session. -/
theorem view_takeLane (h : s.activeBySession.get? target = none) :
    (s.takeLane delivery target nowMs).view =
      { s.view with lanes := ⟨delivery, target, false, false⟩ ::ₘ s.view.lanes } := by
  have hall : s.activeBySession.holds.filter (fun l => l.target ≠ target) =
      s.activeBySession.holds :=
    Multiset.filter_eq_self.mpr (LaneMap.target_ne_of_get?_eq_none h)
  have hlanes : (s.activeBySession.insert { delivery, sessionId := target, startedAtMs := nowMs }).holds
      = ⟨delivery, target, false, false⟩ ::ₘ s.activeBySession.holds := by
    rw [LaneMap.holds_insert]
    show laneHold _ ::ₘ s.activeBySession.holds.filter (fun l => l.target ≠ target) = _
    rw [hall]
    rfl
  unfold takeLane view
  rw [hlanes]
  rfl

/-- The lanes that are about to start a run, as the view shows them. -/
theorem view_pendingStarts : s.view.pendingStarts = s.activeBySession.values.countP pendingStart := by
  have hcount : s.view.pendingStarts = (s.activeBySession.lanes.entries.map laneHold).countP
      fun l => decide (l.started = false ∧ l.delivery.whenBusy ≠ .append) := Multiset.coe_countP ..
  rw [hcount, List.countP_map, LaneMap.values, OrdMap.values, List.countP_map]
  refine List.countP_congr fun entry _ => ?_
  simp only [Function.comp_apply, laneHold, pendingStart, decide_eq_true_eq, Bool.and_eq_true,
    Option.isSome_eq_false_iff, bne_iff_ne]

end ControllerState

end Lightspeed.Bots
