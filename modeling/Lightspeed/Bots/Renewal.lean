import Lightspeed.Bots.Dedupe

/-!
# Continuing as new

What a successor execution has of what its predecessor owed. Everything that a controller holds crosses in
the carry, lanes without a run apart. A display name that was not yet applied to the sessions does not.
-/

namespace Lightspeed.Bots

open Lib Harness ControllerState

variable {sha256Hex : String → String} {s : ControllerState} {nowMs : Int}

theorem get?_inherited (m : LaneMap) (key : String) :
    m.inherited.get? key = ((m.get? key).filter fun lane => lane.runId.isSome).map LaneMap.inherit := by
  show OrdMap.get? (OrdMap.mapValues _ _) key = _
  rw [OrdMap.get?_mapValues, OrdMap.get?_filter]
  rfl

theorem waitingLanes_renewed : (renewed s nowMs).waitingLanes = s.waitingLanes := by
  have hlanes : ∀ lanes : List ActiveLane,
      ((lanes.filter fun lane => lane.runId.isSome).map LaneMap.inherit).filterMap waitingOf =
        lanes.filterMap waitingOf := by
    intro lanes
    induction lanes with
    | nil => rfl
    | cons lane rest ih =>
      cases hrun : lane.runId with
      | none =>
        rw [List.filterMap_cons_none (waitingOf_none hrun), List.filter_cons_of_neg (by simp [hrun])]
        exact ih
      | some runId =>
        have hinherit : (LaneMap.inherit lane).runId = some runId := hrun
        rw [List.filterMap_cons_some (waitingOf_some hrun), List.filter_cons_of_pos (by simp [hrun]),
          List.map_cons, List.filterMap_cons_some (waitingOf_some hinherit), ih]
        rfl
  show ((renewed s nowMs).activeBySession.values).filterMap waitingOf = _
  rw [activeBySession_renewed, LaneMap.values_inherited]
  exact hlanes s.activeBySession.values

/-- Handing over twice is handing over once. -/
theorem renewed_renewed (s : ControllerState) (nowMs : Int) :
    renewed (renewed s nowMs) nowMs = renewed s nowMs := by
  have hlanes : (renewed s nowMs).carry.waitingLanes = s.carry.waitingLanes := waitingLanes_renewed
  have hmain : max (renewed s nowMs).carry.mainGeneration 1 = max s.carry.mainGeneration 1 :=
    max_eq_left (le_max_right _ _)
  show ControllerState.new { config := s.config, carry := some (renewed s nowMs).carry } nowMs =
    ControllerState.new { config := s.config, carry := some s.carry } nowMs
  unfold ControllerState.new
  dsimp only [Option.getD_some]
  rw [hlanes, hmain]
  congr 1
  · -- A memory that is empty is read from what is pending, and so is it once more.
    have hseen : (renewed s nowMs).seenEventIds = if s.seenEventIds.tail.isEmpty then
      SeenIds.fromIds (s.pendingDeliveries.flatMap BotDelivery.eventIds)
        else SeenIds.fromIds s.seenEventIds.tail := rfl
    show (if (renewed s nowMs).seenEventIds.tail.isEmpty then
      SeenIds.fromIds (s.pendingDeliveries.flatMap BotDelivery.eventIds)
        else SeenIds.fromIds (renewed s nowMs).seenEventIds.tail) = (renewed s nowMs).seenEventIds
    rw [SeenIds.fromIds_tail]
    split_ifs with hempty
    · rw [hseen]
      split_ifs with hold
      · rfl
      · rw [hseen, if_neg hold, SeenIds.fromIds_tail] at hempty
        exact absurd hempty hold
    · rfl
  · exact SeenIds.fromIds_tail _
  · exact SeenIds.fromIds_tail _
  · exact (Bool.or_assoc ..).trans (congrArg _ (Bool.or_self _))

/-- Any number of executions that end as they began hand on what one does. -/
theorem renewals_hand_on (s : ControllerState) (nowMs : Int) (n : Nat) :
    (renewed · nowMs)^[n + 1] s = renewed s nowMs := by
  rw [Function.iterate_succ_apply]
  exact Function.iterate_fixed (renewed_renewed s nowMs) n

/-- What crosses from an execution into the next one. -/
structure CarriedInto (s t : ControllerState) (nowMs : Int) : Prop where
  config : t.config = s.config
  pending : t.pendingDeliveries = s.pendingDeliveries
  buffers : t.buffers = s.buffers
  lanes : ∀ key, (t.activeBySession.get? key).map (fun lane => (lane.delivery, lane.sessionId, lane.runId)) =
    (s.activeBySession.get? key).map fun lane => (lane.delivery, lane.sessionId, lane.runId)
  seenEvents : t.seenEventIds = s.seenEventIds
  seenEmissions : t.seenEmissionIds = s.seenEmissionIds
  handledInvocations : t.handledInvocationIds = s.handledInvocationIds
  sessions : t.extraSessions = s.extraSessions ∧ t.sessionCursors = s.sessionCursors
  generations : t.mainGeneration = s.mainGeneration ∧ t.sessionGenerations = s.sessionGenerations
  rotations : t.rotationRequests = s.rotationRequests
  budget : t.runDay = s.runDay ∧ t.runsToday = s.runsToday ∧ t.descendantsToday = s.descendantsToday ∧
    t.budgetRoots = s.budgetRoots
  reconcile : s.configDirty = true → t.configDirty = true
  rename : s.renameDirty = true → t.renameDirty = true
  watched : (∃ lane ∈ t.activeBySession.values, lane.runId.isSome) →
    t.deadSessionSweepAtMs = some (nowMs + botDeadSessionSweepIntervalMs)
  once : renewed t nowMs = t

/-- The main session has a generation from the start. -/
theorem reaches_mainGeneration {system : System} (h : (System.controller sha256Hex).Reaches system) :
    1 ≤ system.state.mainGeneration := by
  refine reaches_board (P := fun b => 1 ≤ b.view.main.mainGeneration) ?_ ?_ h
  · intro system hinit
    obtain ⟨config, mainGeneration, sessionGenerations, nowMs, rfl⟩ := hinit.eq_start
    exact le_max_right _ _
  · intro a b hmove ha
    cases hmove with
    | rollDay => simpa using ha
    | begin => simpa [View.mark] using ha
    | rollMain | rotateMain => exact Nat.le_succ_of_le ha
    | renew => exact le_max_right _ _
    | _ => exact ha

/-- A quiet controller hands on all that it owes exactly when no rename is owed and every lane has a run, as
every lane has that waits on nothing else while no lane was put in another's place. -/
theorem renewed_carries_iff {system : System} {suggested : Bool} {lanesPolled : Nat}
    (h : (System.controller sha256Hex).Reaches system)
    (hquiet : system.state.canContinueAsNew suggested lanesPolled = true) (nowMs : Int) :
    (CarriedInto system.state (renewed system.state nowMs) nowMs ↔
      system.state.renameDirty = false ∧ ∀ lane ∈ system.state.activeBySession.values, lane.runId.isSome) ∧
    (NoneDisplaced system.log → ∀ lane ∈ system.state.activeBySession.values, lane.runId.isSome) := by
  have hparked : ∀ lane ∈ system.state.activeBySession.values, lane.parked = true := by
    unfold ControllerState.canContinueAsNew at hquiet
    simp only [Bool.and_eq_true, List.all_eq_true] at hquiet
    exact fun lane hlane => (hquiet.1.1.1.1.2 lane hlane).1
  refine ⟨⟨fun hcarried => ⟨?_, fun lane hlane => ?_⟩, fun ⟨hrename, hruns⟩ => ?_⟩, fun hnone lane hlane => ?_⟩
  · exact Bool.eq_false_iff.mpr fun hdirty => nomatch hcarried.rename hdirty
  · obtain ⟨key, hget⟩ := OrdMap.mem_values.mp hlane
    have hsame := hcarried.lanes key
    rw [activeBySession_renewed, get?_inherited] at hsame
    have hget : system.state.activeBySession.get? key = some lane := hget
    rw [hget] at hsame
    cases hrun : lane.runId with
    | none =>
      rw [Option.filter_some_neg (by simp [hrun])] at hsame
      cases hsame
    | some runId => rfl
  · constructor
    case seenEvents => exact (reaches_recalls h).renewed (reaches_traced h)
    case seenEmissions => exact SeenIds.fromIds_tail _
    case handledInvocations => exact SeenIds.fromIds_tail _
    case generations => exact ⟨max_eq_left (reaches_mainGeneration h), rfl⟩
    case reconcile => exact fun hdirty => by show (_ || _) = true; rw [Bool.or_eq_true]; exact .inl hdirty
    case rename => exact fun hdirty => absurd (hrename.symm.trans hdirty) nofun
    case once => exact renewed_renewed _ _
    case lanes =>
      intro key
      rw [activeBySession_renewed, get?_inherited]
      cases hget : system.state.activeBySession.get? key with
      | none => rfl
      | some lane =>
        have hrun := hruns lane (OrdMap.mem_values.mpr ⟨key, hget⟩)
        rw [Option.filter_some_pos (p := fun lane : ActiveLane => lane.runId.isSome) hrun]
        rfl
    case watched =>
      rintro ⟨lane, hlane, hrun⟩
      obtain ⟨runId, hrun⟩ := Option.isSome_iff_exists.mp hrun
      have hmem : _ ∈ (renewed system.state nowMs).waitingLanes :=
        List.mem_filterMap.mpr ⟨lane, hlane, waitingOf_some hrun⟩
      have hsome : system.state.waitingLanes ≠ [] := List.ne_nil_of_mem (waitingLanes_renewed ▸ hmem)
      exact if_neg (mt List.isEmpty_iff.mp hsome)
    all_goals first | rfl | exact ⟨rfl, rfl⟩ | exact ⟨rfl, rfl, rfl, rfl⟩
  · obtain ⟨entry, hentry, rfl⟩ := List.mem_map.mp hlane
    have howned := (reaches_owned_board (P := fun _ => True) (fun _ _ => trivial)
      (fun _ _ _ _ _ _ => trivial) h hnone).1
    have hhold : laneHold entry ∈ system.board.view.lanes :=
      Multiset.mem_coe.mpr (List.mem_map_of_mem hentry)
    exact howned.started _ (howned.lanes ▸ hhold) (hparked _ hlane)

/-- A controller with a display name that it has just applied. -/
theorem renewed_carries_iff_triage : ∃ s, (System.controller id).Reaches s ∧
    s.state.canContinueAsNew true 0 = true ∧ CarriedInto s.state (renewed s.state 0) 0 := by
  obtain ⟨s, hs, hquiet, hrename, hlanes⟩ : ∃ s ∈ (System.controller id).exec triageStart
      (untilEnsuring ++ [.loop (.ensured 1 []), .run false]), s.state.canContinueAsNew true 0 = true ∧
        s.state.renameDirty = false ∧ ∀ lane ∈ s.state.activeBySession.values, lane.runId.isSome := by
    decide +kernel
  have hreach := Machine.exec_reaches triageStart_initial hs
  exact ⟨s, hreach, hquiet, (renewed_carries_iff hreach hquiet 0).1.mpr ⟨hrename, hlanes⟩⟩

/-- A display name that comes while the main session is brought in line is lost with the hand-over. -/
theorem rename_dropped : ∃ s, (System.controller id).Reaches s ∧ s.loop matches .running .renew ∧
    s.state.canContinueAsNew true s.tasks.length = true ∧ s.state.configDirty = false ∧
      ∀ nowMs, ¬ CarriedInto s.state (renewed s.state nowMs) nowMs := by
  obtain ⟨s, hs, hloop, hquiet, hclean, hrename⟩ : ∃ s ∈ (System.controller id).exec triageStart
      (untilEnsuring ++ [.botConfig { triageConfig with displayName := some "new" },
        .loop (.ensured 1 []), .run false]), s.loop matches .running .renew ∧
          s.state.canContinueAsNew true s.tasks.length = true ∧ s.state.configDirty = false ∧
            s.state.renameDirty = true := by decide +kernel
  refine ⟨s, Machine.exec_reaches triageStart_initial hs, hloop, hquiet, hclean, fun nowMs hcarried => ?_⟩
  exact nomatch hcarried.rename hrename

end Lightspeed.Bots
