import Lightspeed.Bots.Views

/-!
# What crosses into the next execution

The dedupe memories are carried as they are, and the lanes without what their runs reported: a lane is
inherited when it has a run, and it waits for nothing but that run's end.
-/

namespace Lightspeed.Bots

open Lib Harness ControllerState

/-! ## Dedupe memories -/

namespace SeenIds

variable {cap : Nat}

theorem insert_order {seen : SeenIds cap} {id : String} (hid : id ∉ seen.order)
    (hlen : seen.order.length + 1 ≤ cap) : (seen.insert id).2.order = seen.order ++ [id] := by
  have hinsert : seen.insert id = (true, seen.push id hid) := dif_neg hid
  have hdrop : seen.order.length + 1 - cap = 0 := by omega
  rw [hinsert]
  show (seen.order ++ [id]).drop (seen.order.length + 1 - cap) = seen.order ++ [id]
  rw [hdrop, List.drop_zero]

theorem foldl_insert_order (ids : List String) (seen : SeenIds cap)
    (hnodup : (seen.order ++ ids).Nodup) (hlen : (seen.order ++ ids).length ≤ cap) :
    (ids.foldl (fun seen id => (seen.insert id).2) seen).order = seen.order ++ ids := by
  induction ids generalizing seen with
  | nil => simp
  | cons id rest ih =>
    have hid : id ∉ seen.order := by
      intro hmem
      exact (List.nodup_append.mp hnodup).2.2 id hmem id List.mem_cons_self rfl
    have hlen' : seen.order.length + 1 ≤ cap := by
      rw [List.length_append, List.length_cons] at hlen
      omega
    have horder := insert_order hid hlen'
    have hsplit : seen.order ++ id :: rest = (seen.insert id).2.order ++ rest := by
      rw [horder, List.append_assoc, List.singleton_append]
    rw [hsplit] at hnodup hlen ⊢
    exact ih _ hnodup hlen

/-- A memory that fits is read back as it is. -/
theorem fromIds_order {ids : List String} (hnodup : ids.Nodup) (hlen : ids.length ≤ cap) :
    (fromIds ids : SeenIds cap).order = ids := foldl_insert_order ids empty hnodup hlen

theorem ext_order {a b : SeenIds cap} (h : a.order = b.order) : a = b := by
  calc a = ⟨a.order, a.nodup, a.le_cap⟩ := rfl
    _ = b := by simp only [h]

/-- What a memory hands on, in order, is the memory. -/
theorem fromIds_tail (seen : SeenIds cap) : fromIds seen.tail = seen :=
  ext_order (fromIds_order seen.nodup seen.le_cap)

end SeenIds

/-! ## Lanes -/

namespace LaneMap

/-- A lane as the next execution has it. -/
def inherit (lane : ActiveLane) : ActiveLane :=
  { delivery := lane.delivery, sessionId := lane.sessionId, runId := lane.runId
    startedAtMs := lane.startedAtMs, parked := true }

/-- The lanes that the next execution has. -/
def inherited (m : LaneMap) : LaneMap where
  lanes := (m.lanes.filter fun _ lane => lane.runId.isSome).mapValues fun _ lane => inherit lane
  keyed key lane h := by
    rw [OrdMap.get?_mapValues, Option.map_eq_some_iff] at h
    obtain ⟨old, hold, rfl⟩ := h
    rw [OrdMap.get?_filter, Option.filter_eq_some_iff] at hold
    exact m.keyed key old hold.1

variable {m : LaneMap} {key : String}

theorem ext_get? {m m' : LaneMap} (h : ∀ key, m.get? key = m'.get? key) : m = m' := by
  have hlanes : m.lanes = m'.lanes := OrdMap.ext_get? h
  calc m = ⟨m.lanes, m.keyed⟩ := rfl
    _ = m' := by simp only [hlanes]

/-- The lanes of a list, each under the id of its session. -/
theorem get?_foldl_insert (lanes : List ActiveLane) (acc : LaneMap)
    (hnodup : (lanes.map (·.sessionId)).Nodup) (key : String) :
    (lanes.foldl insert acc).get? key =
      (lanes.find? fun lane => lane.sessionId = key).or (acc.get? key) := by
  induction lanes generalizing acc with
  | nil => rfl
  | cons lane rest ih =>
    obtain ⟨hlane, hrest⟩ := List.nodup_cons.mp hnodup
    have hinsert : (acc.insert lane).get? key =
        if lane.sessionId = key then some lane else acc.get? key := OrdMap.get?_insert ..
    rw [List.foldl_cons, ih _ hrest, hinsert, List.find?_cons]
    by_cases hkey : lane.sessionId = key
    · have hnone : rest.find? (fun lane => lane.sessionId = key) = none := by
        rw [List.find?_eq_none]
        intro other hother heq
        have heq : other.sessionId = key := by simpa using heq
        have hmem : other.sessionId ∈ rest.map (·.sessionId) := List.mem_map_of_mem hother
        rw [heq, ← hkey] at hmem
        exact hlane hmem
      simp [hkey, hnone]
    · simp [hkey]

theorem values_sessionId (m : LaneMap) : m.values.map (·.sessionId) = m.lanes.keys := by
  unfold values OrdMap.values OrdMap.keys
  rw [List.map_map]
  refine List.map_congr_left fun entry hmem => ?_
  exact m.keyed entry.1 entry.2 (OrdMap.get?_eq_some_iff.mpr hmem)

/-- A table is what its lanes make. -/
theorem ofList_values (m : LaneMap) : ofList m.values = m := by
  have hnodup : (m.values.map (·.sessionId)).Nodup := m.values_sessionId ▸ m.lanes.keys_nodup
  refine ext_get? fun key => ?_
  rw [ofList, get?_foldl_insert _ _ hnodup]
  have hempty : LaneMap.get? empty key = none := rfl
  rw [hempty, Option.or_none]
  cases hget : m.get? key with
  | none =>
    rw [List.find?_eq_none]
    intro lane hlane heq
    obtain ⟨key', hkey'⟩ := OrdMap.mem_values.mp hlane
    have heq : lane.sessionId = key := by simpa using heq
    have hget' : m.get? key = some lane := by rwa [← heq, m.keyed key' lane hkey']
    rw [hget] at hget'
    cases hget'
  | some lane =>
    have hlane : lane ∈ m.values := OrdMap.mem_values.mpr ⟨key, hget⟩
    have hid : lane.sessionId = key := m.keyed key lane hget
    obtain ⟨found, hfound⟩ := Option.isSome_iff_exists.mp
      (List.find?_isSome (p := fun lane : ActiveLane => decide (lane.sessionId = key)).mpr
        ⟨lane, hlane, by simpa using hid⟩)
    have hsame : found.sessionId = key := by simpa using List.find?_some hfound
    obtain ⟨key', hkey'⟩ := OrdMap.mem_values.mp (List.mem_of_find?_eq_some hfound)
    have hget' : m.get? key = some found := by rwa [← hsame, m.keyed key' found hkey']
    rw [hfound, ← hget, hget']

theorem values_inherited (m : LaneMap) :
    m.inherited.values = (m.values.filter fun lane => lane.runId.isSome).map inherit := by
  unfold inherited values OrdMap.values OrdMap.mapValues OrdMap.filter
  rw [List.map_map, List.filter_map, List.map_map]
  rfl

end LaneMap

/-- A lane as it is handed on. -/
def waitingOf (lane : ActiveLane) : Option WaitingLane :=
  lane.runId.map fun runId =>
    { delivery := lane.delivery, sessionId := lane.sessionId, runId, startedAtMs := lane.startedAtMs }

theorem waitingOf_none {lane : ActiveLane} (h : lane.runId = none) : waitingOf lane = none := by
  rw [waitingOf, h]
  rfl

theorem waitingOf_some {lane : ActiveLane} {runId : String} (h : lane.runId = some runId) :
    waitingOf lane = some {
      delivery := lane.delivery, sessionId := lane.sessionId, runId
      startedAtMs := lane.startedAtMs } := by
  rw [waitingOf, h]
  rfl

/-- What a lane hands on, and what the next execution makes of it. -/
theorem waitingLanes_inheritedLane (s : ControllerState) :
    s.waitingLanes.map inheritedLane = s.activeBySession.inherited.values := by
  have hlanes : ∀ lanes : List ActiveLane, (lanes.filterMap waitingOf).map inheritedLane =
      (lanes.filter fun lane => lane.runId.isSome).map LaneMap.inherit := by
    intro lanes
    induction lanes with
    | nil => rfl
    | cons lane rest ih =>
      cases hrun : lane.runId with
      | none =>
        rw [List.filterMap_cons_none (waitingOf_none hrun), List.filter_cons_of_neg (by simp [hrun])]
        exact ih
      | some runId =>
        rw [List.filterMap_cons_some (waitingOf_some hrun), List.filter_cons_of_pos (by simp [hrun]),
          List.map_cons, List.map_cons, ih]
        unfold inheritedLane LaneMap.inherit
        rw [hrun]
  rw [LaneMap.values_inherited]
  exact hlanes s.activeBySession.values

section

variable {s : ControllerState} {nowMs : Int}

/-- The state that the next execution starts from. -/
def renewed (s : ControllerState) (nowMs : Int) : ControllerState :=
  .new { config := s.config, carry := some s.carry } nowMs

theorem activeBySession_renewed : (renewed s nowMs).activeBySession = s.activeBySession.inherited := by
  show LaneMap.ofList (s.waitingLanes.map inheritedLane) = _
  rw [waitingLanes_inheritedLane, LaneMap.ofList_values]

theorem seenEventIds_renewed (h : s.seenEventIds.order ≠ []) :
    (renewed s nowMs).seenEventIds = s.seenEventIds := by
  have hcarry : s.seenEventIds.tail.isEmpty = false := by
    simpa [SeenIds.tail] using h
  show (if s.seenEventIds.tail.isEmpty then _ else SeenIds.fromIds s.seenEventIds.tail) = _
  rw [hcarry]
  exact s.seenEventIds.fromIds_tail

/-- What a quiet table shows of the lanes that are inherited. -/
theorem holds_inherited {m : LaneMap} (hparked : ∀ lane ∈ m.values, lane.parked = true) :
    m.inherited.holds = m.holds.filter fun l => l.started = true := by
  have hfilter : m.lanes.entries.filter ((fun l : Hold => decide (l.started = true)) ∘ laneHold) =
      m.lanes.entries.filter fun entry => entry.2.runId.isSome :=
    List.filter_congr fun entry _ => by simp [laneHold]
  unfold LaneMap.inherited LaneMap.holds OrdMap.mapValues OrdMap.filter
  rw [Multiset.filter_coe, List.filter_map, hfilter, List.map_map]
  refine congrArg _ (List.map_congr_left fun entry hmem => ?_)
  have hlane : entry.2.parked = true :=
    hparked entry.2 (List.mem_map_of_mem (List.mem_of_mem_filter hmem))
  unfold laneHold LaneMap.inherit
  simp only [Function.comp_apply, hlane]

/-- What the tasks of the next execution hold. -/
theorem holdsOf_resumed (s : ControllerState)
    (hlanes : ∀ lane ∈ s.activeBySession.values, lane.runId.isSome = true ∧ lane.parked = true) :
    holdsOf (s.waitingLanes.map System.resumedTask) = s.activeBySession.holds := by
  have hentries : ∀ entries : List (String × ActiveLane),
      (∀ entry ∈ entries, entry.2.sessionId = entry.1 ∧ entry.2.runId.isSome = true ∧
        entry.2.parked = true) →
      holdsOf (((entries.map Prod.snd).filterMap waitingOf).map System.resumedTask) =
        (entries.map laneHold : List Hold) := by
    intro entries hall
    induction entries with
    | nil => rfl
    | cons entry rest ih =>
      obtain ⟨hkey, hrun, hparked⟩ := hall entry List.mem_cons_self
      have hrest := ih fun other hmem => hall other (List.mem_cons_of_mem _ hmem)
      obtain ⟨runId, hrunId⟩ := Option.isSome_iff_exists.mp hrun
      have hfirst : Task.holds (System.resumedTask {
          delivery := entry.2.delivery, sessionId := entry.2.sessionId, runId
          startedAtMs := entry.2.startedAtMs }) = {laneHold entry} := by
        unfold System.resumedTask Task.holds laneHold
        rw [hkey, hrun, hparked]
        rfl
      rw [List.map_cons, List.filterMap_cons_some (waitingOf_some hrunId), List.map_cons, holdsOf,
        List.map_cons, List.sum_cons, hfirst, List.map_cons, ← Multiset.cons_coe, ← hrest]
      rfl
  refine hentries s.activeBySession.lanes.entries fun entry hmem => ?_
  refine ⟨s.activeBySession.keyed entry.1 entry.2 (OrdMap.get?_eq_some_iff.mpr hmem), ?_⟩
  exact hlanes entry.2 (List.mem_map_of_mem hmem)

theorem asidesOf_resumed (lanes : List WaitingLane) :
    asidesOf (lanes.map System.resumedTask) = 0 := by
  induction lanes with
  | nil => rfl
  | cons lane rest ih => exact (zero_add _).trans ih

/-- Every lane of the next execution has a run, and waits for its end. -/
theorem lanes_renewed : ∀ lane ∈ (renewed s nowMs).activeBySession.values,
    lane.runId.isSome = true ∧ lane.parked = true := by
  rw [activeBySession_renewed, LaneMap.values_inherited]
  intro lane hmem
  obtain ⟨old, hold, rfl⟩ := List.mem_map.mp hmem
  exact ⟨(List.mem_filter.mp hold).2, rfl⟩

/-- What the next execution shows. -/
theorem view_renewed (hparked : ∀ lane ∈ s.activeBySession.values, lane.parked = true) :
    (renewed s nowMs).view = { s.view with
      main := { s.view.main with
        configDirty := (renewed s nowMs).configDirty
        mainGeneration := max s.view.main.mainGeneration 1 }
      seen := (renewed s nowMs).view.seen
      lanes := s.view.lanes.filter fun l => l.started = true } := by
  have hlanes : (renewed s nowMs).activeBySession.holds =
      s.view.lanes.filter fun l => l.started = true := by
    rw [activeBySession_renewed]
    exact holds_inherited hparked
  rw [← hlanes]
  rfl

end

end Lightspeed.Bots
