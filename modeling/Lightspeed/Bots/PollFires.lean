import Lightspeed.Bots.Watermark
import Lightspeed.Lib.Lists
import Lightspeed.Lib.Machine
import Lightspeed.Lib.Recent

/-!
# Fires of one trigger

A trigger fires again and again, each time failing or polling a payload, and each fire starts from the
cursor that the last one stored. A cursor of ids remembers the newest ones that were stored in it.
-/

namespace Lightspeed.Bots

open Lib

variable {floatText : F64 → String} {spec : PollCursorSpec} {items : List Value} {nowMs : Int}

/-- A poll that succeeded: its payload, and what was delivered of it. -/
structure Poll where
  items : List Value
  baselined : Bool
  delivered : List PollItem

/-- The stored cursor, and the polls so far. -/
structure PollFires where
  cursor : Option PollCursorState := none
  polls : List Poll := []

inductive PollFire where
  | failed (nowMs : Int)
  | polled (items : List Value) (nowMs : Int)

namespace PollFires

def step (floatText : F64 → String) (spec : PollCursorSpec) (s : PollFires) :
    PollFire → Option PollFires
  | .failed nowMs => some { s with cursor := some (pollFailureState s.cursor nowMs).1 }
  | .polled items nowMs =>
    let diff := diffPollItems floatText items spec s.cursor nowMs
    some
      { cursor := some diff.nextState
        polls := s.polls ++ [⟨items, diff.baselined, diff.newItems⟩] }

end PollFires

/-- The fires of a trigger, from a cursor. -/
def pollFires (floatText : F64 → String) (spec : PollCursorSpec) (cursor : Option PollCursorState) :
    Machine PollFires PollFire where
  init s := s = { cursor }
  step := PollFires.step floatText spec

/-! ## Keys -/

/-- The keys of a payload. -/
def keysOf (floatText : F64 → String) (spec : PollCursorSpec) (items : List Value) : List String :=
  (keyedItems floatText items spec).map (·.key)

/-- The keys that a poll stores in a cursor of ids. -/
def Poll.storedKeys (floatText : F64 → String) (spec : PollCursorSpec) (poll : Poll) : List String :=
  if poll.baselined then keysOf floatText spec poll.items else poll.delivered.map (·.key)

/-- What a fire of a cursor of ids delivers. -/
def freshEntries (floatText : F64 → String) (spec : PollCursorSpec) (items : List Value)
    (state : PollCursorState) : List PollItem :=
  unseenEntries state.ids maxPollItemsPerFire (keyedItems floatText items spec)

/-- The first contact of a cursor of ids. -/
theorem diffPollItems_idSet_none (id : String) :
    diffPollItems floatText items (.idSet id) none nowMs =
      { baselined := true
        newItems := []
        nextState :=
          { ids := dedupeTail (keysOf floatText (.idSet id) items)
            baselinedAtMs := some nowMs, lastPolledAtMs := some nowMs } } := rfl

/-- A later fire of a cursor of ids. -/
theorem diffPollItems_idSet_some (id : String) (state : PollCursorState) :
    diffPollItems floatText items (.idSet id) (some state) nowMs =
      { baselined := false
        newItems := freshEntries floatText (.idSet id) items state
        nextState :=
          { state with
            ids := dedupeTail
              (state.ids ++ (freshEntries floatText (.idSet id) items state).map (·.key))
            consecutiveFailures := 0, lastPolledAtMs := some nowMs } } := rfl

/-- Every key that was stored, in order. -/
def PollFires.history (floatText : F64 → String) (spec : PollCursorSpec) (s : PollFires) :
    List String :=
  s.polls.flatMap (Poll.storedKeys floatText spec)

/-- The keys of the entries that are not seen yet are new, and each stands once. -/
theorem unseenEntries_spec (seen : List String) (room : Nat) (entries : List PollItem) :
    (∀ entry ∈ unseenEntries seen room entries, entry ∈ entries ∧ entry.key ∉ seen) ∧
      ((unseenEntries seen room entries).map (·.key)).Nodup := by
  induction entries generalizing seen room with
  | nil =>
    cases room with
    | zero | succ room => exact ⟨fun _ h => (nomatch h), List.nodup_nil⟩
  | cons entry rest ih =>
    cases room with
    | zero => exact ⟨fun _ h => (nomatch h), List.nodup_nil⟩
    | succ room =>
      rw [unseenEntries]
      split_ifs with hseen
      · obtain ⟨hmem, hnodup⟩ := ih seen (room + 1)
        exact ⟨fun other hother => ⟨List.mem_cons_of_mem _ (hmem other hother).1,
          (hmem other hother).2⟩, hnodup⟩
      · obtain ⟨hmem, hnodup⟩ := ih (entry.key :: seen) room
        refine ⟨List.forall_mem_cons.mpr ⟨⟨List.mem_cons_self, hseen⟩, fun other hother => ?_⟩, ?_⟩
        · exact ⟨List.mem_cons_of_mem _ (hmem other hother).1,
            fun hold => (hmem other hother).2 (List.mem_cons_of_mem _ hold)⟩
        · rw [List.map_cons, List.nodup_cons]
          refine ⟨fun hkey => ?_, hnodup⟩
          obtain ⟨other, hother, hsame⟩ := List.mem_map.mp hkey
          exact (hmem other hother).2 (hsame ▸ List.mem_cons_self)

/-- An id with fewer newer ones than a cursor holds is kept, with no more newer ones. -/
theorem dedupeTail_keeps {ids : List String} {key : String} (hmem : key ∈ ids)
    (hnewer : newer ids key < maxPollCursorIds) :
    key ∈ dedupeTail ids ∧ newer (dedupeTail ids) key ≤ newer ids key := by
  have hdedup := newer_dedup_le hmem
  obtain ⟨hkept, hsame⟩ := mem_drop_of_newer (List.mem_dedup.mpr hmem) (hdedup.trans_lt hnewer)
  exact ⟨hkept, hsame.trans_le hdedup⟩

/-! ## What a cursor of ids remembers -/

/-- A key that was stored is in the cursor, until as many others were stored after it as a cursor
holds. -/
def Remembers (floatText : F64 → String) (spec : PollCursorSpec) (s : PollFires) : Prop :=
  ∀ key ∈ s.history floatText spec, newer (s.history floatText spec) key < maxPollCursorIds →
    ∃ state, s.cursor = some state ∧ key ∈ state.ids ∧
      newer state.ids key ≤ newer (s.history floatText spec) key

theorem remembers_init (cursor : Option PollCursorState) :
    Remembers floatText spec { cursor } := fun _ h => (nomatch h)

/-- A failed fire keeps the watermark. -/
theorem pollFailureState_watermark (cursor : Option PollCursorState) (nowMs : Int) :
    (some (pollFailureState cursor nowMs).1).bind (·.watermark) = cursor.bind (·.watermark) := by
  cases cursor with
  | none => rfl
  | some state => rfl

variable {s t : PollFires} {id : String}

theorem remembers_failed (hs : Remembers floatText spec s)
    (h : s.step floatText spec (.failed nowMs) = some t) : Remembers floatText spec t := by
  obtain rfl := Option.some.inj h
  intro key hkey hnewer
  obtain ⟨state, hcursor, hmem, hle⟩ := hs key hkey hnewer
  refine ⟨_, rfl, ?_⟩
  rw [hcursor]
  exact ⟨hmem, hle⟩

/-- The keys of a list that was stored behind another are remembered with the old ones. -/
theorem keeps_append {old ids fresh : List String} {key : String}
    (hold : key ∈ old → newer old key < maxPollCursorIds → key ∈ ids ∧ newer ids key ≤ newer old key)
    (hmem : key ∈ old ++ fresh) (hnewer : newer (old ++ fresh) key < maxPollCursorIds) :
    key ∈ dedupeTail (ids ++ fresh) ∧
      newer (dedupeTail (ids ++ fresh)) key ≤ newer (old ++ fresh) key := by
  by_cases hfresh : key ∈ fresh
  · have hsame : newer (ids ++ fresh) key = newer (old ++ fresh) key := by
      rw [newer_append_of_mem hfresh, newer_append_of_mem hfresh]
    rw [← hsame] at hnewer ⊢
    exact dedupeTail_keeps (List.mem_append_right _ hfresh) hnewer
  · have hkey : key ∈ old := (List.mem_append.mp hmem).resolve_right hfresh
    rw [newer_append_of_notMem hfresh] at hnewer ⊢
    obtain ⟨hids, hle⟩ := hold hkey (by omega)
    have hbound : newer (ids ++ fresh) key ≤ newer old key + fresh.length := by
      rw [newer_append_of_notMem hfresh]
      omega
    obtain ⟨hkept, hless⟩ := dedupeTail_keeps (List.mem_append_left _ hids) (hbound.trans_lt hnewer)
    exact ⟨hkept, hless.trans hbound⟩

theorem storedKeys_baselined (items : List Value) (delivered : List PollItem) :
    Poll.storedKeys floatText spec ⟨items, true, delivered⟩ = keysOf floatText spec items := rfl

theorem storedKeys_delivered (items : List Value) (delivered : List PollItem) :
    Poll.storedKeys floatText spec ⟨items, false, delivered⟩ = delivered.map (·.key) := rfl

theorem history_polled (cursor : Option PollCursorState) (poll : Poll) :
    PollFires.history floatText spec { cursor, polls := s.polls ++ [poll] } =
      s.history floatText spec ++ poll.storedKeys floatText spec := by
  unfold PollFires.history
  rw [List.flatMap_append, List.flatMap_cons, List.flatMap_nil, List.append_nil]

/-- A poll keeps it, when nothing was stored before the first one. -/
theorem remembers_polled (hs : Remembers floatText (.idSet id) s)
    (hfirst : s.cursor = none → s.polls = [])
    (h : s.step floatText (.idSet id) (.polled items nowMs) = some t) :
    Remembers floatText (.idSet id) t := by
  obtain rfl := Option.some.inj h
  cases hcursor : s.cursor with
  | none =>
    -- The first contact: what is stored is the payload's own keys.
    have hempty : s.history floatText (.idSet id) = [] := by
      unfold PollFires.history
      rw [hfirst hcursor]
      rfl
    rw [diffPollItems_idSet_none]
    intro key hkey hnewer
    rw [history_polled, hempty, List.nil_append, storedKeys_baselined] at hkey hnewer ⊢
    refine ⟨_, rfl, ?_⟩
    dsimp only
    exact dedupeTail_keeps hkey hnewer
  | some state =>
    rw [diffPollItems_idSet_some]
    intro key hkey hnewer
    rw [history_polled, storedKeys_delivered] at hkey hnewer ⊢
    refine ⟨_, rfl, ?_⟩
    dsimp only
    refine keeps_append (fun hold hbefore => ?_) hkey hnewer
    obtain ⟨state', hcursor', hids, hle⟩ := hs key hold hbefore
    rw [hcursor] at hcursor'
    obtain rfl := Option.some.inj hcursor'
    exact ⟨hids, hle⟩

end Lightspeed.Bots
