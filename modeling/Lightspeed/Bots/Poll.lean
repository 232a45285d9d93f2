import Mathlib.Data.List.Dedup
import Lightspeed.Bots.PollItems
import Lightspeed.Lib.WeakOrder

/-!
# Poll fires

One payload's items are compared with the stored cursor. The first contact stores a cursor and delivers
nothing; a later fire delivers what the cursor has not seen, up to a cap, and moves the cursor over what
it delivers.
-/

namespace Lightspeed.Bots

open Lib

/-! ## Cursors -/

/-- Ids kept in a cursor; older ones age out first. -/
def maxPollCursorIds : Nat := 500

/-- New items of one fire; the rest wait for the next. -/
def maxPollItemsPerFire : Nat := 100

/-- Consecutive failed fires before a trigger disables itself. -/
def maxPollConsecutiveFailures : Nat := 10

structure PollCursorState where
  ids : List String := []
  watermark : Option Mark := none
  consecutiveFailures : Nat := 0
  baselinedAtMs : Option Int := none
  lastPolledAtMs : Option Int := none

/-- An item that a fire delivers, with its key. -/
structure PollItem where
  key : String
  item : Value

structure PollDiff where
  /-- First contact: the cursor is initialized, and nothing is delivered. -/
  baselined : Bool
  newItems : List PollItem
  nextState : PollCursorState

/-- The last occurrence of every id, in order, of which the newest are kept. -/
def dedupeTail (ids : List String) : List String :=
  ids.dedup.drop (ids.dedup.length - maxPollCursorIds)

/-- The entries with keys that are not seen yet, each key once, as many as there is room for. -/
def unseenEntries : List String → Nat → List PollItem → List PollItem
  | _, _, [] => []
  | _, 0, _ => []
  | seen, room + 1, entry :: rest =>
    if entry.key ∈ seen then unseenEntries seen (room + 1) rest
    else entry :: unseenEntries (entry.key :: seen) room rest

section

variable (floatText : F64 → String)

/-! ## Diffs -/

def keyedItems (items : List Value) (cursor : PollCursorSpec) : List PollItem :=
  items.filterMap fun item => (pollItemKey floatText item cursor).map fun key => ⟨key, item⟩

def diffIdSet (items : List Value) (cursor : PollCursorSpec) (state : Option PollCursorState)
    (nowMs : Int) : PollDiff :=
  let keyed := keyedItems floatText items cursor
  match state with
  | none =>
    { baselined := true
      newItems := []
      nextState :=
        { ids := dedupeTail (keyed.map (·.key))
          baselinedAtMs := some nowMs, lastPolledAtMs := some nowMs } }
  | some state =>
    let fresh := unseenEntries state.ids maxPollItemsPerFire keyed
    { baselined := false
      newItems := fresh
      nextState :=
        { state with
          ids := dedupeTail (state.ids ++ fresh.map (·.key))
          consecutiveFailures := 0, lastPolledAtMs := some nowMs } }

/-- The items that have a watermark, with it. -/
def markedItems (items : List Value) (field : String) : List (Value × Mark) :=
  items.filterMap fun item => (watermarkValue item field).map fun mark => (item, mark)

/-- The lowest marks first, with the ties at the boundary; the rest come with the next fire. -/
def cutFresh (fresh : List (Value × Mark)) : List (Value × Mark) :=
  if maxPollItemsPerFire < fresh.length then
    let ordered := (fresh.map Prod.snd).mergeSort fun a b => watermarkOrdering floatText a b != .gt
    match ordered[maxPollItemsPerFire - 1]? with
    | some threshold => fresh.filter fun entry => !watermarkAfter floatText entry.2 threshold
    | none => fresh
  else fresh

def diffWatermark (items : List Value) (field : String) (state : Option PollCursorState)
    (nowMs : Int) : PollDiff :=
  let marked := markedItems items field
  match state.bind fun state => state.watermark.map fun mark => (state, mark) with
  | none =>
    { baselined := true
      newItems := []
      nextState :=
        { watermark := highest (watermarkAfter floatText) (marked.map Prod.snd)
          baselinedAtMs := some nowMs, lastPolledAtMs := some nowMs } }
  | some (state, mark) =>
    let fresh := cutFresh floatText
      (itemsAfter (watermarkAfter floatText) Prod.snd mark marked)
    { baselined := false
      newItems := fresh.map fun entry => ⟨watermarkString floatText entry.2, entry.1⟩
      nextState :=
        { state with
          watermark := some ((highest (watermarkAfter floatText) (fresh.map Prod.snd)).getD mark)
          consecutiveFailures := 0, lastPolledAtMs := some nowMs } }

/-- One payload against the cursor. -/
def diffPollItems (items : List Value) (cursor : PollCursorSpec) (state : Option PollCursorState)
    (nowMs : Int) : PollDiff :=
  match cursor with
  | .idSet _ => diffIdSet floatText items cursor state nowMs
  | .watermark field => diffWatermark floatText items field state nowMs

end

/-- The cursor after a failed fire, and whether the trigger is disabled: the streak grows, and everything
else is kept. -/
def pollFailureState (state : Option PollCursorState) (nowMs : Int) : PollCursorState × Bool :=
  let next := state.getD {}
  let next := { next with
    consecutiveFailures := min (next.consecutiveFailures + 1) (2 ^ 32 - 1)
    lastPolledAtMs := some nowMs }
  (next, maxPollConsecutiveFailures ≤ next.consecutiveFailures)

end Lightspeed.Bots
