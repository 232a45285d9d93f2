import Lightspeed.Bots.Ids
import Lightspeed.Bots.PollBaseline

/-!
# The events of polled items

An item's event id is a digest of its key, and a key is one item's own as long as the marks that wait
have different texts and no id comes back for another item after the cursor forgot it.
-/

namespace Lightspeed.Bots

open Lib

variable {floatText : F64 → String} {spec : PollCursorSpec} {items : List Value} {field : String}
  {s t : PollFires} {mark : Mark}

/-! ## Keys of deliveries -/

/-- The marks of what was delivered so far. -/
def PollFires.deliveredMarks (field : String) (s : PollFires) : List Mark :=
  s.polls.flatMap fun poll => marksOf (poll.delivered.map (·.item)) field

/-- Items of one fire have different keys, and so have different items of different fires. -/
structure KeysApart (polls : List Poll) : Prop where
  within : ∀ poll ∈ polls, (poll.delivered.map (·.key)).Nodup
  across : polls.Pairwise fun earlier later => ∀ a ∈ earlier.delivered, ∀ b ∈ later.delivered,
    a.item ≠ b.item → a.key ≠ b.key

theorem keysApart_snoc {polls : List Poll} {poll : Poll} (h : KeysApart polls)
    (hwithin : (poll.delivered.map (·.key)).Nodup)
    (hacross : ∀ earlier ∈ polls, ∀ a ∈ earlier.delivered, ∀ b ∈ poll.delivered, a.item ≠ b.item →
      a.key ≠ b.key) : KeysApart (polls ++ [poll]) := by
  refine ⟨fun other hother => ?_, ?_⟩
  · rcases List.mem_append.mp hother with hold | hnew
    · exact h.within other hold
    · obtain rfl := List.mem_singleton.mp hnew
      exact hwithin
  · refine List.pairwise_append.mpr ⟨h.across, List.pairwise_singleton _ _, fun earlier hearlier => ?_⟩
    intro later hlater
    obtain rfl := List.mem_singleton.mp hlater
    exact hacross earlier hearlier

/-- No id comes back for another item that the cursor may have forgotten; the marks that wait have
different texts, and are ordered with what was delivered before. -/
def DeliversApart (floatText : F64 → String) (spec : PollCursorSpec) (s : PollFires) :
    PollFire → Prop
  | .failed _ => True
  | .polled items _ =>
    match spec with
    | .idSet _ =>
      ∀ entry ∈ keyedItems floatText items spec, ∀ poll ∈ s.polls, ∀ old ∈ poll.delivered,
        old.key = entry.key → old.item = entry.item ∨
          newer (s.history floatText spec) entry.key < maxPollCursorIds
    | .watermark field =>
      ∀ mark ∈ s.cursor.bind (·.watermark),
        Comparable floatText (mark :: (s.deliveredMarks field ++ marksOf items field)) ∧
          ((waitingItems floatText items field mark).map fun entry =>
            watermarkString floatText entry.2).Nodup

/-! ## Deliveries of a cursor of ids -/

structure IdsApart (floatText : F64 → String) (spec : PollCursorSpec) (s : PollFires) : Prop where
  remembers : Remembers floatText spec s
  contact : s.cursor = none → s.polls = []
  baselined : ∀ poll ∈ s.polls, poll.baselined = true → poll.delivered = []
  apart : KeysApart s.polls

theorem idsApart_failed {id : String} {nowMs : Int} (hs : IdsApart floatText (.idSet id) s)
    (h : s.step floatText (.idSet id) (.failed nowMs) = some t) :
    IdsApart floatText (.idSet id) t := by
  have hremembers := remembers_failed hs.remembers h
  obtain rfl := Option.some.inj h
  exact ⟨hremembers, fun hnone => (nomatch hnone), hs.baselined, hs.apart⟩

/-- What was delivered was stored. -/
theorem delivered_mem_history (hs : IdsApart floatText spec s) {poll : Poll} (hpoll : poll ∈ s.polls)
    {entry : PollItem} (hentry : entry ∈ poll.delivered) :
    entry.key ∈ s.history floatText spec := by
  refine List.mem_flatMap.mpr ⟨poll, hpoll, ?_⟩
  unfold Poll.storedKeys
  split_ifs with hbaselined
  · rw [hs.baselined poll hpoll hbaselined] at hentry
    cases hentry
  · exact List.mem_map_of_mem hentry

theorem idsApart_polled {id : String} {nowMs : Int} (hs : IdsApart floatText (.idSet id) s)
    (hapart : DeliversApart floatText (.idSet id) s (.polled items nowMs))
    (h : s.step floatText (.idSet id) (.polled items nowMs) = some t) :
    IdsApart floatText (.idSet id) t := by
  have hremembers := remembers_polled hs.remembers hs.contact h
  obtain rfl := Option.some.inj h
  cases hcursor : s.cursor with
  | none =>
    rw [hcursor, diffPollItems_idSet_none] at hremembers
    refine ⟨hremembers, fun hnone => (nomatch hnone), fun poll hpoll hbaselined => ?_,
      keysApart_snoc hs.apart List.nodup_nil fun _ _ _ _ _ hb => (nomatch hb)⟩
    rcases List.mem_append.mp hpoll with hold | hnew
    · exact hs.baselined poll hold hbaselined
    · obtain rfl := List.mem_singleton.mp hnew
      rfl
  | some state =>
    rw [hcursor, diffPollItems_idSet_some] at hremembers
    obtain ⟨hunseen, hnodup⟩ := unseenEntries_spec state.ids maxPollItemsPerFire
      (keyedItems floatText items (.idSet id))
    refine ⟨hremembers, fun hnone => (nomatch hnone), fun poll hpoll hbaselined => ?_,
      keysApart_snoc hs.apart hnodup fun poll hpoll old hold entry hentry hitems hkeys => ?_⟩
    · rcases List.mem_append.mp hpoll with hold | hnew
      · exact hs.baselined poll hold hbaselined
      · obtain rfl := List.mem_singleton.mp hnew
        cases hbaselined
    · obtain ⟨hkeyed, hnew⟩ := hunseen entry hentry
      rcases hapart entry hkeyed poll hpoll old hold hkeys with hsame | hnewer
      · exact hitems hsame
      · have hmem : entry.key ∈ s.history floatText (.idSet id) :=
          hkeys ▸ delivered_mem_history hs hpoll hold
        obtain ⟨state', hcursor', hids, -⟩ := hs.remembers entry.key hmem hnewer
        rw [hcursor] at hcursor'
        obtain rfl := Option.some.inj hcursor'
        exact hnew hids

/-! ## Deliveries of a watermark -/

/-- What was delivered has its mark as its key, and that is not after the stored watermark. -/
structure MarksApart (floatText : F64 → String) (field : String) (s : PollFires) : Prop where
  below : ∀ poll ∈ s.polls, ∀ entry ∈ poll.delivered, ∃ mark,
    watermarkValue entry.item field = some mark ∧ entry.key = watermarkString floatText mark ∧
      ∃ stored ∈ s.cursor.bind (·.watermark), watermarkAfter floatText mark stored = false
  apart : KeysApart s.polls

theorem marksApart_failed {nowMs : Int} (hs : MarksApart floatText field s)
    (h : s.step floatText (.watermark field) (.failed nowMs) = some t) :
    MarksApart floatText field t := by
  obtain rfl := Option.some.inj h
  refine ⟨fun poll hpoll entry hentry => ?_, hs.apart⟩
  rw [pollFailureState_watermark]
  exact hs.below poll hpoll entry hentry

/-- The mark of an item of the payload is its watermark. -/
theorem watermarkValue_of_mem {entry : Value × Mark} (h : entry ∈ markedItems items field) :
    watermarkValue entry.1 field = some entry.2 := by
  obtain ⟨item, -, hmarked⟩ := List.mem_filterMap.mp h
  obtain ⟨mark, hmark, rfl⟩ := Option.map_eq_some_iff.mp hmarked
  exact hmark

/-- What a cut keeps was waiting, in the same order. -/
theorem cutFresh_sublist (fresh : List (Value × Mark)) :
    (cutFresh floatText fresh).Sublist fresh := by
  rcases cutFresh_cases floatText fresh with hall | ⟨threshold, -, hcut⟩
  · rw [hall]
  · rw [hcut]
    exact List.filter_sublist

/-- What is delivered is not after the next watermark. -/
theorem cutFresh_not_after_next {set : Set Mark} (h : WeakOn (watermarkAfter floatText) set)
    (hitems : ∀ entry ∈ markedItems items field, entry.2 ∈ set) {entry : Value × Mark}
    (hentry : entry ∈ cutFresh floatText (waitingItems floatText items field mark)) :
    watermarkAfter floatText entry.2 (nextMark floatText items field mark) = false := by
  have hmarks : ∀ m ∈ (cutFresh floatText (waitingItems floatText items field mark)).map Prod.snd,
      m ∈ set := by
    intro m hm
    obtain ⟨taken, htaken, rfl⟩ := List.mem_map.mp hm
    exact hitems taken (mem_waitingItems.mp ((cutFresh_sublist _).subset htaken)).1
  unfold nextMark
  cases htop : highest (watermarkAfter floatText)
      ((cutFresh floatText (waitingItems floatText items field mark)).map Prod.snd) with
  | none =>
    rw [List.map_eq_nil_iff.mp (highest_eq_none_iff.mp htop)] at hentry
    cases hentry
  | some top => exact (highest_spec h hmarks htop).2 entry.2 (List.mem_map_of_mem hentry)

theorem marksApart_polled {nowMs : Int} (hfloat : SameTextTies floatText)
    (hs : MarksApart floatText field s)
    (hapart : DeliversApart floatText (.watermark field) s (.polled items nowMs))
    (h : s.step floatText (.watermark field) (.polled items nowMs) = some t) :
    MarksApart floatText field t := by
  obtain rfl := Option.some.inj h
  cases hmark : s.cursor.bind (·.watermark) with
  | none =>
    -- Nothing was delivered before, and nothing is now.
    rw [diffPollItems_watermark_none floatText items field nowMs hmark]
    refine ⟨fun poll hpoll entry hentry => ?_,
      keysApart_snoc hs.apart List.nodup_nil fun _ _ _ _ _ hb => (nomatch hb)⟩
    rcases List.mem_append.mp hpoll with hold | hnew
    · obtain ⟨-, -, -, stored, hstored, -⟩ := hs.below poll hold entry hentry
      rw [hmark] at hstored
      cases hstored
    · obtain rfl := List.mem_singleton.mp hnew
      cases hentry
  | some stored =>
    obtain ⟨hcomparable, htexts⟩ := hapart stored hmark
    have h := hcomparable.weakOn
    set marks := stored :: (s.deliveredMarks field ++ marksOf items field) with hmarks
    have hstoredS : stored ∈ {m | m ∈ marks} := List.mem_cons_self
    have hitems : ∀ entry ∈ markedItems items field, entry.2 ∈ {m | m ∈ marks} := fun entry hentry =>
      List.mem_cons_of_mem _ (List.mem_append_right _ (List.mem_map_of_mem hentry))
    have holdS : ∀ poll ∈ s.polls, ∀ old ∈ poll.delivered, ∀ m,
        watermarkValue old.item field = some m → m ∈ {m | m ∈ marks} := by
      intro poll hpoll old hold m hm
      refine List.mem_cons_of_mem _ (List.mem_append_left _ (List.mem_flatMap.mpr ⟨poll, hpoll, ?_⟩))
      refine List.mem_map.mpr ⟨(old.item, m), List.mem_filterMap.mpr ⟨old.item, ?_, ?_⟩, rfl⟩
      · exact List.mem_map_of_mem hold
      · rw [hm]
        rfl
    obtain ⟨-, -, hnextS, hforward⟩ := waitingItems_nextMark h hstoredS hitems
    have hwaiting : ∀ entry ∈ cutFresh floatText (waitingItems floatText items field stored),
        entry ∈ markedItems items field ∧ watermarkAfter floatText entry.2 stored = true :=
      fun entry hentry => mem_waitingItems.mp ((cutFresh_sublist _).subset hentry)
    obtain ⟨state, hcursor, hstate⟩ := Option.bind_eq_some_iff.mp hmark
    rw [hcursor, diffPollItems_watermark floatText items field nowMs hstate]
    refine ⟨fun poll hpoll entry hentry => ?_, keysApart_snoc hs.apart ?_
      fun poll hpoll old hold entry hentry _ hkeys => ?_⟩
    · rcases List.mem_append.mp hpoll with hold | hnew
      · obtain ⟨m, hm, hkey, stored', hstored', hbelow⟩ := hs.below poll hold entry hentry
        obtain rfl := Option.mem_unique hmark hstored'
        refine ⟨m, hm, hkey, _, rfl, ?_⟩
        exact h.not_after_trans (holdS poll hold entry hentry m hm) hstoredS hnextS hbelow hforward
      · obtain rfl := List.mem_singleton.mp hnew
        obtain ⟨taken, htaken, rfl⟩ := List.mem_map.mp hentry
        refine ⟨taken.2, ?_, rfl, _, rfl, cutFresh_not_after_next h hitems htaken⟩
        exact watermarkValue_of_mem (hwaiting taken htaken).1
    · rw [List.map_map]
      exact htexts.sublist ((cutFresh_sublist _).map _)
    · obtain ⟨taken, htaken, rfl⟩ := List.mem_map.mp hentry
      obtain ⟨hmarked, hafter⟩ := hwaiting taken htaken
      obtain ⟨m, hm, hkey, stored', hstored', hbelow⟩ := hs.below poll hpoll old hold
      obtain rfl := Option.mem_unique hmark hstored'
      have htext : watermarkString floatText taken.2 = watermarkString floatText m :=
        hkeys.symm.trans hkey
      rw [h.not_after_trans (hitems taken hmarked) (holdS poll hpoll old hold m hm) hstoredS
        (watermarkAfter_sameText hfloat htext) hbelow] at hafter
      cases hafter

/-! ## Event ids -/

/-- The event ids of one fire are different, and so are those of different items of different fires. -/
structure EventsApart (sha256Hex : String → String) (triggerId : BotTriggerId) (polls : List Poll) :
    Prop where
  within : ∀ poll ∈ polls, (poll.delivered.map fun entry =>
    pollEventId sha256Hex triggerId entry.key).Nodup
  across : polls.Pairwise fun earlier later => ∀ a ∈ earlier.delivered, ∀ b ∈ later.delivered,
    a.item ≠ b.item → pollEventId sha256Hex triggerId a.key ≠ pollEventId sha256Hex triggerId b.key

/-- No two of the keys that were delivered have the same digest. -/
def DigestsApart (sha256Hex : String → String) (polls : List Poll) : Prop :=
  ∀ a ∈ polls.flatMap (·.delivered), ∀ b ∈ polls.flatMap (·.delivered),
    digestPrefix sha256Hex a.key 32 = digestPrefix sha256Hex b.key 32 → a.key = b.key

theorem pollEventId_inj {sha256Hex : String → String} {triggerId : BotTriggerId} {polls : List Poll}
    (hdigests : DigestsApart sha256Hex polls) {a b : PollItem}
    (ha : a ∈ polls.flatMap (·.delivered)) (hb : b ∈ polls.flatMap (·.delivered))
    (h : pollEventId sha256Hex triggerId a.key = pollEventId sha256Hex triggerId b.key) :
    a.key = b.key :=
  hdigests a ha b hb ((String.append_right_inj _).mp h)

/-- Each delivered item becomes an event of its own. -/
theorem items_become_events {sha256Hex : String → String} {triggerId : BotTriggerId}
    {cursor : Option PollCursorState} {steps : List (PollFires × PollFire)}
    (hfloat : SameTextTies floatText) (hdigests : DigestsApart sha256Hex s.polls)
    (hrun : (pollFires floatText spec cursor).Run steps s)
    (hapart : ∀ step ∈ steps, DeliversApart floatText spec step.1 step.2) :
    EventsApart sha256Hex triggerId s.polls := by
  have hnone : KeysApart [] := ⟨fun _ h => (nomatch h), List.Pairwise.nil⟩
  have hkeys : KeysApart s.polls := by
    cases spec with
    | idSet id =>
      have hinv : IdsApart floatText (.idSet id) s := by
        refine hrun.invariant (P := fun s => IdsApart floatText (.idSet id) s) ?_ ?_ hapart
        · rintro s rfl
          exact ⟨remembers_init cursor, fun _ => rfl, fun _ hpoll => (nomatch hpoll), hnone⟩
        · intro s fire t _ hs hapart h
          cases fire with
          | failed nowMs => exact idsApart_failed hs h
          | polled items nowMs => exact idsApart_polled hs hapart h
      exact hinv.apart
    | watermark field =>
      have hinv : MarksApart floatText field s := by
        refine hrun.invariant (P := fun s => MarksApart floatText field s) ?_ ?_ hapart
        · rintro s rfl
          exact ⟨fun _ hpoll => (nomatch hpoll), hnone⟩
        · intro s fire t _ hs hapart h
          cases fire with
          | failed nowMs => exact marksApart_failed hs h
          | polled items nowMs => exact marksApart_polled hfloat hs hapart h
      exact hinv.apart
  refine ⟨fun poll hpoll => ?_, ?_⟩
  · have hnodup := hkeys.within poll hpoll
    refine List.Nodup.map_on ?_ (List.Nodup.of_map _ hnodup)
    intro a ha b hb hsame
    have hkey := pollEventId_inj hdigests (List.mem_flatMap.mpr ⟨poll, hpoll, ha⟩)
      (List.mem_flatMap.mpr ⟨poll, hpoll, hb⟩) hsame
    exact List.inj_on_of_nodup_map hnodup ha hb hkey
  · refine hkeys.across.imp_of_mem ?_
    intro earlier later hearlier hlater hacross a ha b hb hitems hsame
    refine hacross a ha b hb hitems ?_
    exact pollEventId_inj hdigests (List.mem_flatMap.mpr ⟨earlier, hearlier, ha⟩)
      (List.mem_flatMap.mpr ⟨later, hlater, hb⟩) hsame

instance (s : PollFires) (fire : PollFire) :
    Decidable (DeliversApart floatText (.watermark field) s fire) :=
  match fire with
  | .failed _ => .isTrue trivial
  | .polled items _ => inferInstanceAs (Decidable (∀ mark ∈ s.cursor.bind (·.watermark),
      Comparable floatText (mark :: (s.deliveredMarks field ++ marksOf items field)) ∧
        ((waitingItems floatText items field mark).map fun entry =>
          watermarkString floatText entry.2).Nodup))

/-- A trigger's id. -/
def feed : BotTriggerId := ⟨"feed", by decide⟩

/-- The digests of the keys `2` and `3`. -/
def sampleDigests (value : String) : String :=
  if value = "2" then "d4735e3a265e16eee03f59718b9b5d03019c07d8b6c51f90da3a666eec13ab35"
  else if value = "3" then "4e07408562bedb8b60ce05c1decfe3ad16b72230967de01f640b7e4729b49fce"
  else ""

/-- The feed that grows between two failures. -/
theorem items_become_events_growing : ∃ steps s,
    (pollFires bitsText (.watermark "at") none).Run steps s ∧
      (s.polls.map fun poll => poll.delivered.map (·.key)) = [[], ["2"], ["3"]] ∧
      EventsApart sampleDigests feed s.polls := by
  obtain ⟨⟨steps, s⟩, hs, hdelivered, hapart, hdigests⟩ :
      ∃ run ∈ (pollFires bitsText (.watermark "at") none).trace {} growingFeed,
      (run.2.polls.map fun poll => poll.delivered.map (·.key)) = [[], ["2"], ["3"]] ∧
        (∀ step ∈ run.1, DeliversApart bitsText (.watermark "at") step.1 step.2) ∧
        ∀ a ∈ run.2.polls.flatMap (·.delivered), ∀ b ∈ run.2.polls.flatMap (·.delivered),
          digestPrefix sampleDigests a.key 32 = digestPrefix sampleDigests b.key 32 → a.key = b.key := by
    decide +kernel
  have hrun := (Machine.Run.init (m := pollFires bitsText (.watermark "at") none) rfl).trace hs
  rw [List.nil_append] at hrun
  exact ⟨steps, s, hrun, hdelivered,
    items_become_events sameTextTies_bitsText hdigests hrun hapart⟩

/-- Two items with the same mark. -/
def tiedItems : List Value :=
  [.object [("at", .number (.posInt 2)), ("id", .string "a")],
    .object [("at", .number (.posInt 2)), ("id", .string "b")]]

/-- Two items that tie are delivered together, as one event. -/
theorem tied_items_share_event : ¬ ∀ (cursor : Option PollCursorState)
    (steps : List (PollFires × PollFire)) (s : PollFires),
    (pollFires bitsText (.watermark "at") cursor).Run steps s → DigestsApart sampleDigests s.polls →
      EventsApart sampleDigests feed s.polls := by
  intro h
  let cursor : PollCursorState := { watermark := some (.number (.posInt 1)) }
  obtain ⟨⟨steps, s⟩, hs, hdigests, poll, hpoll, hshared⟩ :
      ∃ run ∈ (pollFires bitsText (.watermark "at") (some cursor)).trace { cursor := some cursor }
        [.polled tiedItems 0],
      (∀ a ∈ run.2.polls.flatMap (·.delivered), ∀ b ∈ run.2.polls.flatMap (·.delivered),
          digestPrefix sampleDigests a.key 32 = digestPrefix sampleDigests b.key 32 → a.key = b.key) ∧
        ∃ poll ∈ run.2.polls, ¬ (poll.delivered.map fun entry =>
          pollEventId sampleDigests feed entry.key).Nodup := by decide +kernel
  have hrun := (Machine.Run.init (m := pollFires bitsText (.watermark "at") (some cursor)) rfl).trace hs
  exact hshared ((h _ _ s hrun hdigests).within poll hpoll)

end Lightspeed.Bots
