import Std.Data.String.ToInt
import Lightspeed.Bots.PollFires

/-!
# What was there when a poll was enabled

A poll that is enabled against a feed delivers nothing of what the feed holds then, as long as the first
contact is the first fire, the cursor has room for what the feed holds, and the marks are ordered.
-/

namespace Lightspeed.Bots

open Lib

variable {floatText : F64 → String} {spec : PollCursorSpec} {items : List Value} {field : String}
  {s t : PollFires} {fire : PollFire} {state : PollCursorState}

/-! ## Texts of marks -/

/-- Two numbers with the same text are the same float. -/
def SameTextTies (floatText : F64 → String) : Prop :=
  ∀ a b : Number, numberToString floatText a = numberToString floatText b → a.asF64 = b.asF64

/-- Of two marks with the same text, neither is after the other. -/
theorem watermarkAfter_sameText (hfloat : SameTextTies floatText) {a b : Mark}
    (h : watermarkString floatText a = watermarkString floatText b) :
    watermarkAfter floatText a b = false := by
  cases ha : a.asF64 with
  | none =>
    rw [watermarkAfter_texts (.inl ha), h, decide_eq_false_iff_not]
    exact lt_irrefl _
  | some left =>
    cases hb : b.asF64 with
    | none =>
      rw [watermarkAfter_texts (.inr hb), h, decide_eq_false_iff_not]
      exact lt_irrefl _
    | some right =>
      cases a with
      | string text => cases ha
      | number a =>
        cases b with
        | string text => cases hb
        | number b =>
          rw [watermarkAfter_numbers, hfloat a b h, decide_eq_false_iff_not]
          exact lt_irrefl _

/-- The items of a payload with their watermarks as keys. -/
theorem keyedItems_watermark (items : List Value) (field : String) :
    keyedItems floatText items (.watermark field) =
      (markedItems items field).map (deliveredItem floatText) := by
  unfold keyedItems markedItems
  rw [List.map_filterMap]
  refine List.filterMap_congr fun item _ => ?_
  unfold pollItemKey
  dsimp only
  rw [Option.map_map, Option.map_map]
  rfl

theorem mem_keysOf_watermark {key : String} :
    key ∈ keysOf floatText (.watermark field) items ↔
      ∃ mark ∈ marksOf items field, watermarkString floatText mark = key := by
  unfold keysOf marksOf
  rw [keyedItems_watermark, List.map_map, List.mem_map]
  constructor
  · rintro ⟨entry, hentry, rfl⟩
    exact ⟨entry.2, List.mem_map_of_mem hentry, rfl⟩
  · rintro ⟨mark, hmark, rfl⟩
    obtain ⟨entry, hentry, rfl⟩ := List.mem_map.mp hmark
    exact ⟨entry, hentry, rfl⟩

/-! ## What stands since the first poll -/

/-- A key that was in every payload so far. -/
def Standing (floatText : F64 → String) (spec : PollCursorSpec) (s : PollFires) (key : String) :
    Prop :=
  ∀ poll ∈ s.polls, key ∈ keysOf floatText spec poll.items

/-- No fire delivered a key that was in every payload up to its own. -/
def NoReplay (floatText : F64 → String) (spec : PollCursorSpec) (polls : List Poll) : Prop :=
  ∀ before poll after, polls = before ++ poll :: after → ∀ entry ∈ poll.delivered,
    ∃ earlier ∈ before, entry.key ∉ keysOf floatText spec earlier.items

theorem noReplay_snoc {polls : List Poll} {poll : Poll} (h : NoReplay floatText spec polls)
    (hpoll : ∀ entry ∈ poll.delivered,
      ∃ earlier ∈ polls, entry.key ∉ keysOf floatText spec earlier.items) :
    NoReplay floatText spec (polls ++ [poll]) := by
  intro before other after hsplit entry hentry
  rcases snoc_eq_append_cons.mp hsplit with ⟨rest, -, hpolls⟩ | ⟨-, rfl, rfl⟩
  · exact h before other rest hpolls entry hentry
  · exact hpoll entry hentry

/-- The stored watermark, and the marks of the last payload. -/
def PollFires.standingMarks (field : String) (s : PollFires) : List Mark :=
  (s.cursor.bind (·.watermark)).toList ++
    s.polls.getLast?.toList.flatMap fun poll => marksOf poll.items field

/-- A cursor of ids is empty-handed when the first poll succeeds, or the payload is, and of what stands
since then fewer ids are newer than a cursor holds; the marks of a watermark are ordered. -/
def BaselineKept (floatText : F64 → String) (spec : PollCursorSpec) (s : PollFires) :
    PollFire → Prop
  | .failed _ => True
  | .polled items _ =>
    match spec with
    | .idSet _ =>
      (s.polls = [] → s.cursor = none ∨ keysOf floatText spec items = []) ∧
        (s.polls ≠ [] → ∀ key ∈ keysOf floatText spec items, Standing floatText spec s key →
          newer (s.history floatText spec) key < maxPollCursorIds)
    | .watermark field => Comparable floatText (s.standingMarks field ++ marksOf items field)

instance (s : PollFires) (fire : PollFire) :
    Decidable (BaselineKept floatText (.watermark field) s fire) :=
  match fire with
  | .failed _ => .isTrue trivial
  | .polled items _ =>
    inferInstanceAs (Decidable (Comparable floatText (s.standingMarks field ++ marksOf items field)))

/-! ## A cursor of ids -/

/-- What a cursor of ids keeps of the first payload. -/
structure IdSetInv (floatText : F64 → String) (spec : PollCursorSpec) (s : PollFires) : Prop where
  remembers : Remembers floatText spec s
  contact : s.cursor = none → s.polls = []
  first : ∀ poll ∈ s.polls.head?, poll.baselined = true ∨ keysOf floatText spec poll.items = []
  noReplay : NoReplay floatText spec s.polls

theorem idSetInv_failed {id : String} {nowMs : Int} (hs : IdSetInv floatText (.idSet id) s)
    (h : s.step floatText (.idSet id) (.failed nowMs) = some t) :
    IdSetInv floatText (.idSet id) t := by
  have hremembers := remembers_failed hs.remembers h
  obtain rfl := Option.some.inj h
  exact ⟨hremembers, fun hnone => (nomatch hnone), hs.first, hs.noReplay⟩

/-- What stands since the first poll was stored by it. -/
theorem standing_mem_history {key : String} (hs : IdSetInv floatText spec s) (hpolls : s.polls ≠ [])
    (hstanding : Standing floatText spec s key) : key ∈ s.history floatText spec := by
  obtain ⟨first, rest, hsplit⟩ := List.exists_cons_of_ne_nil hpolls
  have hmem : first ∈ s.polls := by
    rw [hsplit]
    exact List.mem_cons_self
  have hkey := hstanding first hmem
  rcases hs.first first (by rw [hsplit]; rfl) with hbaselined | hempty
  · refine List.mem_flatMap.mpr ⟨first, hmem, ?_⟩
    rw [Poll.storedKeys, if_pos hbaselined]
    exact hkey
  · rw [hempty] at hkey
    cases hkey

theorem idSetInv_polled {id : String} {nowMs : Int} (hs : IdSetInv floatText (.idSet id) s)
    (hkept : BaselineKept floatText (.idSet id) s (.polled items nowMs))
    (h : s.step floatText (.idSet id) (.polled items nowMs) = some t) :
    IdSetInv floatText (.idSet id) t := by
  have hremembers := remembers_polled hs.remembers hs.contact h
  obtain rfl := Option.some.inj h
  obtain ⟨hfirst, hlater⟩ := hkept
  refine ⟨hremembers, fun hnone => (nomatch hnone), fun poll hpoll => ?_,
    noReplay_snoc hs.noReplay fun entry hentry => ?_⟩
  · cases hpolls : s.polls with
    | cons first rest =>
      rw [hpolls] at hpoll
      exact hs.first poll (by rw [hpolls]; exact hpoll)
    | nil =>
      rw [hpolls] at hpoll
      obtain rfl : _ = poll := Option.some.inj hpoll
      rcases hfirst hpolls with hnone | hempty
      · rw [hnone]
        exact .inl rfl
      · exact .inr hempty
  · cases hcursor : s.cursor with
    | none =>
      rw [hcursor, diffPollItems_idSet_none] at hentry
      cases hentry
    | some state =>
      rw [hcursor, diffPollItems_idSet_some] at hentry
      obtain ⟨hkeyed, hunseen⟩ := (unseenEntries_spec _ _ _).1 entry hentry
      have hkey : entry.key ∈ keysOf floatText (.idSet id) items := List.mem_map_of_mem hkeyed
      have hpolls : s.polls ≠ [] := by
        intro hnil
        rcases hfirst hnil with hnone | hempty
        · rw [hcursor] at hnone
          cases hnone
        · rw [hempty] at hkey
          cases hkey
      by_contra hall
      have hstanding : Standing floatText (.idSet id) s entry.key := by
        intro poll hpoll
        by_contra hnot
        exact hall ⟨poll, hpoll, hnot⟩
      obtain ⟨state', hcursor', hids, -⟩ := hs.remembers entry.key
        (standing_mem_history hs hpolls hstanding) (hlater hpolls entry.key hkey hstanding)
      rw [hcursor] at hcursor'
      obtain rfl := Option.some.inj hcursor'
      exact hunseen hids

/-! ## A watermark -/

/-- What a watermark keeps of the payloads: what stands in all of them is not after it. -/
structure MarkInv (floatText : F64 → String) (field : String) (s : PollFires) : Prop where
  contact : s.polls = [] → s.cursor.bind (·.watermark) = none
  standing : ∀ poll ∈ s.polls.getLast?, ∀ mark ∈ marksOf poll.items field,
    Standing floatText (.watermark field) s (watermarkString floatText mark) →
    ∃ stored ∈ s.cursor.bind (·.watermark), watermarkAfter floatText mark stored = false
  noReplay : NoReplay floatText (.watermark field) s.polls

theorem markInv_failed {nowMs : Int} (hs : MarkInv floatText field s)
    (h : s.step floatText (.watermark field) (.failed nowMs) = some t) :
    MarkInv floatText field t := by
  obtain rfl := Option.some.inj h
  refine ⟨fun hnil => ?_, fun poll hpoll mark hmem hstanding => ?_, hs.noReplay⟩
  · rw [pollFailureState_watermark]
    exact hs.contact hnil
  · rw [pollFailureState_watermark]
    exact hs.standing poll hpoll mark hmem hstanding

/-- What stands in all payloads is not after the stored watermark. -/
theorem standing_not_after (hfloat : SameTextTies floatText) (hs : MarkInv floatText field s)
    (hcomparable : Comparable floatText (s.standingMarks field ++ marksOf items field))
    (hpolls : s.polls ≠ []) {mark stored : Mark} (hmark : mark ∈ marksOf items field)
    (hstored : stored ∈ s.cursor.bind (·.watermark))
    (hstanding : Standing floatText (.watermark field) s (watermarkString floatText mark)) :
    watermarkAfter floatText mark stored = false := by
  have h := hcomparable.weakOn
  obtain ⟨last, hlast⟩ := Option.ne_none_iff_exists'.mp (List.getLast?_eq_none_iff.not.mpr hpolls)
  obtain ⟨twin, htwin, htext⟩ :=
    mem_keysOf_watermark.mp (hstanding last (List.mem_of_getLast? hlast))
  rw [← htext] at hstanding
  obtain ⟨stored', hstored', hbelow⟩ := hs.standing last hlast twin htwin hstanding
  obtain rfl := Option.mem_unique hstored hstored'
  have hstoredS : stored ∈ s.standingMarks field ++ marksOf items field :=
    List.mem_append_left _ (List.mem_append_left _ (Option.mem_toList.mpr hstored))
  have htwinS : twin ∈ s.standingMarks field ++ marksOf items field := by
    refine List.mem_append_left _ (List.mem_append_right _ ?_)
    exact List.mem_flatMap.mpr ⟨last, Option.mem_toList.mpr hlast, htwin⟩
  -- The mark ties with its twin in the last payload, which is not after the watermark.
  exact h.not_after_trans (List.mem_append_right _ hmark) htwinS hstoredS
    (watermarkAfter_sameText hfloat htext.symm) hbelow

theorem markInv_polled {nowMs : Int} (hfloat : SameTextTies floatText)
    (hs : MarkInv floatText field s)
    (hcomparable : Comparable floatText (s.standingMarks field ++ marksOf items field))
    (h : s.step floatText (.watermark field) (.polled items nowMs) = some t) :
    MarkInv floatText field t := by
  obtain rfl := Option.some.inj h
  have horder := hcomparable.weakOn
  cases hmark : s.cursor.bind (·.watermark) with
  | none =>
    -- A baseline: the highest mark is stored, and nothing is delivered.
    have hdiff := diffPollItems_watermark_none floatText items field nowMs hmark
    rw [hdiff]
    refine ⟨fun hnil => absurd hnil (by simp), fun poll hpoll mark hmem _ => ?_,
      noReplay_snoc hs.noReplay fun _ hentry => (nomatch hentry)⟩
    obtain rfl : _ = poll := Option.some.inj (List.getLast?_concat.symm.trans hpoll)
    dsimp only at hmem ⊢
    rw [Option.bind_some]
    cases htop : highest (watermarkAfter floatText) (marksOf items field) with
    | none =>
      rw [highest_eq_none_iff.mp htop] at hmem
      cases hmem
    | some top =>
      have hitems : ∀ m ∈ marksOf items field,
          m ∈ {m | m ∈ s.standingMarks field ++ marksOf items field} :=
        fun m hm => List.mem_append_right _ hm
      exact ⟨top, rfl, (highest_spec horder hitems htop).2 mark hmem⟩
  | some stored =>
    obtain ⟨state, hcursor, hstate⟩ := Option.bind_eq_some_iff.mp hmark
    have hpolls : s.polls ≠ [] := by
      intro hnil
      rw [hs.contact hnil] at hmark
      cases hmark
    have hstoredS : stored ∈ {m | m ∈ s.standingMarks field ++ marksOf items field} :=
      List.mem_append_left _ (List.mem_append_left _ (Option.mem_toList.mpr hmark))
    have hitems : ∀ entry ∈ markedItems items field,
        entry.2 ∈ {m | m ∈ s.standingMarks field ++ marksOf items field} :=
      fun entry hentry => List.mem_append_right _ (List.mem_map_of_mem hentry)
    obtain ⟨hsplit, -, hnext, hforward⟩ := waitingItems_nextMark horder hstoredS hitems
    rw [hcursor, diffPollItems_watermark floatText items field nowMs hstate]
    refine ⟨fun hnil => absurd hnil (by simp), fun poll hpoll mark hmem hstanding => ?_,
      noReplay_snoc hs.noReplay fun entry hentry => ?_⟩
    · obtain rfl : _ = poll := Option.some.inj (List.getLast?_concat.symm.trans hpoll)
      dsimp only at hmem
      refine ⟨nextMark floatText items field stored, rfl, ?_⟩
      have hbelow := standing_not_after hfloat hs hcomparable hpolls hmem hmark fun earlier hearlier =>
        hstanding earlier (List.mem_append_left _ hearlier)
      -- The next watermark is not before the stored one.
      exact horder.not_after_trans (List.mem_append_right _ hmem) hstoredS hnext hbelow hforward
    · obtain ⟨taken, htaken, rfl⟩ := List.mem_map.mp hentry
      obtain ⟨hmem, hafter⟩ :=
        mem_waitingItems.mp (hsplit.mem_iff.mpr (List.mem_append_left _ htaken))
      by_contra hall
      have hstanding : Standing floatText (.watermark field) s
          (watermarkString floatText taken.2) := by
        intro poll hpoll
        by_contra hnot
        exact hall ⟨poll, hpoll, hnot⟩
      rw [standing_not_after hfloat hs hcomparable hpolls (List.mem_map_of_mem hmem) hmark
        hstanding] at hafter
      cases hafter

/-! ## Whole runs -/

/-- Nothing is delivered at the first poll. -/
theorem first_delivers_nothing {polls : List Poll} (h : NoReplay floatText spec polls) :
    ∀ first ∈ polls.head?, first.delivered = [] := by
  intro first hfirst
  cases polls with
  | nil => cases hfirst
  | cons poll rest =>
    obtain rfl : poll = first := Option.some.inj hfirst
    refine List.eq_nil_iff_forall_not_mem.mpr fun entry hentry => ?_
    obtain ⟨earlier, hearlier, -⟩ := h [] poll rest rfl entry hentry
    cases hearlier

/-- Enabling a poll never replays what the feed holds then: the first successful fire delivers nothing,
and what is in every payload since is never delivered. -/
theorem enabling_never_replays {steps : List (PollFires × PollFire)} (hfloat : SameTextTies floatText)
    (hrun : (pollFires floatText spec none).Run steps s)
    (hkept : ∀ step ∈ steps, BaselineKept floatText spec step.1 step.2) :
    (∀ first ∈ s.polls.head?, first.delivered = []) ∧ NoReplay floatText spec s.polls := by
  have hnone : NoReplay floatText spec [] := by
    intro before poll after hsplit
    have := congrArg List.length hsplit
    simp at this
  have hall : NoReplay floatText spec s.polls := by
    cases spec with
    | idSet id =>
      have hinv : IdSetInv floatText (.idSet id) s := by
        refine hrun.invariant (P := fun s => IdSetInv floatText (.idSet id) s) ?_ ?_ hkept
        · rintro s rfl
          exact ⟨remembers_init none, fun _ => rfl, fun _ hpoll => (nomatch hpoll), hnone⟩
        · intro s fire t _ hs hkept h
          cases fire with
          | failed nowMs => exact idSetInv_failed hs h
          | polled items nowMs => exact idSetInv_polled hs hkept h
      exact hinv.noReplay
    | watermark field =>
      have hinv : MarkInv floatText field s := by
        refine hrun.invariant (P := fun s => MarkInv floatText field s) ?_ ?_ hkept
        · rintro s rfl
          exact ⟨fun _ => rfl, fun _ hpoll => (nomatch hpoll), hnone⟩
        · intro s fire t _ hs hkept h
          cases fire with
          | failed nowMs => exact markInv_failed hs h
          | polled items nowMs => exact markInv_polled hfloat hs hkept h
      exact hinv.noReplay
  exact ⟨first_delivers_nothing hall, hall⟩

/-- A text for every float that no integer has. -/
def bitsText (f : F64) : String := "f" ++ toString f.bits.toNat

theorem sameTextTies_bitsText : SameTextTies bitsText := by
  -- Integers have the texts of `Int.repr`, without the letter.
  have hpos : ∀ value, numberToString bitsText (.posInt value) = Int.repr value := fun _ => rfl
  have hneg : ∀ below, numberToString bitsText (.negInt below) = Int.repr (.negSucc below) :=
    fun _ => rfl
  have hletter : ∀ (n : Int) (f : F64), Int.repr n ≠ bitsText f := by
    intro n f h
    have hmem : 'f' ∈ (Int.repr n).toList := by
      rw [h, bitsText, String.toList_append]
      exact List.mem_append_left _ (by decide)
    have hdigits : ∀ m : Nat, 'f' ∉ (Nat.repr m).toList := by
      intro m hf
      rw [Nat.toList_repr] at hf
      exact absurd (Nat.isDigit_of_mem_toDigits (by decide) (by decide) hf) (by decide)
    cases n with
    | ofNat m => exact hdigits m hmem
    | negSucc m =>
      have hsplit : Int.repr (.negSucc m) = "-" ++ Nat.repr (m + 1) := rfl
      rw [hsplit, String.toList_append] at hmem
      rcases List.mem_append.mp hmem with hsign | hdigit
      · exact absurd hsign (by decide)
      · exact hdigits _ hdigit
  intro a b h
  cases a with
  | posInt a =>
    cases b with
    | posInt b =>
      rw [hpos, hpos] at h
      rw [Int.ofNat.inj (Int.repr_injective h)]
    | negInt b =>
      rw [hpos, hneg] at h
      cases Int.repr_injective h
    | float b => exact absurd ((hpos a).symm.trans h) (hletter _ b)
  | negInt a =>
    cases b with
    | posInt b =>
      rw [hpos, hneg] at h
      cases Int.repr_injective h
    | negInt b =>
      rw [hneg, hneg] at h
      rw [Int.negSucc.inj (Int.repr_injective h)]
    | float b => exact absurd ((hneg a).symm.trans h) (hletter _ b)
  | float a =>
    cases b with
    | posInt b => exact absurd ((hpos b).symm.trans h.symm) (hletter _ a)
    | negInt b => exact absurd ((hneg b).symm.trans h.symm) (hletter _ a)
    | float b =>
      have hbits : a.bits.toNat = b.bits.toNat := Nat.repr_injective (String.append_right_inj _ |>.mp h)
      have hsame : a = b := by
        cases a
        cases b
        congr
        exact BitVec.eq_of_toNat_eq hbits
      rw [hsame]

/-- A feed that grows, between two failures. -/
def growingFeed : List PollFire :=
  [.failed 0, .polled [markedAt (.number (.posInt 1))] 1,
    .polled [markedAt (.number (.posInt 1)), markedAt (.number (.posInt 2))] 2, .failed 3,
    .polled [markedAt (.number (.posInt 1)), markedAt (.number (.posInt 3))] 4]

/-- The items after the first are delivered. -/
theorem enabling_never_replays_growing : ∃ steps s,
    (pollFires bitsText (.watermark "at") none).Run steps s ∧
      (s.polls.map fun poll => poll.delivered.map (·.key)) = [[], ["2"], ["3"]] ∧
      (∀ first ∈ s.polls.head?, first.delivered = []) ∧
      NoReplay bitsText (.watermark "at") s.polls := by
  obtain ⟨⟨steps, s⟩, hs, hdelivered, hkept⟩ :
      ∃ run ∈ (pollFires bitsText (.watermark "at") none).trace {} growingFeed,
        (run.2.polls.map fun poll => poll.delivered.map (·.key)) = [[], ["2"], ["3"]] ∧
          ∀ step ∈ run.1, BaselineKept bitsText (.watermark "at") step.1 step.2 := by decide +kernel
  have hrun := (Machine.Run.init (m := pollFires bitsText (.watermark "at") none) rfl).trace hs
  rw [List.nil_append] at hrun
  exact ⟨steps, s, hrun, hdelivered, enabling_never_replays sameTextTies_bitsText hrun hkept⟩

/-- An item with the id 1. -/
def firstTicket : Value := .object [("id", .number (.posInt 1))]

/-- After a failed fire a cursor of ids is there, and the first payload is delivered. -/
theorem first_payload_delivered : ¬ ∀ steps s,
    (pollFires bitsText (.idSet "id") none).Run steps s →
      (∀ first ∈ s.polls.head?, first.delivered = []) ∧ NoReplay bitsText (.idSet "id") s.polls := by
  intro h
  obtain ⟨⟨steps, s⟩, hs, hfirst⟩ :
      ∃ run ∈ (pollFires bitsText (.idSet "id") none).trace {} [.failed 0, .polled [firstTicket] 1],
        (run.2.polls.head?.map fun first => first.delivered.length) = some 1 := by decide +kernel
  have hrun := (Machine.Run.init (m := pollFires bitsText (.idSet "id") none) rfl).trace hs
  obtain ⟨first, hfirst, hone⟩ := Option.map_eq_some_iff.mp hfirst
  rw [(h _ s hrun).1 first hfirst] at hone
  cases hone

end Lightspeed.Bots
