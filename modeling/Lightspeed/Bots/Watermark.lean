import Mathlib.Data.String.Basic
import Lightspeed.Bots.Poll

/-!
# What stays behind the watermark

Where the marks are ordered, a fire leaves nothing behind: what it does not deliver is after the new
watermark. Numbers are ordered and so are texts; a text between two numbers that it does not stand
between as a number makes the order go round.
-/

namespace Lightspeed.Bots

open Lib

variable {floatText : F64 → String} {items : List Value} {field : String} {state : PollCursorState}
  {mark : Mark} {nowMs : Int}

/-! ## The order of marks -/

/-- Of two marks in order, a third comes before the one or after the other. -/
def Comparable (floatText : F64 → String) (marks : List Mark) : Prop :=
  ∀ a ∈ marks, ∀ b ∈ marks, ∀ c ∈ marks, watermarkAfter floatText a c = true →
    watermarkAfter floatText a b = true ∨ watermarkAfter floatText b c = true

instance (marks : List Mark) : Decidable (Comparable floatText marks) :=
  inferInstanceAs (Decidable (∀ a ∈ marks, ∀ b ∈ marks, ∀ c ∈ marks, _))

theorem watermarkAfter_numbers (a b : Number) :
    watermarkAfter floatText (.number a) (.number b) = decide (b.asF64 < a.asF64) := rfl

/-- Two marks that are not both numbers compare as texts. -/
theorem watermarkAfter_texts {a b : Mark} (h : a.asF64 = none ∨ b.asF64 = none) :
    watermarkAfter floatText a b =
      decide (watermarkString floatText b < watermarkString floatText a) := by
  unfold watermarkAfter
  rcases h with h | h
  · rw [h]
  · rw [h]
    cases a.asF64 <;> rfl

theorem watermarkAfter_asymm {a b : Mark} (h : watermarkAfter floatText a b = true) :
    watermarkAfter floatText b a = false := by
  cases ha : a.asF64 with
  | none =>
    rw [watermarkAfter_texts (.inl ha), decide_eq_true_eq] at h
    rw [watermarkAfter_texts (.inr ha), decide_eq_false_iff_not]
    exact lt_asymm h
  | some left =>
    cases hb : b.asF64 with
    | none =>
      rw [watermarkAfter_texts (.inr hb), decide_eq_true_eq] at h
      rw [watermarkAfter_texts (.inl hb), decide_eq_false_iff_not]
      exact lt_asymm h
    | some right =>
      unfold watermarkAfter at h ⊢
      rw [ha, hb, decide_eq_true_eq] at h
      rw [ha, hb, decide_eq_false_iff_not]
      exact lt_asymm h

theorem Comparable.weakOn {marks : List Mark} (h : Comparable floatText marks) :
    WeakOn (watermarkAfter floatText) {m | m ∈ marks} :=
  ⟨fun _ _ _ _ => watermarkAfter_asymm, h⟩

/-! ## One fire -/

/-- The marks of a payload. -/
def marksOf (items : List Value) (field : String) : List Mark := (markedItems items field).map Prod.snd

/-- The items of a payload that wait behind a watermark. -/
def waitingItems (floatText : F64 → String) (items : List Value) (field : String) (mark : Mark) :
    List (Value × Mark) :=
  itemsAfter (watermarkAfter floatText) Prod.snd mark (markedItems items field)

def deliveredItem (floatText : F64 → String) (entry : Value × Mark) : PollItem :=
  ⟨watermarkString floatText entry.2, entry.1⟩

/-- The watermark of a fire that starts from one. -/
def nextMark (floatText : F64 → String) (items : List Value) (field : String) (mark : Mark) : Mark :=
  (highest (watermarkAfter floatText)
    ((cutFresh floatText (waitingItems floatText items field mark)).map Prod.snd)).getD mark

/-- What a fire does that starts from a watermark. -/
theorem diffPollItems_watermark (floatText : F64 → String) (items : List Value) (field : String)
    (nowMs : Int) (hmark : state.watermark = some mark) :
    diffPollItems floatText items (.watermark field) (some state) nowMs =
      { baselined := false
        newItems :=
          (cutFresh floatText (waitingItems floatText items field mark)).map (deliveredItem floatText)
        nextState :=
          { state with
            watermark := some (nextMark floatText items field mark)
            consecutiveFailures := 0, lastPolledAtMs := some nowMs } } := by
  unfold diffPollItems diffWatermark
  dsimp only
  rw [Option.bind_some, hmark, Option.map_some]
  rfl

/-- What a fire does that starts from none. -/
theorem diffPollItems_watermark_none (floatText : F64 → String) (items : List Value) (field : String)
    (nowMs : Int) {cursor : Option PollCursorState} (hmark : cursor.bind (·.watermark) = none) :
    diffPollItems floatText items (.watermark field) cursor nowMs =
      { baselined := true
        newItems := []
        nextState :=
          { watermark := highest (watermarkAfter floatText) (marksOf items field)
            baselinedAtMs := some nowMs, lastPolledAtMs := some nowMs } } := by
  unfold diffPollItems diffWatermark
  dsimp only
  cases cursor with
  | none => rfl
  | some state =>
    rw [Option.bind_some] at hmark
    rw [Option.bind_some, hmark]
    rfl

/-- A cut keeps everything, or all up to a threshold that it keeps. -/
theorem cutFresh_cases (floatText : F64 → String) (fresh : List (Value × Mark)) :
    cutFresh floatText fresh = fresh ∨
      ∃ threshold ∈ fresh.map Prod.snd,
        cutFresh floatText fresh =
          fresh.filter fun entry => !watermarkAfter floatText entry.2 threshold := by
  unfold cutFresh
  split_ifs with hcap
  · dsimp only
    split
    next threshold hthreshold =>
      refine .inr ⟨threshold, ?_, rfl⟩
      exact (List.mergeSort_perm _ _).mem_iff.mp (List.mem_of_getElem? hthreshold)
    · exact .inl rfl
  · exact .inl rfl

variable {s : Set Mark}

theorem mem_waitingItems {entry : Value × Mark} :
    entry ∈ waitingItems floatText items field mark ↔
      entry ∈ markedItems items field ∧ watermarkAfter floatText entry.2 mark = true :=
  List.mem_filter

/-- What a fire leaves waiting is what it does not deliver. -/
theorem waitingItems_nextMark (h : WeakOn (watermarkAfter floatText) s) (hmark : mark ∈ s)
    (hitems : ∀ entry ∈ markedItems items field, entry.2 ∈ s) :
    (waitingItems floatText items field mark).Perm
        (cutFresh floatText (waitingItems floatText items field mark) ++
          waitingItems floatText items field (nextMark floatText items field mark)) ∧
      (waitingItems floatText items field mark ≠ [] →
        cutFresh floatText (waitingItems floatText items field mark) ≠ []) ∧
      nextMark floatText items field mark ∈ s ∧
      watermarkAfter floatText mark (nextMark floatText items field mark) = false := by
  set fresh := waitingItems floatText items field mark with hfresh
  have hfreshS : ∀ entry ∈ fresh, entry.2 ∈ s := fun entry hentry =>
    hitems entry (mem_waitingItems.mp hentry).1
  have hcutSub : ∀ entry ∈ cutFresh floatText fresh, entry ∈ fresh := by
    intro entry hentry
    rcases cutFresh_cases floatText fresh with hall | ⟨threshold, -, hcut⟩
    · rwa [hall] at hentry
    · rw [hcut] at hentry
      exact (List.mem_filter.mp hentry).1
  cases htop : highest (watermarkAfter floatText) ((cutFresh floatText fresh).map Prod.snd) with
  | none =>
    have hnext : nextMark floatText items field mark = mark := by
      unfold nextMark
      rw [← hfresh, htop]
      rfl
    have hempty : cutFresh floatText fresh = [] := List.map_eq_nil_iff.mp (highest_eq_none_iff.mp htop)
    have hnone : fresh = [] := by
      rcases cutFresh_cases floatText fresh with hall | ⟨threshold, hthreshold, hcut⟩
      · rw [← hall, hempty]
      · -- The threshold's own item would be kept.
        obtain ⟨entry, hentry, rfl⟩ := List.mem_map.mp hthreshold
        have hkept : entry ∈ cutFresh floatText fresh := by
          rw [hcut]
          refine List.mem_filter.mpr ⟨hentry, ?_⟩
          rw [h.irrefl (hfreshS entry hentry)]
          rfl
        rw [hempty] at hkept
        cases hkept
    rw [hnext, ← hfresh, hempty, hnone]
    exact ⟨.refl _, fun hne => absurd rfl hne, hmark, h.irrefl hmark⟩
  | some top =>
    have hnext : nextMark floatText items field mark = top := by
      unfold nextMark
      rw [← hfresh, htop]
      rfl
    have hcutS : ∀ m ∈ (cutFresh floatText fresh).map Prod.snd, m ∈ s := by
      intro m hm
      obtain ⟨entry, hentry, rfl⟩ := List.mem_map.mp hm
      exact hfreshS entry (hcutSub entry hentry)
    obtain ⟨hmem, -⟩ := highest_spec h hcutS htop
    obtain ⟨last, hlast, rfl⟩ := List.mem_map.mp hmem
    have hlastAfter := (mem_waitingItems.mp (hcutSub last hlast)).2
    rw [hnext]
    refine ⟨?_, fun _ => List.ne_nil_of_mem hlast, hfreshS last (hcutSub last hlast),
      watermarkAfter_asymm hlastAfter⟩
    rcases cutFresh_cases floatText fresh with hall | ⟨threshold, hthreshold, hcut⟩
    · have hrest : waitingItems floatText items field last.2 = [] := by
        refine itemsAfter_highest_all h hmark hitems ?_
        rw [hall] at htop
        exact htop
      rw [hall, hrest, List.append_nil]
    · have hrest : waitingItems floatText items field last.2 =
          fresh.filter fun entry => watermarkAfter floatText entry.2 threshold := by
        refine itemsAfter_highest h hmark hitems hthreshold ?_
        rw [hcut] at htop
        exact htop
      rw [hcut, hrest]
      have hsplit := List.filter_append_perm
        (fun entry => watermarkAfter floatText entry.2 threshold) fresh
      exact hsplit.symm.trans List.perm_append_comm

/-! ## Fire after fire -/

/-- The same payload, fire after fire: what was delivered so far, and the cursor. -/
def refire (floatText : F64 → String) (items : List Value) (field : String) (nowMs : Nat → Int)
    (state : PollCursorState) : Nat → List PollItem × PollCursorState
  | 0 => ([], state)
  | n + 1 =>
    let before := refire floatText items field nowMs state n
    let diff := diffPollItems floatText items (.watermark field) (some before.2) (nowMs n)
    (before.1 ++ diff.newItems, diff.nextState)

/-- After any number of fires: what was delivered and what waits is what waited at first, and with every
fire something is delivered until nothing waits. -/
theorem refire_spec (clock : Nat → Int) (h : WeakOn (watermarkAfter floatText) s) (hmark : mark ∈ s)
    (hitems : ∀ entry ∈ markedItems items field, entry.2 ∈ s)
    (hstate : state.watermark = some mark) (n : Nat) :
    ∃ next ∈ s, (refire floatText items field clock state n).2.watermark = some next ∧
      ((refire floatText items field clock state n).1 ++
          (waitingItems floatText items field next).map (deliveredItem floatText)).Perm
        ((waitingItems floatText items field mark).map (deliveredItem floatText)) ∧
      (waitingItems floatText items field next ≠ [] →
        (waitingItems floatText items field next).length + n ≤
          (waitingItems floatText items field mark).length) := by
  induction n with
  | zero => exact ⟨mark, hmark, hstate, .refl _, fun _ => le_refl _⟩
  | succ n ih =>
    obtain ⟨now, hnow, hcursor, hperm, hcount⟩ := ih
    obtain ⟨hsplit, hkept, hnext, -⟩ := waitingItems_nextMark h hnow hitems
    have hdiff := diffPollItems_watermark floatText items field (clock n) hcursor
    refine ⟨nextMark floatText items field now, hnext, ?_, ?_, fun hne => ?_⟩
    · unfold refire
      dsimp only
      rw [hdiff]
    · unfold refire
      dsimp only
      rw [hdiff, List.append_assoc, ← List.map_append]
      exact ((hsplit.symm.map _).append_left _).trans hperm
    · have hlength := hsplit.length_eq
      rw [List.length_append] at hlength
      have hwaiting : waitingItems floatText items field now ≠ [] := by
        intro hempty
        rw [hempty] at hlength
        have hzero := List.length_pos_iff.mpr hne
        rw [List.length_nil] at hlength
        omega
      have hcut := List.length_pos_iff.mpr (hkept hwaiting)
      have hearlier := hcount hwaiting
      omega

/-- What one fire, and the fires of the same payload after it, do with the items that wait behind the
watermark. -/
structure NothingHides (floatText : F64 → String) (items : List Value) (field : String)
    (state : PollCursorState) (mark : Mark) (clock : Nat → Int) : Prop where
  /-- An item is delivered, or is after the new watermark. -/
  delivered : ∀ entry ∈ markedItems items field, watermarkAfter floatText entry.2 mark = true →
    let diff := diffPollItems floatText items (.watermark field) (some state) (clock 0)
    deliveredItem floatText entry ∈ diff.newItems ∨
      ∃ next, diff.nextState.watermark = some next ∧ watermarkAfter floatText entry.2 next = true
  /-- The watermark does not go back. -/
  forward : ∃ next,
    (diffPollItems floatText items (.watermark field) (some state) (clock 0)).nextState.watermark =
        some next ∧ watermarkAfter floatText mark next = false
  /-- From some fire on, every item was delivered exactly once. -/
  complete : ∃ enough, ∀ n, enough ≤ n → (refire floatText items field clock state n).1.Perm
    ((waitingItems floatText items field mark).map (deliveredItem floatText))

/-- Where the stored watermark and the marks of the payload are ordered, no item hides. -/
theorem nothing_hides {clock : Nat → Int} (hstate : state.watermark = some mark)
    (hcomparable : Comparable floatText (mark :: marksOf items field)) :
    NothingHides floatText items field state mark clock := by
  have h := hcomparable.weakOn
  have hmark : mark ∈ {m | m ∈ mark :: marksOf items field} := List.mem_cons_self
  have hitems : ∀ entry ∈ markedItems items field, entry.2 ∈ {m | m ∈ mark :: marksOf items field} :=
    fun entry hentry => List.mem_cons_of_mem _ (List.mem_map_of_mem hentry)
  obtain ⟨hsplit, hkept, hnext, hforward⟩ := waitingItems_nextMark h hmark hitems
  have hdiff := diffPollItems_watermark floatText items field (clock 0) hstate
  refine ⟨fun entry hentry hafter => ?_, ⟨nextMark floatText items field mark, ?_, hforward⟩,
    (waitingItems floatText items field mark).length, fun n hn => ?_⟩
  · dsimp only
    rw [hdiff]
    have hwaiting : entry ∈ waitingItems floatText items field mark :=
      mem_waitingItems.mpr ⟨hentry, hafter⟩
    rcases List.mem_append.mp (hsplit.mem_iff.mp hwaiting) with hcut | hrest
    · exact .inl (List.mem_map_of_mem hcut)
    · exact .inr ⟨_, rfl, (mem_waitingItems.mp hrest).2⟩
  · rw [hdiff]
  · obtain ⟨next, -, -, hperm, hcount⟩ := refire_spec clock h hmark hitems hstate n
    have hdone : waitingItems floatText items field next = [] := by
      by_contra hne
      have hlength := List.length_pos_iff.mpr hne
      have hbound := hcount hne
      omega
    rwa [hdone, List.map_nil, List.append_nil] at hperm

/-- An item with a mark in its field `at`. -/
def markedAt (mark : Mark) : Value :=
  .object [("at", match mark with | .string text => .string text | .number n => .number n)]

/-- Numbers only. -/
theorem nothing_hides_numbers :
    NothingHides (fun f => toString f.units) [markedAt (.number (.posInt 3)), markedAt (.number (.posInt 2))]
      "at" { watermark := some (.number (.posInt 1)) } (.number (.posInt 1)) (fun _ => 0) :=
  nothing_hides rfl (by decide +kernel)

/-- The text `5` is after 10, 10 is after 9, and 9 is after the text. -/
def goingRound : List Mark := [.number (.posInt 9), .string "5", .number (.posInt 10)]

/-- From each of the three marks, a fire delivers one item and goes on to another of them. -/
theorem goingRound_next : ∀ mark ∈ goingRound,
    nextMark (fun f => toString f.units) (goingRound.map markedAt) "at" mark ∈ goingRound ∧
      (cutFresh (fun f => toString f.units)
        (waitingItems (fun f => toString f.units) (goingRound.map markedAt) "at" mark)).length = 1 := by
  decide +kernel

/-- From a cursor on one of the three marks, every fire delivers something. -/
theorem goingRound_delivers (clock : Nat → Int) (hstate : state.watermark = some mark)
    (hmark : mark ∈ goingRound) (n : Nat) :
    ∃ next ∈ goingRound,
      (refire (fun f => toString f.units) (goingRound.map markedAt) "at" clock state n).2.watermark =
        some next ∧
      (refire (fun f => toString f.units) (goingRound.map markedAt) "at" clock state n).1.length =
        n := by
  induction n with
  | zero => exact ⟨mark, hmark, hstate, rfl⟩
  | succ n ih =>
    obtain ⟨now, hnow, hcursor, hlength⟩ := ih
    obtain ⟨hnext, hone⟩ := goingRound_next now hnow
    have hdiff := diffPollItems_watermark (fun f => toString f.units) (goingRound.map markedAt) "at"
      (clock n) hcursor
    refine ⟨_, hnext, ?_, ?_⟩
    · unfold refire
      dsimp only
      rw [hdiff]
    · unfold refire
      dsimp only
      rw [hdiff, List.length_append, List.length_map, hone, hlength]

/-- Of the marks 9, `5` and 10 only 10 waits behind the watermark 9, and the fires go round: after 10
comes the text, then 9, then 10 again. -/
theorem text_between_numbers_redelivered : ¬ NothingHides (fun f => toString f.units)
    (goingRound.map markedAt) "at" { watermark := some (.number (.posInt 9)) } (.number (.posInt 9))
    (fun _ => 0) := by
  intro h
  obtain ⟨enough, henough⟩ := h.complete
  have hwaiting : (waitingItems (fun f => toString f.units) (goingRound.map markedAt) "at"
      (.number (.posInt 9))).length = 1 := by decide +kernel
  have hlength := (henough (enough + 2) (by omega)).length_eq
  have hstate : ({ watermark := some (.number (.posInt 9)) } : PollCursorState).watermark =
      some (.number (.posInt 9)) := rfl
  obtain ⟨-, -, -, hcount⟩ := goingRound_delivers (fun _ => 0) hstate (by decide) (enough + 2)
  rw [hcount, List.length_map, hwaiting] at hlength
  omega

end Lightspeed.Bots
