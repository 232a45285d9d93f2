import Mathlib.Order.MinMax
import Mathlib.Data.List.TakeWhile
import Mathlib.Data.List.Pairwise
import Mathlib.Tactic.Common
import Mathlib.Tactic.Order

/-!
# Sets of points kept as ranges

A set of points of a linear order, kept as a list of half-open ranges in which each range ends before the next
one begins. Adding a range absorbs the ranges it touches: the points are those of both, and the list is again of
that form, so that two ranges are never adjacent.
-/

namespace Lightspeed.Lib

variable {α : Type*} [LinearOrder α] {start stop low high x : α} {range : α × α} {ranges : List (α × α)}

/-- The point is in one of the ranges. -/
def Covered (ranges : List (α × α)) (x : α) : Prop := ∃ range ∈ ranges, range.1 ≤ x ∧ x < range.2

/-- Sorted, disjoint and non-adjacent ranges, none of them empty. -/
structure Spread (ranges : List (α × α)) : Prop where
  proper : ∀ range ∈ ranges, range.1 < range.2
  gapped : ranges.Pairwise (fun range later => range.2 < later.1)

@[simp] theorem not_covered_nil : ¬ Covered ([] : List (α × α)) x := by simp [Covered]

@[simp] theorem covered_cons :
    Covered (range :: ranges) x ↔ (range.1 ≤ x ∧ x < range.2) ∨ Covered ranges x := by
  simp [Covered]

@[simp] theorem covered_append {earlier later : List (α × α)} :
    Covered (earlier ++ later) x ↔ Covered earlier x ∨ Covered later x := by
  simp only [Covered, List.mem_append, or_and_right, exists_or]

namespace Spread

theorem nil : Spread ([] : List (α × α)) := ⟨by simp, List.Pairwise.nil⟩

theorem cons_iff : Spread (range :: ranges) ↔
    range.1 < range.2 ∧ (∀ later ∈ ranges, range.2 < later.1) ∧ Spread ranges := by
  constructor
  · intro h
    obtain ⟨hgaps, hrest⟩ := List.pairwise_cons.mp h.gapped
    refine ⟨h.proper range List.mem_cons_self, hgaps, ⟨?_, hrest⟩⟩
    intro later hlater
    exact h.proper later (List.mem_cons_of_mem _ hlater)
  · rintro ⟨hproper, hgaps, hrest⟩
    refine ⟨?_, List.pairwise_cons.mpr ⟨hgaps, hrest.gapped⟩⟩
    intro later hlater
    rcases List.mem_cons.mp hlater with rfl | hlater
    · exact hproper
    · exact hrest.proper later hlater

theorem append_iff {earlier later : List (α × α)} : Spread (earlier ++ later) ↔
    Spread earlier ∧ Spread later ∧ ∀ range ∈ earlier, ∀ next ∈ later, range.2 < next.1 := by
  constructor
  · intro h
    obtain ⟨hearlier, hlater, hacross⟩ := List.pairwise_append.mp h.gapped
    refine ⟨⟨?_, hearlier⟩, ⟨?_, hlater⟩, hacross⟩
    · exact fun range hrange => h.proper range (List.mem_append_left _ hrange)
    · exact fun range hrange => h.proper range (List.mem_append_right _ hrange)
  · rintro ⟨hearlier, hlater, hacross⟩
    refine ⟨?_, List.pairwise_append.mpr ⟨hearlier.gapped, hlater.gapped, hacross⟩⟩
    intro range hrange
    rcases List.mem_append.mp hrange with hrange | hrange
    · exact hearlier.proper range hrange
    · exact hlater.proper range hrange

theorem filter (h : Spread ranges) (p : α × α → Bool) : Spread (ranges.filter p) :=
  ⟨fun range hrange => h.proper range (List.mem_filter.mp hrange).1, h.gapped.filter p⟩

end Spread

/-- The ranges after the new one begins that it touches become part of it. -/
def absorb (merged : α × α) : List (α × α) → List (α × α)
  | [] => [merged]
  | range :: rest =>
    if merged.2 < range.1 then merged :: range :: rest
    else absorb (min merged.1 range.1, max merged.2 range.2) rest

/-- Add a range; an empty one adds nothing. -/
def addRange (start stop : α) (ranges : List (α × α)) : List (α × α) :=
  if stop ≤ start then ranges
  else
    ranges.takeWhile (fun range => range.2 < start) ++
      absorb (start, stop) (ranges.dropWhile (fun range => range.2 < start))

section Absorb

variable {merged : α × α}

/-- The points of both: what is absorbed touches the range it becomes part of. -/
theorem covered_absorb (hmerged : merged.1 < merged.2) (hspread : Spread ranges)
    (htouch : ∀ range ∈ ranges, merged.1 ≤ range.2) :
    Covered (absorb merged ranges) x ↔ (merged.1 ≤ x ∧ x < merged.2) ∨ Covered ranges x := by
  induction ranges generalizing merged with
  | nil => simp [absorb]
  | cons range rest ih =>
    obtain ⟨hproper, hgaps, hrest⟩ := Spread.cons_iff.mp hspread
    have hreaches : merged.1 ≤ range.2 := htouch range List.mem_cons_self
    unfold absorb
    by_cases hapart : merged.2 < range.1
    · rw [if_pos hapart, covered_cons]
    · have hmeets : range.1 ≤ merged.2 := not_lt.mp hapart
      have hgrown : min merged.1 range.1 < max merged.2 range.2 := lt_max_of_lt_left (min_lt_of_left_lt hmerged)
      have htouches : ∀ later ∈ rest, min merged.1 range.1 ≤ later.2 := by
        intro later hlater
        have hlaterProper := hrest.proper later hlater
        have hafter := hgaps later hlater
        exact le_trans (min_le_right _ _) (by order)
      rw [if_neg hapart, ih hgrown hrest htouches, covered_cons, ← or_assoc]
      apply or_congr_left
      show min merged.1 range.1 ≤ x ∧ x < max merged.2 range.2 ↔ _
      rw [min_le_iff, lt_max_iff]
      constructor
      · rintro ⟨hlow | hlow, hhigh | hhigh⟩
        · exact Or.inl ⟨hlow, hhigh⟩
        · rcases lt_or_ge x merged.2 with hbelow | habove
          · exact Or.inl ⟨hlow, hbelow⟩
          · exact Or.inr ⟨by order, hhigh⟩
        · rcases lt_or_ge x range.2 with hbelow | habove
          · exact Or.inr ⟨hlow, hbelow⟩
          · exact Or.inl ⟨by order, hhigh⟩
        · exact Or.inr ⟨hlow, hhigh⟩
      · rintro (⟨hlow, hhigh⟩ | ⟨hlow, hhigh⟩)
        · exact ⟨Or.inl hlow, Or.inl hhigh⟩
        · exact ⟨Or.inr hlow, Or.inr hhigh⟩

/-- What is absorbed begins and ends as the ranges that it is made of do, as far as minima and maxima do. -/
theorem absorb_all {P Q : α → Prop} (hmin : ∀ a b, P a → P b → P (min a b)) (hmax : ∀ a b, Q a → Q b → Q (max a b))
    (hmerged : P merged.1 ∧ Q merged.2) (hranges : ∀ range ∈ ranges, P range.1 ∧ Q range.2) :
    ∀ range ∈ absorb merged ranges, P range.1 ∧ Q range.2 := by
  induction ranges generalizing merged with
  | nil =>
    intro range hrange
    rw [absorb, List.mem_singleton] at hrange
    rwa [hrange]
  | cons first rest ih =>
    have hfirst := hranges first List.mem_cons_self
    have hrest : ∀ range ∈ rest, P range.1 ∧ Q range.2 :=
      fun range hrange => hranges range (List.mem_cons_of_mem _ hrange)
    unfold absorb
    split_ifs with hapart
    · intro range hrange
      rcases List.mem_cons.mp hrange with rfl | hrange
      · exact hmerged
      · exact hranges range hrange
    · exact ih ⟨hmin _ _ hmerged.1 hfirst.1, hmax _ _ hmerged.2 hfirst.2⟩ hrest

theorem spread_absorb (hmerged : merged.1 < merged.2) (hspread : Spread ranges) :
    Spread (absorb merged ranges) := by
  induction ranges generalizing merged with
  | nil => exact Spread.cons_iff.mpr ⟨hmerged, by simp, Spread.nil⟩
  | cons range rest ih =>
    obtain ⟨hproper, hgaps, hrest⟩ := Spread.cons_iff.mp hspread
    unfold absorb
    split_ifs with hapart
    · refine Spread.cons_iff.mpr ⟨hmerged, ?_, hspread⟩
      intro later hlater
      rcases List.mem_cons.mp hlater with rfl | hlater
      · exact hapart
      · have hafter := hgaps later hlater
        order
    · exact ih (lt_max_of_lt_left (min_lt_of_left_lt hmerged)) hrest

end Absorb

/-- The ranges that end before a point come first. -/
theorem Spread.dropWhile_reach (h : Spread ranges) :
    ∀ range ∈ ranges.dropWhile (fun range => range.2 < start), start ≤ range.2 := by
  induction ranges with
  | nil => simp
  | cons first rest ih =>
    obtain ⟨hproper, hgaps, hrest⟩ := Spread.cons_iff.mp h
    by_cases hbefore : first.2 < start
    · rw [List.dropWhile_cons_of_pos (by simpa using hbefore)]
      exact ih hrest
    · rw [List.dropWhile_cons_of_neg (by simpa using hbefore)]
      intro range hrange
      rcases List.mem_cons.mp hrange with rfl | hrange
      · exact not_lt.mp hbefore
      · have hafter := hgaps range hrange
        have hrangeProper := hrest.proper range hrange
        order

/-- Adding a range adds its points. -/
theorem covered_addRange (h : Spread ranges) :
    Covered (addRange start stop ranges) x ↔ (start ≤ x ∧ x < stop) ∨ Covered ranges x := by
  unfold addRange
  split_ifs with hempty
  · have hnone : ¬ (start ≤ x ∧ x < stop) := by
      rintro ⟨hlow, hhigh⟩
      order
    rw [or_iff_right hnone]
  · have hsplit := List.takeWhile_append_dropWhile (p := fun range : α × α => range.2 < start) (l := ranges)
    have hdropped : Spread (ranges.dropWhile (fun range => range.2 < start)) := by
      rw [← hsplit] at h
      exact (Spread.append_iff.mp h).2.1
    rw [covered_append, covered_absorb (not_le.mp hempty) hdropped h.dropWhile_reach, or_left_comm]
    apply or_congr_right
    rw [← covered_append, hsplit]

/-- The ranges stay sorted, disjoint and non-adjacent. -/
theorem Spread.addRange (h : Spread ranges) : Spread (addRange start stop ranges) := by
  unfold Lib.addRange
  split_ifs with hempty
  · exact h
  · have hsplit := h
    rw [← List.takeWhile_append_dropWhile (p := fun range : α × α => range.2 < start) (l := ranges)] at hsplit
    obtain ⟨htaken, hdropped, hacross⟩ := Spread.append_iff.mp hsplit
    refine Spread.append_iff.mpr ⟨htaken, spread_absorb (not_le.mp hempty) hdropped, ?_⟩
    intro range hrange
    have hbefore : range.2 < start := by simpa using List.mem_takeWhile_imp hrange
    intro later hlater
    exact (absorb_all (P := (range.2 < ·)) (Q := fun _ => True) (fun _ _ => lt_min) (fun _ _ _ _ => trivial)
      ⟨hbefore, trivial⟩ (fun other hother => ⟨hacross range hrange other hother, trivial⟩) later hlater).1

/-- The ranges stay within the bounds of the old ones and the new one. -/
theorem addRange_within (hnew : low ≤ start ∧ stop ≤ high)
    (hranges : ∀ range ∈ ranges, low ≤ range.1 ∧ range.2 ≤ high) :
    ∀ range ∈ addRange start stop ranges, low ≤ range.1 ∧ range.2 ≤ high := by
  unfold addRange
  split_ifs
  · exact hranges
  · intro range hrange
    rcases List.mem_append.mp hrange with htaken | habsorbed
    · exact hranges range ((List.takeWhile_sublist _).subset htaken)
    · exact absorb_all (P := (low ≤ ·)) (Q := (· ≤ high)) (fun _ _ => le_min) (fun _ _ => max_le) hnew
        (fun range hrange => hranges range ((List.dropWhile_sublist _).subset hrange)) range habsorbed

/-! ## Pieces in a row -/

section Tiles

variable {β : Type*} {first last : β → α} {piece : β} {pieces earlier later : List β}

/-- The pieces lie one after another from a point to another, each of them begins where the one before it ends,
and none of them is empty. -/
def Tiles (first last : β → α) : α → List β → α → Prop
  | start, [], stop => start = stop
  | start, piece :: pieces, stop => first piece = start ∧ start < last piece ∧ Tiles first last (last piece) pieces stop

theorem tiles_append : Tiles first last start (earlier ++ later) stop ↔
    ∃ middle, Tiles first last start earlier middle ∧ Tiles first last middle later stop := by
  induction earlier generalizing start with
  | nil => exact ⟨fun h => ⟨start, rfl, h⟩, fun ⟨_, hsame, h⟩ => hsame ▸ h⟩
  | cons piece earlier ih =>
    constructor
    · rintro ⟨hfirst, hlast, hrest⟩
      obtain ⟨middle, hearlier, hlater⟩ := ih.mp hrest
      exact ⟨middle, ⟨hfirst, hlast, hearlier⟩, hlater⟩
    · rintro ⟨middle, ⟨hfirst, hlast, hearlier⟩, hlater⟩
      exact ⟨hfirst, hlast, ih.mpr ⟨middle, hearlier, hlater⟩⟩

theorem tiles_singleton : Tiles first last start [piece] stop ↔
    first piece = start ∧ start < last piece ∧ last piece = stop := Iff.rfl

theorem Tiles.le (h : Tiles first last start pieces stop) : start ≤ stop := by
  induction pieces generalizing start with
  | nil => exact le_of_eq h
  | cons piece pieces ih =>
    obtain ⟨-, hlast, hrest⟩ := h
    exact le_trans hlast.le (ih hrest)

/-- Every piece is proper and ends by where the last one does. -/
theorem Tiles.mem (h : Tiles first last start pieces stop) (hpiece : piece ∈ pieces) :
    first piece < last piece ∧ last piece ≤ stop := by
  obtain ⟨earlier, later, rfl⟩ := List.append_of_mem hpiece
  obtain ⟨middle, -, hfirst, hlast, hrest⟩ := tiles_append.mp h
  exact ⟨hfirst.trans_lt hlast, hrest.le⟩

end Tiles

end Lightspeed.Lib
