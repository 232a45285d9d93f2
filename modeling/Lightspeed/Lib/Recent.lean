import Mathlib.Data.List.Dedup
import Mathlib.Data.List.TakeWhile
import Mathlib.Tactic.Common

/-!
# The newest elements of a list

How many elements a list has after the last occurrence of one, and what of a list is left when only its
newest distinct elements are kept.
-/

namespace Lightspeed.Lib

variable {α : Type} [DecidableEq α] {a : α} {l front back : List α}

/-- The number of elements after the last occurrence of one; all of them when there is none. -/
def newer (l : List α) (a : α) : Nat := (l.reverse.takeWhile (· ≠ a)).length

/-- What does not hold an element is taken whole in the search for it. -/
theorem takeWhile_ne_reverse (h : a ∉ l) : l.reverse.takeWhile (· ≠ a) = l.reverse := by
  rw [List.takeWhile_eq_self_iff]
  intro b hb
  have hne : b ≠ a := fun hba => h (hba ▸ List.mem_reverse.mp hb)
  exact decide_eq_true hne

theorem newer_append_of_mem (h : a ∈ back) : newer (front ++ back) a = newer back a := by
  unfold newer
  rw [List.reverse_append, List.takeWhile_append]
  split_ifs with hlength
  · -- The back holds `a`, so it is not taken whole.
    exfalso
    have hall : back.reverse.takeWhile (· ≠ a) = back.reverse :=
      (List.takeWhile_prefix _).eq_of_length hlength
    rw [List.takeWhile_eq_self_iff] at hall
    simpa using hall a (List.mem_reverse.mpr h)
  · rfl

theorem newer_append_of_notMem (h : a ∉ back) : newer (front ++ back) a = newer front a + back.length := by
  have hall := takeWhile_ne_reverse h
  unfold newer
  rw [List.reverse_append, List.takeWhile_append, if_pos (congrArg List.length hall),
    List.length_append, List.length_reverse, Nat.add_comm]

theorem newer_cons_self (h : a ∉ l) : newer (a :: l) a = l.length := by
  have hsplit : newer ([a] ++ l) a = newer [a] a + l.length := newer_append_of_notMem h
  have hself : newer [a] a = 0 := by simp [newer]
  rwa [hself, Nat.zero_add] at hsplit

/-- The last occurrence of an element. -/
theorem exists_last_occurrence (h : a ∈ l) : ∃ front back, l = front ++ a :: back ∧ a ∉ back := by
  induction l with
  | nil => cases h
  | cons b rest ih =>
    by_cases hrest : a ∈ rest
    · obtain ⟨front, back, hsplit, hback⟩ := ih hrest
      exact ⟨b :: front, back, by rw [hsplit, List.cons_append], hback⟩
    · obtain rfl : a = b := (List.mem_cons.mp h).resolve_right hrest
      exact ⟨[], rest, rfl, hrest⟩

/-- An element with fewer than `n` newer ones is among the newest `n`, with as many newer ones. -/
theorem mem_drop_of_newer {n : Nat} (h : a ∈ l) (hlt : newer l a < n) :
    a ∈ l.drop (l.length - n) ∧ newer (l.drop (l.length - n)) a = newer l a := by
  obtain ⟨front, back, rfl, hback⟩ := exists_last_occurrence h
  have hnewer : newer (front ++ a :: back) a = back.length := by
    rw [newer_append_of_mem List.mem_cons_self, newer_cons_self hback]
  rw [hnewer] at hlt ⊢
  have hle : (front ++ a :: back).length - n ≤ front.length := by
    rw [List.length_append, List.length_cons]
    omega
  rw [List.drop_append_of_le_length hle]
  refine ⟨List.mem_append_right _ List.mem_cons_self, ?_⟩
  rw [newer_append_of_mem List.mem_cons_self, newer_cons_self hback]

/-- The last occurrences of a list that has something in front are those of the list, with more in
front. -/
theorem dedup_suffix_append (front back : List α) : back.dedup <:+ (front ++ back).dedup := by
  induction front with
  | nil => exact List.suffix_rfl
  | cons b front ih =>
    rw [List.cons_append]
    by_cases hb : b ∈ front ++ back
    · rwa [List.dedup_cons_of_mem hb]
    · rw [List.dedup_cons_of_notMem hb]
      exact ih.trans (List.suffix_cons _ _)

/-- Without repetitions an element has no more newer ones. -/
theorem newer_dedup_le (h : a ∈ l) : newer l.dedup a ≤ newer l a := by
  obtain ⟨front, back, rfl, hback⟩ := exists_last_occurrence h
  obtain ⟨more, hmore⟩ := dedup_suffix_append front (a :: back)
  have hcons : (a :: back).dedup = a :: back.dedup := List.dedup_cons_of_notMem hback
  have hdedup : a ∉ back.dedup := fun hmem => hback (List.mem_dedup.mp hmem)
  rw [← hmore, hcons, newer_append_of_mem List.mem_cons_self, newer_cons_self hdedup,
    newer_append_of_mem List.mem_cons_self, newer_cons_self hback]
  exact (List.dedup_sublist back).length_le

end Lightspeed.Lib
