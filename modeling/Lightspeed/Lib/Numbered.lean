import Mathlib.Data.List.Range
import Mathlib.Data.List.TakeDrop
import Mathlib.Tactic.Common

/-!
# Numbered logs

A log whose entries are numbered one after another, as a store numbers what it appends. The entries after a
number are what is left when that many have been dropped, and the entries up to a number are the first ones.
A log may be read a window at a time: a window and the one behind it are the longer window.
-/

namespace Lightspeed.Lib

variable {α : Type*} {num : α → Nat} {first after through : Nat} {x : α} {xs ys : List α}

/-- The elements are numbered one after another, from a first number on. -/
def Numbered (num : α → Nat) (first : Nat) (xs : List α) : Prop :=
  xs.map num = List.range' first xs.length

namespace Numbered

theorem nil : Numbered num first [] := rfl

theorem cons_iff : Numbered num first (x :: xs) ↔ num x = first ∧ Numbered num (first + 1) xs := by
  unfold Numbered
  rw [List.map_cons, List.length_cons, List.range'_succ, List.cons_eq_cons]

theorem append_iff : Numbered num first (xs ++ ys) ↔
    Numbered num first xs ∧ Numbered num (first + xs.length) ys := by
  induction xs generalizing first with
  | nil =>
    rw [List.nil_append, List.length_nil, Nat.add_zero]
    exact (and_iff_right nil).symm
  | cons x xs ih =>
    have hnext : first + 1 + xs.length = first + (x :: xs).length := by
      rw [List.length_cons]
      omega
    rw [List.cons_append, cons_iff, cons_iff, ih, hnext, and_assoc]

theorem take (h : Numbered num first xs) (n : Nat) : Numbered num first (xs.take n) := by
  rw [← List.take_append_drop n xs] at h
  exact (append_iff.mp h).1

theorem drop (h : Numbered num first xs) {n : Nat} (hn : n ≤ xs.length) :
    Numbered num (first + n) (xs.drop n) := by
  rw [← List.take_append_drop n xs] at h
  have hdrop := (append_iff.mp h).2
  rwa [List.length_take_of_le hn] at hdrop

theorem first_le (h : Numbered num first xs) (hx : x ∈ xs) : first ≤ num x := by
  have hmem : num x ∈ List.range' first xs.length := h ▸ List.mem_map_of_mem hx
  exact (List.mem_range'_1.mp hmem).1

/-- The last number is the first one and the length, less one. -/
theorem getLast (h : Numbered num first xs) (hx : xs.getLast? = some x) :
    num x + 1 = first + xs.length := by
  obtain ⟨front, rfl⟩ := List.getLast?_eq_some_iff.mp hx
  have hlast := cons_iff.mp (append_iff.mp h).2
  rw [hlast.1, List.length_append, List.length_singleton]
  omega

/-- What comes after a number is what is left of the log without as many. -/
theorem filter_after (h : Numbered num first xs) :
    xs.filter (fun x => after < num x) = xs.drop (after + 1 - first) := by
  induction xs generalizing first with
  | nil => rw [List.filter_nil, List.drop_nil]
  | cons x xs ih =>
    obtain ⟨hx, hxs⟩ := cons_iff.mp h
    have hrest := ih hxs
    by_cases hafter : after < num x
    · have hnone : after + 1 - first = 0 := by omega
      have hnone' : after + 1 - (first + 1) = 0 := by omega
      rw [List.filter_cons, if_pos (decide_eq_true hafter), hrest, hnone, hnone']
      rfl
    · have hskip : after + 1 - first = after + 1 - (first + 1) + 1 := by omega
      rw [List.filter_cons, if_neg (by simpa using hafter), hrest, hskip, List.drop_succ_cons]

/-- What comes up to a number is the front of the log. -/
theorem filter_through (h : Numbered num first xs) :
    xs.filter (fun x => num x ≤ through) = xs.take (through + 1 - first) := by
  induction xs generalizing first with
  | nil => rw [List.filter_nil, List.take_nil]
  | cons x xs ih =>
    obtain ⟨hx, hxs⟩ := cons_iff.mp h
    have hrest := ih hxs
    by_cases hthrough : num x ≤ through
    · have hkeep : through + 1 - first = through + 1 - (first + 1) + 1 := by omega
      rw [List.filter_cons, if_pos (decide_eq_true hthrough), hrest, hkeep, List.take_succ_cons]
    · have hnone : through + 1 - first = 0 := by omega
      have hnone' : through + 1 - (first + 1) = 0 := by omega
      rw [List.filter_cons, if_neg (by simpa using hthrough), hrest, hnone, hnone']
      rfl

end Numbered

/-- What a log numbered from one holds after one number and up to another. -/
theorem filter_between (h : Numbered num 1 xs) :
    xs.filter (fun x => after < num x ∧ num x ≤ through) = (xs.drop after).take (through - after) := by
  have hsplit : xs.filter (fun x => after < num x ∧ num x ≤ through) =
      (xs.filter fun x => num x ≤ through).filter fun x => after < num x := by
    rw [List.filter_filter]
    congr 1
    funext x
    exact Bool.decide_and _ _
  rw [hsplit, h.filter_through, (h.take _).filter_after, Nat.add_sub_cancel, Nat.add_sub_cancel,
    List.drop_take]

/-- A window of a log, and the window that begins where it ends. -/
theorem window_append (xs : List α) (start n m : Nat) :
    (xs.drop start).take n ++ (xs.drop (start + n)).take m = (xs.drop start).take (n + m) := by
  rw [List.take_add, List.drop_drop]

end Lightspeed.Lib
