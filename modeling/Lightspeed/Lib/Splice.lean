import Mathlib.Algebra.Order.Group.Multiset
import Mathlib.Data.List.Sort
import Mathlib.Data.List.TakeDrop
import Mathlib.Tactic.Abel

/-!
# Edits by index, and the splice

An edit puts new elements in the place of a block of a list, which it names by its index. Edits of one list
that are apart are made from the last to the first: an edit then leaves the indices of the ones to come as
they were, and all of them together are a splice, which walks the list once.
-/

namespace Lightspeed.Lib

variable {α : Type}

/-- New elements in the place of the block of `len` elements from `start` on. -/
structure Edit (α : Type) where
  start : Nat
  len : Nat
  new : List α
  deriving DecidableEq

namespace Edit

variable {e e' : Edit α} {edits : List (Edit α)} {xs : List α}

/-- The end of the block. -/
def stop (e : Edit α) : Nat := e.start + e.len

theorem start_le_stop (e : Edit α) : e.start ≤ e.stop := Nat.le_add_right ..

/-- One edit of a list. -/
def apply (e : Edit α) (xs : List α) : List α := xs.take e.start ++ e.new ++ xs.drop e.stop

/-- The block that an edit takes out of a list. -/
def block (e : Edit α) (xs : List α) : List α := (xs.drop e.start).take e.len

theorem block_append_drop (e : Edit α) (xs : List α) :
    e.block xs ++ xs.drop e.stop = xs.drop e.start := by
  have hdrop : xs.drop e.stop = (xs.drop e.start).drop e.len := by rw [List.drop_drop, stop]
  rw [block, hdrop, List.take_append_drop]

/-- The edit's block ends before the other's begins. -/
def Before (e e' : Edit α) : Prop := e.stop ≤ e'.start

/-- All edits made at once, from `pos` on: what is between the blocks stays, and each block is replaced. -/
def splice (xs : List α) : Nat → List (Edit α) → List α
  | pos, [] => xs.drop pos
  | pos, e :: rest => (xs.drop pos).take (e.start - pos) ++ e.new ++ splice xs e.stop rest

/-- Up to the next block, nothing changes. -/
theorem drop_eq_take_append {pos i : Nat} (h : pos ≤ i) (xs : List α) :
    xs.drop pos = (xs.drop pos).take (i - pos) ++ xs.drop i := by
  have hdrop : xs.drop i = (xs.drop pos).drop (i - pos) := by
    rw [List.drop_drop]
    congr 1
    omega
  rw [hdrop, List.take_append_drop]

/-- Edits that are apart, made from the last to the first, are the splice. -/
theorem foldr_apply {pos : Nat} (hfirst : ∀ e ∈ edits, pos ≤ e.start)
    (hapart : edits.Pairwise Before) (hrange : ∀ e ∈ edits, e.stop ≤ xs.length)
    (hpos : pos ≤ xs.length) :
    edits.foldr apply xs = xs.take pos ++ splice xs pos edits := by
  induction edits generalizing pos with
  | nil => exact (List.take_append_drop pos xs).symm
  | cons e rest ih =>
    obtain ⟨hbefore, hrest⟩ := List.pairwise_cons.mp hapart
    have hstop : e.stop ≤ xs.length := hrange e List.mem_cons_self
    have hstart : pos ≤ e.start := hfirst e List.mem_cons_self
    have hle := e.start_le_stop
    have hlength : (xs.take e.stop).length = e.stop := List.length_take_of_le hstop
    have htake : xs.take e.start = xs.take pos ++ (xs.drop pos).take (e.start - pos) := by
      rw [← List.take_add]
      congr 1
      omega
    rw [List.foldr_cons, ih hbefore hrest (fun e' hmem => hrange e' (List.mem_cons_of_mem _ hmem)) hstop]
    calc (xs.take e.stop ++ splice xs e.stop rest).take e.start ++ e.new ++
          (xs.take e.stop ++ splice xs e.stop rest).drop e.stop
        = xs.take e.start ++ e.new ++ splice xs e.stop rest := by
          rw [List.take_append_of_le_length (hlength.symm ▸ hle), List.take_take, Nat.min_eq_left hle,
            List.drop_append_of_le_length (le_of_eq hlength.symm), List.drop_take_self, List.nil_append]
      _ = xs.take pos ++ splice xs pos (e :: rest) := by
          rw [htake, splice, List.append_assoc, List.append_assoc, List.append_assoc]

/-- What a splice leaves out is the blocks, and what it brings in is the new elements. -/
theorem splice_perm {pos : Nat} (hfirst : ∀ e ∈ edits, pos ≤ e.start) (hapart : edits.Pairwise Before) :
    (splice xs pos edits ++ edits.flatMap fun e => e.block xs).Perm
      (xs.drop pos ++ edits.flatMap Edit.new) := by
  induction edits generalizing pos with
  | nil => exact .refl _
  | cons e rest ih =>
    obtain ⟨hbefore, hrest⟩ := List.pairwise_cons.mp hapart
    have hstart : pos ≤ e.start := hfirst e List.mem_cons_self
    have hsplit : xs.drop pos =
        (xs.drop pos).take (e.start - pos) ++ (e.block xs ++ xs.drop e.stop) := by
      rw [block_append_drop]
      exact drop_eq_take_append hstart xs
    have ih := Multiset.coe_eq_coe.mpr (ih hbefore hrest)
    refine Multiset.coe_eq_coe.mp ?_
    rw [List.flatMap_cons, List.flatMap_cons, splice]
    generalize (xs.drop pos).take (e.start - pos) = kept at hsplit ⊢
    rw [hsplit]
    simp only [← Multiset.coe_add] at ih ⊢
    calc (kept : Multiset α) + e.new + splice xs e.stop rest +
          (e.block xs + (rest.flatMap fun e => e.block xs))
        = kept + e.new + e.block xs + (splice xs e.stop rest + (rest.flatMap fun e => e.block xs)) := by
          abel
      _ = kept + e.new + e.block xs + (xs.drop e.stop + rest.flatMap Edit.new) := by rw [ih]
      _ = kept + (e.block xs + xs.drop e.stop) + (e.new + rest.flatMap Edit.new) := by abel

/-! ## Edits in the order of their indices -/

/-- The one edit ends before the other begins, or the other ends before it and also begins before it. -/
def Apart (e e' : Edit α) : Prop := e.Before e' ∨ e'.Before e ∧ e'.start < e.start

def startsBefore (e e' : Edit α) : Prop := e.start ≤ e'.start

instance : DecidableRel (@startsBefore α) := fun e e' =>
  inferInstanceAs (Decidable (e.start ≤ e'.start))

theorem before_of_startsBefore (hapart : e.Apart e') (hle : e.start ≤ e'.start) : e.Before e' := by
  rcases hapart with hbefore | ⟨-, hlt⟩
  · exact hbefore
  · omega

theorem before_of_not_startsBefore (hapart : e.Apart e') (hlt : e'.start < e.start) : e'.Before e := by
  have hle := e.start_le_stop
  rcases hapart with hbefore | ⟨hbefore, -⟩
  · unfold Before at hbefore
    omega
  · exact hbefore

/-- An edit that is apart from the ones in order finds its place among them. -/
theorem pairwise_orderedInsert (hall : ∀ e' ∈ edits, e.Apart e') (hapart : edits.Pairwise Before) :
    (edits.orderedInsert startsBefore e).Pairwise Before := by
  induction edits with
  | nil => exact List.pairwise_singleton ..
  | cons first rest ih =>
    obtain ⟨hfirst, hrest⟩ := List.pairwise_cons.mp hapart
    by_cases hle : e.startsBefore first
    · rw [List.orderedInsert_cons_of_le _ _ hle]
      refine List.pairwise_cons.mpr ⟨fun e' hmem => ?_, hapart⟩
      have hstart : e.start ≤ e'.start := by
        rcases List.mem_cons.mp hmem with rfl | hmem
        · exact hle
        · exact hle.trans (first.start_le_stop.trans (hfirst e' hmem))
      exact before_of_startsBefore (hall e' hmem) hstart
    · rw [List.orderedInsert_of_not_le _ _ hle]
      refine List.pairwise_cons.mpr ⟨fun e' hmem => ?_,
        ih (fun e' hmem => hall e' (List.mem_cons_of_mem _ hmem)) hrest⟩
      rcases (List.mem_orderedInsert ..).mp hmem with rfl | hmem
      · exact before_of_not_startsBefore (hall first List.mem_cons_self) (not_le.mp hle)
      · exact hfirst e' hmem

/-- Edits that are apart in the order in which they were found are apart in the order of their indices. -/
theorem pairwise_insertionSort (hapart : edits.Pairwise Apart) :
    (edits.insertionSort startsBefore).Pairwise Before := by
  induction edits with
  | nil => exact .nil
  | cons e rest ih =>
    obtain ⟨hfirst, hrest⟩ := List.pairwise_cons.mp hapart
    refine pairwise_orderedInsert (fun e' hmem => ?_) (ih hrest)
    exact hfirst e' ((List.mem_insertionSort ..).mp hmem)

end Edit

end Lightspeed.Lib
