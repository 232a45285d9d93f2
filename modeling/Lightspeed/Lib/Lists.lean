import Mathlib.Data.List.Chain
import Mathlib.Data.List.Forall2
import Mathlib.Data.List.Sort

/-!
# Lists of versions, and logs

Facts about ordered lists from which the oldest elements are dropped, and about lists that grow at the
end.
-/

namespace Lightspeed.Lib

variable {α : Type}

/-- What a filter keeps of a list is the end of it, when whatever follows a kept element is kept. -/
theorem filter_suffix {p : α → Bool} {xs : List α}
    (h : xs.Pairwise (fun a b => p a = true → p b = true)) : xs.filter p <:+ xs := by
  induction xs with
  | nil => exact List.nil_suffix
  | cons a xs ih =>
    obtain ⟨ha, hxs⟩ := List.pairwise_cons.mp h
    by_cases hp : p a = true
    · have hall : (a :: xs).filter p = a :: xs := by
        refine List.filter_eq_self.mpr fun b hb => ?_
        rcases List.mem_cons.mp hb with rfl | hb
        · exact hp
        · exact ha b hb hp
      exact ⟨[], by rw [hall, List.nil_append]⟩
    · rw [List.filter_cons_of_neg hp]
      exact (ih hxs).trans (List.suffix_cons a xs)

/-- Without its first `n` elements, a list of distinct elements is what follows them. -/
theorem filter_notMem_take [DecidableEq α] {xs : List α} (h : xs.Nodup) (n : Nat) :
    xs.filter (fun a => a ∉ xs.take n) = xs.drop n := by
  have hsplit : (xs.take n ++ xs.drop n).Nodup := by rwa [List.take_append_drop]
  have hdisjoint := (List.nodup_append.mp hsplit).2.2
  calc xs.filter (fun a => a ∉ xs.take n)
      = (xs.take n ++ xs.drop n).filter (fun a => a ∉ xs.take n) := by rw [List.take_append_drop]
    _ = (xs.take n).filter (fun a => a ∉ xs.take n) ++
          (xs.drop n).filter (fun a => a ∉ xs.take n) := List.filter_append ..
    _ = [] ++ xs.drop n := by
      congr 1
      · refine List.filter_eq_nil_iff.mpr fun a ha => ?_
        simp [ha]
      · refine List.filter_eq_self.mpr fun a ha => ?_
        simp only [decide_eq_true_eq]
        exact fun hmem => hdisjoint a hmem a ha rfl
    _ = xs.drop n := List.nil_append _

/-- In an ordered list, what precedes one of the first `n` elements is one of them. -/
theorem mem_take_of_lt [LinearOrder α] {xs : List α} (h : xs.Pairwise (· < ·)) {n : Nat} {a b : α}
    (ha : a ∈ xs) (hlt : a < b) (hb : b ∈ xs.take n) : a ∈ xs.take n := by
  by_contra hnot
  have hmem : a ∈ xs.drop n := by
    rw [← List.take_append_drop n xs, List.mem_append] at ha
    exact ha.resolve_left hnot
  have hsplit : (xs.take n ++ xs.drop n).Pairwise (· < ·) := by rwa [List.take_append_drop]
  exact absurd ((List.pairwise_append.mp hsplit).2.2 b hb a hmem) hlt.not_gt

/-- Of two elements of a list of distinct ones, the one that comes first has the smaller index. -/
theorem idxOf_lt_of_sublist [DecidableEq α] {xs : List α} {a b : α} (h : [a, b].Sublist xs)
    (hnodup : xs.Nodup) : xs.idxOf a < xs.idxOf b := by
  induction xs with
  | nil => cases h
  | cons x xs ih =>
    obtain ⟨hx, hxs⟩ := List.nodup_cons.mp hnodup
    have hne : ∀ y ∈ xs, x ≠ y := fun y hy heq => hx (heq ▸ hy)
    cases h with
    | cons _ h =>
      rw [List.idxOf_cons_ne _ (hne a (h.subset (by simp))),
        List.idxOf_cons_ne _ (hne b (h.subset (by simp)))]
      exact Nat.succ_lt_succ (ih h hxs)
    | cons_cons _ h =>
      rw [List.idxOf_cons_self, List.idxOf_cons_ne _ (hne b (h.subset (by simp)))]
      exact Nat.succ_pos _

/-- Where an element stands in a list that has grown by one. -/
theorem snoc_eq_append_cons {xs before after : List α} {a b : α} :
    xs ++ [a] = before ++ b :: after ↔
      (∃ rest, after = rest ++ [a] ∧ xs = before ++ b :: rest) ∨
        after = [] ∧ b = a ∧ before = xs := by
  constructor
  · intro h
    cases after using List.reverseRecOn with
    | nil =>
      obtain ⟨rfl, hlast⟩ := List.append_inj' h rfl
      exact .inr ⟨rfl, (List.cons.inj hlast).1.symm, rfl⟩
    | append_singleton rest c =>
      rw [← List.cons_append, ← List.append_assoc] at h
      obtain ⟨hxs, hlast⟩ := List.append_inj' h rfl
      exact .inl ⟨rest, by rw [(List.cons.inj hlast).1], hxs⟩
  · rintro (⟨rest, rfl, rfl⟩ | ⟨rfl, rfl, rfl⟩)
    · simp
    · rfl

/-- What every step of a loop preserves, the whole loop preserves, when no step fails. -/
theorem foldlM_some_preserves {σ : Type} {f : σ → α → Option σ} {P : σ → Prop} {xs : List α} {s t : σ}
    (hstep : ∀ a b x, f a x = some b → P a → P b) (h : xs.foldlM f s = some t) (hs : P s) : P t := by
  induction xs generalizing s with
  | nil =>
    cases h
    exact hs
  | cons x xs ih =>
    rw [List.foldlM_cons] at h
    obtain ⟨m, hm, h⟩ := Option.bind_eq_some_iff.mp h
    exact ih h (hstep s m x hm hs)

end Lightspeed.Lib
