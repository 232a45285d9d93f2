import Mathlib.Tactic.Common

/-!
# Lists cut at a separator

The parts of a list between its separators have none in them, and nothing that the list does not have.
-/

namespace Lightspeed.Lib

variable {α : Type} [DecidableEq α] {sep x : α} {xs part : List α}

/-- The parts of a longer list: the separator begins a new part, another element joins the first one. -/
theorem mem_splitOn_cons (h : part ∈ (x :: xs).splitOn sep) :
    part = [] ∧ x = sep ∨ part ∈ xs.splitOn sep ∨ x ≠ sep ∧ ∃ rest ∈ xs.splitOn sep, part = x :: rest := by
  rw [List.splitOn_cons_eq_if_modifyHead] at h
  split_ifs at h with hsep
  · have heq : x = sep := beq_iff_eq.mp hsep
    rcases List.mem_cons.mp h with hnil | hlater
    · exact Or.inl ⟨hnil, heq⟩
    · exact Or.inr (Or.inl hlater)
  · have hne : x ≠ sep := fun heq => hsep (beq_iff_eq.mpr heq)
    cases hparts : xs.splitOn sep with
    | nil => exact absurd hparts (List.splitOn_ne_nil _ _)
    | cons first rest =>
      rw [hparts] at h
      rcases List.mem_cons.mp h with hfirst | hlater
      · exact Or.inr (Or.inr ⟨hne, first, List.mem_cons_self, hfirst⟩)
      · exact Or.inr (Or.inl (List.mem_cons_of_mem _ hlater))

theorem not_mem_of_mem_splitOn (h : part ∈ xs.splitOn sep) : sep ∉ part := by
  induction xs generalizing part with
  | nil =>
    rw [List.splitOn_nil, List.mem_singleton] at h
    rw [h]
    exact List.not_mem_nil
  | cons x xs ih =>
    rcases mem_splitOn_cons h with ⟨rfl, -⟩ | hlater | ⟨hne, rest, hrest, rfl⟩
    · exact List.not_mem_nil
    · exact ih hlater
    · exact List.not_mem_cons_of_ne_of_not_mem hne.symm (ih hrest)

theorem subset_of_mem_splitOn (h : part ∈ xs.splitOn sep) : part ⊆ xs := by
  induction xs generalizing part with
  | nil =>
    rw [List.splitOn_nil, List.mem_singleton] at h
    exact List.subset_nil.mpr h
  | cons x xs ih =>
    rcases mem_splitOn_cons h with ⟨rfl, -⟩ | hlater | ⟨-, rest, hrest, rfl⟩
    · exact List.nil_subset _
    · exact List.subset_cons_of_subset x (ih hlater)
    · exact List.cons_subset_cons x (ih hrest)

end Lightspeed.Lib
