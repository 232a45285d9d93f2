import Mathlib.Data.List.Infix

/-!
# A cell with a revision

Every change of a cell moves its revision by one. What was read of a cell is what the cell was after some
of its changes, and when the revisions agree it is what the cell is now: a change that is conditional on
the revision it read applies to the value it read.
-/

namespace Lightspeed.Lib

variable {σ : Type}

structure Versioned (σ : Type) where
  value : σ
  revision : Nat

namespace Versioned

variable {base v w : Versioned σ} {changes front : List σ} {value : σ}

/-- The cell after some changes. -/
def after (base : Versioned σ) (changes : List σ) : Versioned σ :=
  ⟨changes.getLast?.getD base.value, base.revision + changes.length⟩

/-- One more change. -/
def change (v : Versioned σ) (value : σ) : Versioned σ := ⟨value, v.revision + 1⟩

theorem after_concat : base.after (changes ++ [value]) = (base.after changes).change value := by
  unfold after change
  rw [List.getLast?_concat, Option.getD_some, List.length_append]
  rfl

/-- What the cell was after some of its changes. -/
def SeenIn (v base : Versioned σ) (changes : List σ) : Prop :=
  ∃ front, front <+: changes ∧ v = base.after front

theorem seenIn_after : (base.after changes).SeenIn base changes := ⟨changes, List.prefix_rfl, rfl⟩

/-- What was seen stays seen. -/
theorem SeenIn.concat (h : v.SeenIn base changes) : v.SeenIn base (changes ++ [value]) := by
  obtain ⟨front, hfront, rfl⟩ := h
  exact ⟨front, hfront.trans (List.prefix_append _ _), rfl⟩

/-- What was seen at the current revision is current. -/
theorem SeenIn.eq_after (h : v.SeenIn base changes)
    (hrevision : v.revision = (base.after changes).revision) : v = base.after changes := by
  obtain ⟨front, hfront, rfl⟩ := h
  have hlength : front.length = changes.length := Nat.add_left_cancel hrevision
  rw [hfront.eq_of_length hlength]

end Versioned

end Lightspeed.Lib
