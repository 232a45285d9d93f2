import Mathlib.Algebra.Order.Ring.Nat
import Mathlib.Data.List.Basic
import Mathlib.Tactic.Ring

/-!
# Fields in one text

Two ways to write several fields as one text. Behind its length in eight bytes each field can be read
back, whatever it holds. With a separator between them the fields can be read back only up to a
separator that a field holds itself: two pairs of fields read the same when one is the other, cut at
another separator.
-/

namespace Lightspeed.Lib

variable {α : Type} {sep : α} {front back front' back' : List α}

/-! ## Separators -/

/-- The first pair is the second one, cut at a later separator: what stands between the two separators
is the end of the one's front and the beginning of the other's back. -/
def CutLater (sep : α) (front back front' back' : List α) : Prop :=
  ∃ mid : List α, front = front' ++ sep :: mid ∧ back' = mid ++ sep :: back

theorem CutLater.joined (h : CutLater sep front back front' back') :
    front ++ sep :: back = front' ++ sep :: back' := by
  obtain ⟨mid, rfl, rfl⟩ := h
  rw [List.append_assoc, List.cons_append]

theorem CutLater.length_lt (h : CutLater sep front back front' back') :
    front'.length < front.length := by
  obtain ⟨mid, rfl, -⟩ := h
  rw [List.length_append, List.length_cons]
  omega

/-- Two pairs with a separator between them read the same exactly when they are the same, or one is
the other cut later. -/
theorem append_cons_eq_iff :
    front ++ sep :: back = front' ++ sep :: back' ↔
      (front = front' ∧ back = back') ∨ CutLater sep front back front' back' ∨
        CutLater sep front' back' front back := by
  constructor
  · intro h
    rcases List.append_eq_append_iff.mp h with ⟨mid, hfront, hback⟩ | ⟨mid, hfront, hback⟩
    · cases mid with
      | nil =>
        rw [List.append_nil] at hfront
        exact .inl ⟨hfront.symm, (List.cons.inj hback).2⟩
      | cons ch mid =>
        obtain ⟨hsep, hback⟩ := List.cons.inj hback
        exact .inr (.inr ⟨mid, by rw [hfront, hsep], hback⟩)
    · cases mid with
      | nil =>
        rw [List.append_nil] at hfront
        exact .inl ⟨hfront, (List.cons.inj hback).2.symm⟩
      | cons ch mid =>
        obtain ⟨hsep, hback⟩ := List.cons.inj hback
        exact .inr (.inl ⟨mid, by rw [hfront, hsep], hback⟩)
  · rintro (⟨rfl, rfl⟩ | h | h)
    · rfl
    · exact h.joined
    · exact h.joined.symm

/-! ## Lengths -/

/-- The last `width` bytes of a number, the highest first. -/
def beBytes : Nat → Nat → List UInt8
  | 0, _ => []
  | width + 1, n => UInt8.ofNat (n / 256 ^ width) :: beBytes width n

theorem length_beBytes (width n : Nat) : (beBytes width n).length = width := by
  induction width with
  | zero => rfl
  | succ width ih => rw [beBytes, List.length_cons, ih]

/-- The bytes say the number up to a multiple of what they can hold. -/
theorem mod_eq_of_beBytes {width m n : Nat} (h : beBytes width m = beBytes width n) :
    m % 256 ^ width = n % 256 ^ width := by
  induction width with
  | zero => rw [pow_zero, Nat.mod_one, Nat.mod_one]
  | succ width ih =>
    obtain ⟨hhead, htail⟩ := List.cons.inj h
    have hdigit : m / 256 ^ width % 256 = n / 256 ^ width % 256 := by
      simpa using congrArg UInt8.toNat hhead
    calc m % 256 ^ (width + 1)
        = m % 256 ^ width + 256 ^ width * (m / 256 ^ width % 256) := by rw [pow_succ, Nat.mod_mul]
      _ = n % 256 ^ width + 256 ^ width * (n / 256 ^ width % 256) := by rw [ih htail, hdigit]
      _ = n % 256 ^ (width + 1) := by rw [pow_succ, Nat.mod_mul]

/-- A field behind its length in eight bytes. -/
def frame (bytes : List UInt8) : List UInt8 := beBytes 8 bytes.length ++ bytes

/-- A field whose length fits is read back from its frame, and so is what follows it. -/
theorem frame_append_inj {a b r s : List UInt8} (ha : a.length < 2 ^ 64) (hb : b.length < 2 ^ 64)
    (h : frame a ++ r = frame b ++ s) : a = b ∧ r = s := by
  unfold frame at h
  rw [List.append_assoc, List.append_assoc] at h
  have hwidth : (beBytes 8 a.length).length = (beBytes 8 b.length).length := by
    rw [length_beBytes, length_beBytes]
  obtain ⟨hbytes, hrest⟩ := List.append_inj h hwidth
  have hmod : a.length % 256 ^ 8 = b.length % 256 ^ 8 := mod_eq_of_beBytes hbytes
  have hlength : a.length = b.length := by omega
  exact List.append_inj hrest hlength

/-- Fields whose lengths fit are read back from their frames. -/
theorem flatMap_frame_inj {xs ys : List (List UInt8)} (hxs : ∀ x ∈ xs, x.length < 2 ^ 64)
    (hys : ∀ y ∈ ys, y.length < 2 ^ 64) (hlength : xs.length = ys.length)
    (h : xs.flatMap frame = ys.flatMap frame) : xs = ys := by
  induction xs generalizing ys with
  | nil => exact (List.length_eq_zero_iff.mp hlength.symm).symm
  | cons x xs ih =>
    cases ys with
    | nil => cases hlength
    | cons y ys =>
      rw [List.flatMap_cons, List.flatMap_cons] at h
      obtain ⟨hx, hxs'⟩ := List.forall_mem_cons.mp hxs
      obtain ⟨hy, hys'⟩ := List.forall_mem_cons.mp hys
      obtain ⟨hhead, hrest⟩ := frame_append_inj hx hy h
      have htails : xs.length = ys.length := by simpa using hlength
      rw [hhead, ih hxs' hys' htails hrest]

end Lightspeed.Lib
