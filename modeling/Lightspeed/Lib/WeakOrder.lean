import Mathlib.Data.List.Perm.Basic
import Mathlib.Data.Set.Basic

/-!
# Taking a list in order, a part at a time

A relation that is asymmetric and negatively transitive on some marks orders them up to ties. Items with
such marks can be taken a part at a time: those after a mark, up to a threshold, with the highest mark
that was taken as the next one to start from. Nothing is left behind, and nothing is taken twice.
-/

namespace Lightspeed.Lib

variable {α β : Type}

/-- A strict weak order on some of the elements. -/
structure WeakOn (after : α → α → Bool) (s : Set α) : Prop where
  asymm : ∀ a ∈ s, ∀ b ∈ s, after a b = true → after b a = false
  /-- Of two elements in order, a third comes before the one or after the other. -/
  cotrans : ∀ a ∈ s, ∀ b ∈ s, ∀ c ∈ s, after a c = true → after a b = true ∨ after b c = true

namespace WeakOn

variable {after : α → α → Bool} {s t : Set α} {a b c : α}

theorem irrefl (h : WeakOn after s) (ha : a ∈ s) : after a a = false := by
  cases hself : after a a with
  | false => rfl
  | true => rw [← hself, h.asymm a ha a ha hself]

/-- What is after an element is after what that element is not before. -/
theorem after_of_not_after (h : WeakOn after s) (ha : a ∈ s) (hb : b ∈ s) (hc : c ∈ s)
    (hac : after a c = true) (hbc : after b c = false) : after a b = true := by
  rcases h.cotrans a ha b hb c hc hac with hab | habove
  · exact hab
  · rw [hbc] at habove
    cases habove

/-- What is not after an element is not after what that element is not after. -/
theorem not_after_trans (h : WeakOn after s) (ha : a ∈ s) (hb : b ∈ s) (hc : c ∈ s)
    (hab : after a b = false) (hbc : after b c = false) : after a c = false := by
  refine Bool.eq_false_iff.mpr fun hac => ?_
  rw [h.after_of_not_after ha hb hc hac hbc] at hab
  cases hab

theorem trans (h : WeakOn after s) (ha : a ∈ s) (hb : b ∈ s) (hc : c ∈ s)
    (hab : after a b = true) (hbc : after b c = true) : after a c = true := by
  rcases h.cotrans a ha c hc b hb hab with hac | hcb
  · exact hac
  · rw [h.asymm b hb c hc hbc] at hcb
    cases hcb

end WeakOn

/-! ## The highest mark -/

variable (after : α → α → Bool)

/-- The highest of the marks, the first of those that tie. -/
def highest : List α → Option α
  | [] => none
  | first :: rest => some (rest.foldl (fun max mark => if after mark max then mark else max) first)

variable {after} {s : Set α} {marks : List α} {top : α}

theorem foldl_highest {first : α} (h : WeakOn after s) (hfirst : first ∈ s) (hmarks : ∀ m ∈ marks, m ∈ s) :
    let top := marks.foldl (fun max mark => if after mark max then mark else max) first
    (top = first ∨ top ∈ marks) ∧ after first top = false ∧ ∀ m ∈ marks, after m top = false := by
  induction marks generalizing first with
  | nil => exact ⟨.inl rfl, h.irrefl hfirst, fun _ hm => (nomatch hm)⟩
  | cons mark rest ih =>
    obtain ⟨hmark, hrest⟩ := List.forall_mem_cons.mp hmarks
    have htop : ∀ next top : α, next ∈ s → top = next ∨ top ∈ rest → top ∈ s := by
      rintro next top hnext (rfl | hmem)
      · exact hnext
      · exact hrest top hmem
    rw [List.foldl_cons]
    by_cases hafter : after mark first = true
    · rw [if_pos hafter]
      obtain ⟨hmem, hbelow, hall⟩ := ih hmark hrest
      have hs := htop mark _ hmark hmem
      refine ⟨.inr ?_, ?_, List.forall_mem_cons.mpr ⟨hbelow, hall⟩⟩
      · rcases hmem with hmem | hmem
        · rw [hmem]
          exact List.mem_cons_self
        · exact List.mem_cons_of_mem _ hmem
      · -- The top is not below `mark`, which is after `first`.
        refine Bool.eq_false_iff.mpr fun habove => ?_
        have := h.trans hmark hfirst hs hafter habove
        rw [hbelow] at this
        cases this
    · rw [if_neg hafter]
      obtain ⟨hmem, hbelow, hall⟩ := ih hfirst hrest
      have hs := htop first _ hfirst hmem
      refine ⟨hmem.imp id (List.mem_cons_of_mem _), hbelow, List.forall_mem_cons.mpr ⟨?_, hall⟩⟩
      refine Bool.eq_false_iff.mpr fun habove => ?_
      rcases h.cotrans mark hmark first hfirst _ hs habove with hfirst' | htop'
      · exact hafter hfirst'
      · rw [hbelow] at htop'
        cases htop'

/-- The highest mark is one of them, and none is after it. -/
theorem highest_spec (h : WeakOn after s) (hmarks : ∀ m ∈ marks, m ∈ s)
    (htop : highest after marks = some top) : top ∈ marks ∧ ∀ m ∈ marks, after m top = false := by
  cases marks with
  | nil => cases htop
  | cons first rest =>
    obtain ⟨hfirst, hrest⟩ := List.forall_mem_cons.mp hmarks
    obtain ⟨hmem, hbelow, hall⟩ := foldl_highest h hfirst hrest
    have htop := Option.some.inj htop
    rw [htop] at hmem hbelow hall
    exact ⟨List.mem_cons.mpr hmem, List.forall_mem_cons.mpr ⟨hbelow, hall⟩⟩

theorem highest_eq_none_iff : highest after marks = none ↔ marks = [] := by
  cases marks with
  | nil => exact ⟨fun _ => rfl, fun _ => rfl⟩
  | cons first rest => exact ⟨fun h => (nomatch h), fun h => (nomatch h)⟩

/-! ## A part at a time -/

variable {mark : β → α} {items : List β} {base threshold : α}

/-- The items whose mark is after a base. -/
def itemsAfter (after : α → α → Bool) (mark : β → α) (base : α) (items : List β) : List β :=
  items.filter fun item => after (mark item) base

/-- What is kept up to a threshold, and what is after the highest mark that is kept, are what was there:
nothing is left behind, and nothing stands in both. -/
theorem itemsAfter_highest (h : WeakOn after s) (hbase : base ∈ s) (hitems : ∀ item ∈ items, mark item ∈ s)
    (hthreshold : threshold ∈ (itemsAfter after mark base items).map mark)
    (htop : highest after (((itemsAfter after mark base items).filter fun item =>
      !after (mark item) threshold).map mark) = some top) :
    itemsAfter after mark top items =
      (itemsAfter after mark base items).filter fun item => after (mark item) threshold := by
  have hfresh : ∀ item ∈ itemsAfter after mark base items,
      item ∈ items ∧ after (mark item) base = true := fun item hitem => List.mem_filter.mp hitem
  obtain ⟨first, hfirst, rfl⟩ := List.mem_map.mp hthreshold
  have hfirst' := hfresh first hfirst
  have hkept : ∀ m ∈ ((itemsAfter after mark base items).filter fun item =>
      !after (mark item) (mark first)).map mark, m ∈ s := by
    intro m hm
    obtain ⟨item, hitem, rfl⟩ := List.mem_map.mp hm
    exact hitems item (hfresh item (List.mem_filter.mp hitem).1).1
  obtain ⟨hmem, hall⟩ := highest_spec h hkept htop
  obtain ⟨last, hlast, rfl⟩ := List.mem_map.mp hmem
  obtain ⟨hlastFresh, hlastKept⟩ := List.mem_filter.mp hlast
  have hlast' := hfresh last hlastFresh
  -- The threshold itself is kept, so the highest mark is not below it.
  have hfirstKept : after (mark first) (mark last) = false := by
    refine hall _ (List.mem_map.mpr ⟨first, List.mem_filter.mpr ⟨hfirst, ?_⟩, rfl⟩)
    rw [h.irrefl (hitems first hfirst'.1)]
    rfl
  have hlastBelow : after (mark last) (mark first) = false := by simpa using hlastKept
  unfold itemsAfter
  rw [List.filter_filter]
  refine List.filter_congr fun item hitem => ?_
  have hs := hitems item hitem
  have hfirstS := hitems first hfirst'.1
  have hlastS := hitems last hlast'.1
  apply Bool.eq_iff_iff.mpr
  rw [Bool.and_eq_true]
  constructor
  · intro habove
    refine ⟨?_, h.trans hs hlastS hbase habove hlast'.2⟩
    exact h.after_of_not_after hs hfirstS hlastS habove hfirstKept
  · rintro ⟨habove, -⟩
    exact h.after_of_not_after hs hlastS hfirstS habove hlastBelow

/-- Without a threshold everything is kept, and nothing is after the highest mark. -/
theorem itemsAfter_highest_all (h : WeakOn after s) (hbase : base ∈ s)
    (hitems : ∀ item ∈ items, mark item ∈ s)
    (htop : highest after ((itemsAfter after mark base items).map mark) = some top) :
    itemsAfter after mark top items = [] := by
  have hkept : ∀ m ∈ (itemsAfter after mark base items).map mark, m ∈ s := by
    intro m hm
    obtain ⟨item, hitem, rfl⟩ := List.mem_map.mp hm
    exact hitems item (List.mem_filter.mp hitem).1
  obtain ⟨hmem, hall⟩ := highest_spec h hkept htop
  obtain ⟨last, hlast, rfl⟩ := List.mem_map.mp hmem
  obtain ⟨hlastItem, hlastAfter⟩ := List.mem_filter.mp hlast
  refine List.filter_eq_nil_iff.mpr fun item hitem habove => ?_
  have hfresh := h.trans (hitems item hitem) (hitems last hlastItem) hbase habove hlastAfter
  have hbelow := hall _ (List.mem_map_of_mem (List.mem_filter.mpr ⟨hitem, hfresh⟩))
  rw [hbelow] at habove
  cases habove

end Lightspeed.Lib
