import Mathlib.Data.List.Induction
import Mathlib.Order.Lattice
import Mathlib.Data.List.Nodup
import Mathlib.Tactic.Common

/-!
# Ordered maps

A finite map kept as a list of entries in strictly increasing key order, which is what a
`BTreeMap` is to a program that looks keys up, inserts, removes, and walks the entries in order.
The order is a field of the structure, so two maps with the same entries are equal and a key has at
most one value. Every operation is structurally recursive and evaluates.
-/

namespace Lightspeed.Lib

universe u v

/-- A finite map from `κ` to `α`, its entries in strictly increasing key order. -/
structure OrdMap (κ : Type u) (α : Type v) [LinearOrder κ] where
  /-- The entries, in key order. -/
  entries : List (κ × α)
  /-- The keys increase strictly. -/
  sorted : entries.Pairwise (fun a b => a.1 < b.1)
  deriving DecidableEq

namespace OrdMap

variable {κ : Type u} {α : Type v} [LinearOrder κ]

/-- The map with no entries. -/
def empty : OrdMap κ α := ⟨[], .nil⟩

instance : EmptyCollection (OrdMap κ α) := ⟨empty⟩

instance : Inhabited (OrdMap κ α) := ⟨empty⟩

/-- The value of the first entry with key `k`. It is written with the recursor, as `insertEntry` is: lookups
are most of what a run evaluates. -/
def find (k : κ) (l : List (κ × α)) : Option α :=
  l.rec none fun e _ found => if e.1 = k then some e.2 else found

/-- The entries with `(k, a)` put in its place, in place of an entry with the same key. -/
def insertEntry (k : κ) (a : α) (l : List (κ × α)) : List (κ × α) :=
  l.rec [(k, a)] fun e rest inserted =>
    if k < e.1 then (k, a) :: e :: rest
    else if k = e.1 then (k, a) :: rest
    else e :: inserted

theorem find_cons {k : κ} {e : κ × α} {l : List (κ × α)} :
    find k (e :: l) = if e.1 = k then some e.2 else find k l := rfl

theorem insertEntry_cons {k : κ} {a : α} {e : κ × α} {l : List (κ × α)} :
    insertEntry k a (e :: l) =
      if k < e.1 then (k, a) :: e :: l else if k = e.1 then (k, a) :: l else e :: insertEntry k a l := rfl

/-- The value at `k`. -/
def get? (m : OrdMap κ α) (k : κ) : Option α := find k m.entries

/-- Whether the map holds `k`. -/
def contains (m : OrdMap κ α) (k : κ) : Bool := (m.get? k).isSome

/-- The keys, in order. -/
def keys (m : OrdMap κ α) : List κ := m.entries.map Prod.fst

/-- The values, in key order. -/
def values (m : OrdMap κ α) : List α := m.entries.map Prod.snd

/-- The entry with the greatest key. -/
def last? (m : OrdMap κ α) : Option (κ × α) := m.entries.getLast?

/-- Every entry of an insertion is the new one or an old one. -/
theorem mem_insertEntry {k : κ} {a : α} {e : κ × α} {l : List (κ × α)}
    (h : e ∈ insertEntry k a l) : e = (k, a) ∨ e ∈ l := by
  induction l with
  | nil => simpa [insertEntry] using h
  | cons hd tl ih =>
    obtain ⟨k', a'⟩ := hd
    rw [insertEntry_cons] at h
    split_ifs at h with h1 h2
    · simpa using h
    · rcases List.mem_cons.mp h with rfl | h
      · exact .inl rfl
      · exact .inr (List.mem_cons_of_mem _ h)
    · rcases List.mem_cons.mp h with rfl | h
      · exact .inr List.mem_cons_self
      · exact (ih h).imp_right (List.mem_cons_of_mem _)

/-- Insertion keeps the key order. -/
theorem insertEntry_sorted (k : κ) (a : α) {l : List (κ × α)}
    (h : l.Pairwise (fun a b => a.1 < b.1)) :
    (insertEntry k a l).Pairwise (fun a b => a.1 < b.1) := by
  induction l with
  | nil => simp [insertEntry]
  | cons hd tl ih =>
    obtain ⟨k', a'⟩ := hd
    obtain ⟨hhd, htl⟩ := List.pairwise_cons.mp h
    rw [insertEntry_cons]
    split_ifs with h1 h2
    · refine List.pairwise_cons.mpr ⟨fun e he => ?_, h⟩
      rcases List.mem_cons.mp he with rfl | he
      · exact h1
      · exact h1.trans (hhd e he)
    · subst h2
      exact List.pairwise_cons.mpr ⟨hhd, htl⟩
    · refine List.pairwise_cons.mpr ⟨fun e he => ?_, ih htl⟩
      rcases mem_insertEntry he with rfl | he
      · exact lt_of_le_of_ne (not_lt.mp h1) (Ne.symm h2)
      · exact hhd e he

/-- The map with `a` at `k`. -/
def insert (m : OrdMap κ α) (k : κ) (a : α) : OrdMap κ α :=
  ⟨insertEntry k a m.entries, insertEntry_sorted k a m.sorted⟩

/-- The map with the entries for which `p` holds. -/
def filter (m : OrdMap κ α) (p : κ → α → Bool) : OrdMap κ α :=
  ⟨m.entries.filter (fun e => p e.1 e.2), m.sorted.filter _⟩

/-- The map without `k`. -/
def erase (m : OrdMap κ α) (k : κ) : OrdMap κ α := m.filter (fun k' _ => k' ≠ k)

/-- The map with each value rewritten, under its key. -/
def mapValues (m : OrdMap κ α) (f : κ → α → α) : OrdMap κ α :=
  ⟨m.entries.map (fun e => (e.1, f e.1 e.2)), List.pairwise_map.mpr m.sorted⟩

/-- The map with the value at `k`, if there is one, rewritten. -/
def modify (m : OrdMap κ α) (k : κ) (f : α → α) : OrdMap κ α :=
  m.mapValues (fun k' a => if k' = k then f a else a)

/-- The map that holds the entries of a list, a later entry in place of an earlier one. -/
def ofList (l : List (κ × α)) : OrdMap κ α := l.foldl (fun m e => m.insert e.1 e.2) empty

/-! ## Lookup -/

/-- In key order, a key's first entry is its only one. -/
theorem find_eq_some_iff {k : κ} {a : α} {l : List (κ × α)}
    (h : l.Pairwise (fun a b => a.1 < b.1)) : find k l = some a ↔ (k, a) ∈ l := by
  induction l with
  | nil => simp [find]
  | cons hd tl ih =>
    obtain ⟨k', a'⟩ := hd
    obtain ⟨hhd, htl⟩ := List.pairwise_cons.mp h
    rw [find_cons]
    split_ifs with hk
    · subst hk
      constructor
      · rintro ⟨rfl⟩
        exact List.mem_cons_self
      · intro hmem
        rcases List.mem_cons.mp hmem with heq | hmem
        · exact congrArg some (Prod.mk.inj heq).2.symm
        · exact absurd (hhd _ hmem) (lt_irrefl _)
    · rw [ih htl, List.mem_cons]
      constructor
      · exact .inr
      · rintro (heq | hmem)
        · exact absurd (Prod.mk.inj heq).1.symm hk
        · exact hmem

/-- A map's value at a key is its entry with that key. -/
theorem get?_eq_some_iff {m : OrdMap κ α} {k : κ} {a : α} :
    m.get? k = some a ↔ (k, a) ∈ m.entries :=
  find_eq_some_iff m.sorted

@[simp]
theorem get?_empty (k : κ) : (empty : OrdMap κ α).get? k = none := rfl

theorem get?_insert (m : OrdMap κ α) (k k' : κ) (a : α) :
    (m.insert k a).get? k' = if k = k' then some a else m.get? k' := by
  simp only [get?, insert]
  generalize m.entries = l
  induction l with
  | nil => simp [insertEntry, find]
  | cons hd tl ih =>
    obtain ⟨k₀, a₀⟩ := hd
    by_cases h1 : k < k₀
    · rw [insertEntry_cons, if_pos h1, find_cons]
    · by_cases h2 : k = k₀
      · subst h2
        rw [insertEntry_cons, if_neg h1, if_pos rfl, find_cons, find_cons]
        split_ifs <;> rfl
      · rw [insertEntry_cons, if_neg h1, if_neg h2, find_cons, find_cons, ih]
        by_cases h3 : k = k'
        · subst h3
          simp [Ne.symm h2]
        · rw [if_neg h3, if_neg h3]

@[simp]
theorem get?_insert_self (m : OrdMap κ α) (k : κ) (a : α) : (m.insert k a).get? k = some a := by
  rw [get?_insert, if_pos rfl]

theorem get?_insert_ne (m : OrdMap κ α) {k k' : κ} (a : α) (h : k ≠ k') :
    (m.insert k a).get? k' = m.get? k' := by
  rw [get?_insert, if_neg h]

/-- The value a filtered map keeps at a key. -/
theorem get?_filter (m : OrdMap κ α) (p : κ → α → Bool) (k : κ) :
    (m.filter p).get? k = (m.get? k).filter (p k) := by
  apply Option.ext
  intro a
  rw [get?_eq_some_iff, Option.filter_eq_some_iff, get?_eq_some_iff]
  simp [filter]

theorem get?_erase (m : OrdMap κ α) (k k' : κ) :
    (m.erase k).get? k' = if k' = k then none else m.get? k' := by
  rw [erase, get?_filter]
  split_ifs with h
  · simp [h]
  · cases m.get? k' <;> simp [Option.filter, h]

theorem get?_mapValues (m : OrdMap κ α) (f : κ → α → α) (k : κ) :
    (m.mapValues f).get? k = (m.get? k).map (f k) := by
  simp only [get?, mapValues]
  generalize m.entries = l
  induction l with
  | nil => rfl
  | cons hd tl ih =>
    rw [List.map_cons, find_cons, find_cons]
    split_ifs with h
    · rw [← h]
      rfl
    · exact ih

theorem get?_modify (m : OrdMap κ α) (k k' : κ) (f : α → α) :
    (m.modify k f).get? k' = if k' = k then (m.get? k').map f else m.get? k' := by
  rw [modify, get?_mapValues]
  split_ifs with h
  · rfl
  · simp

/-! ## Values and keys -/

theorem mem_values {m : OrdMap κ α} {a : α} : a ∈ m.values ↔ ∃ k, m.get? k = some a := by
  simp [values, get?_eq_some_iff]

theorem mem_keys {m : OrdMap κ α} {k : κ} : k ∈ m.keys ↔ ∃ a, m.get? k = some a := by
  simp [keys, get?_eq_some_iff]

theorem contains_iff {m : OrdMap κ α} {k : κ} : m.contains k = true ↔ ∃ a, m.get? k = some a := by
  rw [contains, Option.isSome_iff_exists]

theorem contains_iff_mem_keys {m : OrdMap κ α} {k : κ} : m.contains k = true ↔ k ∈ m.keys := by
  rw [contains_iff, mem_keys]

/-- No key stands twice. -/
theorem keys_nodup (m : OrdMap κ α) : m.keys.Nodup :=
  (List.pairwise_map.mpr m.sorted).imp ne_of_lt

@[simp]
theorem keys_mapValues (m : OrdMap κ α) (f : κ → α → α) : (m.mapValues f).keys = m.keys := by
  simp [keys, mapValues]

@[simp]
theorem keys_modify (m : OrdMap κ α) (k : κ) (f : α → α) : (m.modify k f).keys = m.keys :=
  keys_mapValues m _

/-! ## The greatest key -/

/-- The last entry is an entry, and no entry has a greater key. -/
theorem last?_eq_some_iff {m : OrdMap κ α} {k : κ} {a : α} :
    m.last? = some (k, a) ↔ m.get? k = some a ∧ ∀ k' ∈ m.keys, k' ≤ k := by
  have hs := m.sorted
  simp only [last?, get?, keys]
  generalize m.entries = l at hs
  induction l with
  | nil => simp [find]
  | cons hd tl ih =>
    obtain ⟨k₀, a₀⟩ := hd
    obtain ⟨hhd, htl⟩ := List.pairwise_cons.mp hs
    have ih := ih htl
    cases tl with
    | nil =>
      simp only [List.getLast?_singleton, Option.some.injEq, Prod.mk.injEq, find, List.map_cons,
        List.map_nil, List.mem_singleton, forall_eq]
      constructor
      · rintro ⟨rfl, rfl⟩
        simp
      · split_ifs with h
        · rintro ⟨⟨rfl⟩, -⟩
          exact ⟨h, rfl⟩
        · simp
    | cons hd' tl' =>
      rw [List.getLast?_cons_cons, find_cons, List.map_cons]
      refine ih.trans ?_
      constructor
      · rintro ⟨hf, hle⟩
        have hlt : k₀ < k := hhd _ ((find_eq_some_iff htl).mp hf)
        rw [if_neg (ne_of_lt hlt)]
        refine ⟨hf, fun k' hk' => ?_⟩
        rcases List.mem_cons.mp hk' with rfl | hk'
        · exact hlt.le
        · exact hle k' hk'
      · rintro ⟨hf, hle⟩
        have hlt : k₀ < hd'.1 := hhd _ List.mem_cons_self
        have hle' : hd'.1 ≤ k := hle _ (by simp)
        rw [if_neg (ne_of_lt (hlt.trans_le hle'))] at hf
        exact ⟨hf, fun k' hk' => hle k' (List.mem_cons_of_mem _ hk')⟩

/-- Inserting above every key puts the new entry last. -/
theorem insert_entries_of_lt {m : OrdMap κ α} {k : κ} (a : α) (h : ∀ k' ∈ m.keys, k' < k) :
    (m.insert k a).entries = m.entries ++ [(k, a)] := by
  simp only [insert, keys] at h ⊢
  generalize m.entries = l at h
  induction l with
  | nil => rfl
  | cons hd tl ih =>
    have hlt : hd.1 < k := h _ (by simp)
    rw [insertEntry_cons, if_neg (not_lt_of_gt hlt), if_neg (ne_of_gt hlt),
      ih fun k' hk' => h k' (List.mem_cons_of_mem _ hk'), List.cons_append]

theorem last?_insert_of_lt {m : OrdMap κ α} {k : κ} (a : α) (h : ∀ k' ∈ m.keys, k' < k) :
    (m.insert k a).last? = some (k, a) := by
  rw [last?, insert_entries_of_lt a h, List.getLast?_concat]

theorem mem_keys_insert {m : OrdMap κ α} {k k' : κ} {a : α} :
    k' ∈ (m.insert k a).keys ↔ k' = k ∨ k' ∈ m.keys := by
  simp only [mem_keys, get?_insert]
  by_cases h : k = k'
  · simp [h]
  · simp [h, Ne.symm h]

/-- Rewriting the last entry leaves it last. -/
theorem last?_insert_last {m : OrdMap κ α} {k : κ} {a : α} (a' : α) (h : m.last? = some (k, a)) :
    (m.insert k a').last? = some (k, a') := by
  rw [last?_eq_some_iff]
  refine ⟨get?_insert_self m k a', fun k' hk' => ?_⟩
  rcases mem_keys_insert.mp hk' with rfl | hk'
  · exact le_rfl
  · exact (last?_eq_some_iff.mp h).2 k' hk'

theorem mem_keys_filter {m : OrdMap κ α} {p : κ → α → Bool} {k : κ} (h : k ∈ (m.filter p).keys) :
    k ∈ m.keys := by
  obtain ⟨a, ha⟩ := mem_keys.mp h
  rw [get?_filter, Option.filter_eq_some_iff] at ha
  exact mem_keys.mpr ⟨a, ha.1⟩

/-- A filter that keeps the last entry leaves it last. -/
theorem last?_filter_of_last {m : OrdMap κ α} {p : κ → α → Bool} {k : κ} {a : α}
    (h : m.last? = some (k, a)) (hp : p k a = true) : (m.filter p).last? = some (k, a) := by
  obtain ⟨hget, hle⟩ := last?_eq_some_iff.mp h
  rw [last?_eq_some_iff, get?_filter, Option.filter_eq_some_iff]
  exact ⟨⟨hget, hp⟩, fun k' hk' => hle k' (mem_keys_filter hk')⟩

theorem get?_of_last? {m : OrdMap κ α} {k : κ} {a : α} (h : m.last? = some (k, a)) :
    m.get? k = some a :=
  (last?_eq_some_iff.mp h).1

/-- A map with an entry has a last one. -/
theorem exists_last? {m : OrdMap κ α} {k : κ} {a : α} (h : m.get? k = some a) :
    ∃ k' a', m.last? = some (k', a') ∧ k ≤ k' := by
  cases hlast : m.last? with
  | none =>
    rw [last?, List.getLast?_eq_none_iff] at hlast
    rw [get?_eq_some_iff, hlast] at h
    cases h
  | some e => exact ⟨e.1, e.2, rfl, (last?_eq_some_iff.mp hlast).2 k (mem_keys.mpr ⟨a, h⟩)⟩

theorem last?_eq_none_iff {m : OrdMap κ α} : m.last? = none ↔ m.entries = [] :=
  List.getLast?_eq_none_iff

/-- What rewriting the values does not change of them. -/
theorem map_values_mapValues {β : Type} (m : OrdMap κ α) (f : κ → α → α) {g : α → β}
    (hg : ∀ k a, g (f k a) = g a) : (m.mapValues f).values.map g = m.values.map g := by
  simp only [values, mapValues, List.map_map]
  exact List.map_congr_left fun e _ => hg e.1 e.2

theorem map_values_modify {β : Type} (m : OrdMap κ α) (k : κ) (f : α → α) {g : α → β}
    (hg : ∀ a, g (f a) = g a) : (m.modify k f).values.map g = m.values.map g := by
  refine m.map_values_mapValues _ fun k' a => ?_
  split_ifs
  · exact hg a
  · rfl

/-- Without a key that it does not hold, a map is what it was. -/
theorem erase_of_get?_eq_none {m : OrdMap κ α} {k : κ} (h : m.get? k = none) : m.erase k = m := by
  have hentries : m.entries.filter (fun e => e.1 ≠ k) = m.entries := by
    refine List.filter_eq_self.mpr fun e he => ?_
    have hget : m.get? e.1 = some e.2 := get?_eq_some_iff.mpr he
    refine decide_eq_true fun heq => ?_
    rw [heq, h] at hget
    cases hget
  calc m.erase k = ⟨m.entries.filter (fun e => e.1 ≠ k), (m.erase k).sorted⟩ := rfl
    _ = m := by simp only [hentries]

/-- An insertion is the new entry and the entries of the other keys. -/
theorem entries_insert_perm (m : OrdMap κ α) (k : κ) (a : α) :
    (m.insert k a).entries.Perm ((k, a) :: (m.erase k).entries) := by
  have hentries : ∀ l : List (κ × α), l.Pairwise (fun a b => a.1 < b.1) →
      (insertEntry k a l).Perm ((k, a) :: l.filter (fun e => e.1 ≠ k)) := by
    intro l hl
    induction l with
    | nil => exact .refl _
    | cons first rest ih =>
      obtain ⟨k', a'⟩ := first
      obtain ⟨hfirst, hrest⟩ := List.pairwise_cons.mp hl
      rw [insertEntry_cons]
      split_ifs with hlt heq
      · -- Every key from here on is greater.
        have hall : ((k', a') :: rest).filter (fun e => e.1 ≠ k) = (k', a') :: rest := by
          refine List.filter_eq_self.mpr fun e he => decide_eq_true (ne_of_gt ?_)
          rcases List.mem_cons.mp he with rfl | he
          · exact hlt
          · exact hlt.trans (hfirst e he)
        rw [hall]
      · have hall : rest.filter (fun e => e.1 ≠ k) = rest :=
          List.filter_eq_self.mpr fun e he => decide_eq_true (heq ▸ (hfirst e he).ne')
        rw [List.filter_cons_of_neg (by simp [heq]), hall]
      · rw [List.filter_cons_of_pos (by simpa using Ne.symm heq)]
        exact ((ih hrest).cons _).trans (.swap _ _ _)
  exact hentries m.entries m.sorted

/-- No entry stands twice. -/
theorem entries_nodup (m : OrdMap κ α) : m.entries.Nodup := List.Nodup.of_map _ m.keys_nodup

/-- An entry stands apart from the entries of the other keys. -/
theorem entries_perm_of_get? {m : OrdMap κ α} {k : κ} {a : α} (h : m.get? k = some a) :
    m.entries.Perm ((k, a) :: (m.erase k).entries) := by
  have hmem : ∀ e : κ × α, e ∈ (m.erase k).entries ↔ e ∈ m.entries ∧ e.1 ≠ k := fun e => by
    simp [erase, filter]
  have hnodup : ((k, a) :: (m.erase k).entries).Nodup :=
    List.nodup_cons.mpr ⟨fun he => ((hmem _).mp he).2 rfl, (m.erase k).entries_nodup⟩
  refine (List.perm_ext_iff_of_nodup m.entries_nodup hnodup).mpr fun e => ?_
  rw [List.mem_cons, hmem]
  constructor
  · intro he
    by_cases hkey : e.1 = k
    · have hget : m.get? k = some e.2 := get?_eq_some_iff.mpr (hkey ▸ he)
      rw [h] at hget
      exact .inl (Prod.ext hkey (Option.some.inj hget).symm)
    · exact .inr ⟨he, hkey⟩
  · rintro (rfl | he)
    · exact get?_eq_some_iff.mp h
    · exact he.1

/-- A map is what it looks up. -/
theorem ext_get? {m m' : OrdMap κ α} (h : ∀ k, m.get? k = m'.get? k) : m = m' := by
  have hperm : m.entries.Perm m'.entries := by
    refine (List.perm_ext_iff_of_nodup m.entries_nodup m'.entries_nodup).mpr fun e => ?_
    have hget : m.get? e.1 = some e.2 ↔ m'.get? e.1 = some e.2 := by rw [h]
    rwa [get?_eq_some_iff, get?_eq_some_iff] at hget
  have hentries : m.entries = m'.entries :=
    hperm.eq_of_pairwise (fun a b _ _ hab hba => absurd hab (lt_asymm hba)) m.sorted m'.sorted
  calc m = ⟨m.entries, m.sorted⟩ := rfl
    _ = m' := by simp only [hentries]

/-- A new key adds its value. -/
theorem values_insert_perm {m : OrdMap κ α} {k : κ} (a : α) (h : m.contains k = false) :
    (m.insert k a).values.Perm (a :: m.values) := by
  have hnone : m.get? k = none := by simpa [contains] using h
  have := (m.entries_insert_perm k a).map Prod.snd
  rwa [erase_of_get?_eq_none hnone] at this

/-- The values that a condition keeps stand in the same order. -/
theorem values_filter_sublist (m : OrdMap κ α) (p : κ → α → Bool) :
    (m.filter p).values.Sublist m.values :=
  List.filter_sublist.map Prod.snd

/-- A map of a list holds, at each key, the last value that the list gives it. -/
theorem get?_ofList_eq (l : List (κ × α)) (k : κ) :
    (ofList l).get? k = (l.reverse.find? (fun e => e.1 == k)).map Prod.snd := by
  induction l using List.reverseRecOn with
  | nil => rfl
  | append_singleton l e ih =>
    rw [ofList, List.foldl_append, List.foldl_cons, List.foldl_nil, ← ofList, get?_insert,
      List.reverse_concat, List.find?_cons]
    by_cases h : e.1 = k
    · simp [h]
    · simp [h, ih, beq_false_of_ne h]

/-- What a map of a list holds is in the list. -/
theorem mem_of_get?_ofList {l : List (κ × α)} {k : κ} {a : α} (h : (ofList l).get? k = some a) :
    (k, a) ∈ l := by
  rw [get?_ofList_eq] at h
  obtain ⟨e, hfound, rfl⟩ := Option.map_eq_some_iff.mp h
  have hkey := List.find?_some hfound
  rw [beq_iff_eq] at hkey
  exact hkey ▸ List.mem_reverse.mp (List.mem_of_find?_eq_some hfound)

/-- A list of distinct keys is read back from its map. -/
theorem get?_ofList {l : List (κ × α)} {k : κ} {a : α} (hnodup : (l.map Prod.fst).Nodup)
    (h : (k, a) ∈ l) : (ofList l).get? k = some a := by
  rw [get?_ofList_eq]
  cases hfound : l.reverse.find? (fun e => e.1 == k) with
  | none =>
    have hnot := List.find?_eq_none.mp hfound (k, a) (List.mem_reverse.mpr h)
    exact absurd (beq_self_eq_true k) hnot
  | some e =>
    have hkey := List.find?_some hfound
    rw [beq_iff_eq] at hkey
    have hmem := List.mem_reverse.mp (List.mem_of_find?_eq_some hfound)
    rw [List.inj_on_of_nodup_map hnodup hmem h hkey, Option.map_some]

end OrdMap

end Lightspeed.Lib
