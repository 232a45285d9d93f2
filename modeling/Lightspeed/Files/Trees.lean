import Lightspeed.Files.FileAt

/-!
# The tree of a manifest

What holds of a directory's entries at every level of a tree, and what a tree's files weigh. An entry that is put
under a name takes the place of the one that was there, and a directory that is written back takes the place of
the one that was found, so that the tree weighs what it did but for the two.
-/

namespace Lightspeed.Files

open Lib

variable {entries directory new inner : VfsDirectory} {name other : String} {entry old : VfsEntry}
  {components sought : List String} {path : VfsPath} {depth : Nat}

/-! ## Every level -/

mutual

/-- A property of directories holds throughout an entry. -/
def EntryAll (p : VfsDirectory → Prop) : VfsEntry → Prop
  | .file _ => True
  | .directory entries => p entries ∧ EntriesAll p entries

def EntriesAll (p : VfsDirectory → Prop) : List (String × VfsEntry) → Prop
  | [] => True
  | (_, entry) :: rest => EntryAll p entry ∧ EntriesAll p rest

end

/-- The names come in order, as they do in a map. -/
def NamesSorted (entries : VfsDirectory) : Prop := entries.Pairwise fun a b => a.1 < b.1

/-- The names are valid. -/
def NamesValid (entries : VfsDirectory) : Prop := ∀ pair ∈ entries, validateName pair.1 = .ok ()

variable {p : VfsDirectory → Prop}

theorem entriesAll_iff : EntriesAll p entries ↔ ∀ pair ∈ entries, EntryAll p pair.2 := by
  induction entries with
  | nil => simp [EntriesAll]
  | cons pair rest ih =>
    rw [EntriesAll, ih, List.forall_mem_cons]

theorem mem_of_entry (h : entries.entry name = some entry) : (name, entry) ∈ entries := by
  unfold VfsDirectory.entry at h
  obtain ⟨pair, hpair, rfl⟩ := Option.map_eq_some_iff.mp h
  have hname : pair.1 = name := by simpa using List.find?_some hpair
  rw [← hname]
  exact List.mem_of_find?_eq_some hpair

theorem EntriesAll.of_entry (h : EntriesAll p entries) (hentry : entries.entry name = some entry) : EntryAll p entry :=
  entriesAll_iff.mp h _ (mem_of_entry hentry)

namespace VfsDirectory

/-- What is in a directory once an entry is put under a name. -/
theorem mem_insert {pair : String × VfsEntry} :
    pair ∈ entries.insert name entry ↔ pair = (name, entry) ∨ pair ∈ entries ∧ pair.1 ≠ name := by
  have hbefore : ∀ pair ∈ entries.takeWhile (fun other => other.1 < name), pair.1 ≠ name := by
    intro pair hpair
    have hlt : pair.1 < name := by simpa using List.all_eq_true.mp List.all_takeWhile pair hpair
    exact ne_of_lt hlt
  have hsplit := List.takeWhile_append_dropWhile (p := fun other : String × VfsEntry => other.1 < name) (l := entries)
  have hmem : pair ∈ entries ↔ pair ∈ entries.takeWhile (fun other => other.1 < name) ∨
      pair ∈ entries.dropWhile (fun other => other.1 < name) := by
    rw [← List.mem_append, hsplit]
  unfold insert
  rw [List.mem_append, List.mem_cons, List.mem_filter, hmem, bne_iff_ne]
  constructor
  · rintro (hpair | rfl | ⟨hpair, hne⟩)
    · exact Or.inr ⟨Or.inl hpair, hbefore pair hpair⟩
    · exact Or.inl rfl
    · exact Or.inr ⟨Or.inr hpair, hne⟩
  · rintro (rfl | ⟨hpair | hpair, hne⟩)
    · exact Or.inr (Or.inl rfl)
    · exact Or.inl hpair
    · exact Or.inr (Or.inr ⟨hpair, hne⟩)

/-- An entry that is put under a name is there beside the rest. -/
theorem insert_perm : (entries.insert name entry).Perm ((name, entry) :: entries.remove name) := by
  have hbefore : (entries.takeWhile fun other => other.1 < name).filter (fun other => other.1 != name) =
      entries.takeWhile fun other => other.1 < name := by
    apply List.filter_eq_self.mpr
    intro pair hpair
    have hlt : pair.1 < name := by simpa using List.all_eq_true.mp List.all_takeWhile pair hpair
    simpa using ne_of_lt hlt
  have hremove : entries.remove name = (entries.takeWhile fun other => other.1 < name) ++
      (entries.dropWhile fun other => other.1 < name).filter fun other => other.1 != name := by
    unfold remove
    conv_lhs => rw [← List.takeWhile_append_dropWhile (p := fun other : String × VfsEntry => other.1 < name)
      (l := entries)]
    rw [List.filter_append, hbefore]
  rw [hremove]
  exact List.perm_middle

theorem insert_sorted (h : NamesSorted entries) : NamesSorted (entries.insert name entry) := by
  have hsplit := h
  unfold NamesSorted at hsplit
  rw [← List.takeWhile_append_dropWhile (p := fun other : String × VfsEntry => other.1 < name) (l := entries)] at hsplit
  obtain ⟨hbefore, hafter, hacross⟩ := List.pairwise_append.mp hsplit
  have hlow : ∀ pair ∈ entries.takeWhile (fun other => other.1 < name), pair.1 < name := by
    intro pair hpair
    simpa using List.all_eq_true.mp List.all_takeWhile pair hpair
  -- the first entry that is left does not come before the name, and the rest come after it
  have hhigh : ∀ pair ∈ entries.dropWhile (fun other => other.1 < name), name ≤ pair.1 := by
    intro pair hpair
    cases hrest : entries.dropWhile (fun other => other.1 < name) with
    | nil =>
      rw [hrest] at hpair
      exact absurd hpair List.not_mem_nil
    | cons first rest =>
      have hfirst : ¬ first.1 < name := by
        have hhead := List.head?_dropWhile_not (fun other : String × VfsEntry => other.1 < name) entries
        rw [hrest] at hhead
        simpa using hhead
      rw [hrest] at hpair hafter
      rcases List.mem_cons.mp hpair with rfl | hpair
      · exact not_lt.mp hfirst
      · exact le_trans (not_lt.mp hfirst) (List.rel_of_pairwise_cons hafter hpair).le
  unfold NamesSorted insert
  refine List.pairwise_append.mpr ⟨hbefore, List.pairwise_cons.mpr ⟨?_, hafter.filter _⟩, ?_⟩
  · intro pair hpair
    obtain ⟨hmem, hne⟩ := List.mem_filter.mp hpair
    exact lt_of_le_of_ne (hhigh pair hmem) (by simpa using Ne.symm (bne_iff_ne.mp hne))
  · intro pair hpair later hlater
    rcases List.mem_cons.mp hlater with rfl | hlater
    · exact hlow pair hpair
    · exact hacross pair hpair later (List.mem_filter.mp hlater).1

theorem remove_sorted (h : NamesSorted entries) : NamesSorted (entries.remove name) := h.filter _

/-- In a map, an entry is there beside the rest. -/
theorem entry_perm (h : NamesSorted entries) (hentry : entries.entry name = some entry) :
    entries.Perm ((name, entry) :: entries.remove name) := by
  obtain ⟨before, after, rfl⟩ := List.append_of_mem (mem_of_entry hentry)
  obtain ⟨-, hafter, hacross⟩ := List.pairwise_append.mp h
  have hbeforeNe : before.filter (fun other => other.1 != name) = before := by
    apply List.filter_eq_self.mpr
    intro pair hpair
    have hlt : pair.1 < name := hacross pair hpair (name, entry) List.mem_cons_self
    simpa using ne_of_lt hlt
  have hafterNe : after.filter (fun other => other.1 != name) = after := by
    apply List.filter_eq_self.mpr
    intro pair hpair
    have hlt : name < pair.1 := List.rel_of_pairwise_cons hafter hpair
    simpa using (ne_of_lt hlt).symm
  have hremove : VfsDirectory.remove (before ++ (name, entry) :: after) name = before ++ after := by
    unfold remove
    rw [List.filter_append, List.filter_cons_of_neg (by simp), hbeforeNe, hafterNe]
  rw [hremove]
  exact List.perm_middle

theorem remove_eq_self (h : entries.entry name = none) : entries.remove name = entries := by
  unfold remove
  apply List.filter_eq_self.mpr
  intro pair hpair
  have hfind : entries.find? (fun other => other.1 == name) = none := Option.map_eq_none_iff.mp h
  simpa using List.find?_eq_none.mp hfind pair hpair

/-- In a map, putting the entry that is there changes nothing. -/
theorem insert_entry_self (h : NamesSorted entries) (hentry : entries.entry name = some entry) :
    entries.insert name entry = entries := by
  have hperm : (entries.insert name entry).Perm entries := insert_perm.trans (entry_perm h hentry).symm
  refine hperm.eq_of_pairwise ?_ (insert_sorted h) h
  intro a b _ _ hab hba
  exact absurd hab (lt_asymm hba)

end VfsDirectory

theorem EntriesAll.insert (h : EntriesAll p entries) (hentry : EntryAll p entry) :
    EntriesAll p (entries.insert name entry) := by
  rw [entriesAll_iff] at h ⊢
  intro pair hpair
  rcases VfsDirectory.mem_insert.mp hpair with rfl | ⟨hpair, -⟩
  · exact hentry
  · exact h pair hpair

theorem EntriesAll.remove (h : EntriesAll p entries) : EntriesAll p (entries.remove name) := by
  rw [entriesAll_iff] at h ⊢
  exact fun pair hpair => h pair (List.mem_filter.mp hpair).1

/-! ## Weights -/

mutual

/-- What the files of an entry weigh together. -/
def entryWeight (weigh : VfsFile → Nat) : VfsEntry → Nat
  | .file file => weigh file
  | .directory entries => directoryWeight weigh entries

def directoryWeight (weigh : VfsFile → Nat) : List (String × VfsEntry) → Nat
  | [] => 0
  | (_, entry) :: rest => entryWeight weigh entry + directoryWeight weigh rest

end

section Weights

variable {weigh : VfsFile → Nat}

/-- What stands under a name weighs, or nothing where nothing does. -/
def weightAt (weigh : VfsFile → Nat) (found : Option VfsEntry) : Nat := found.elim 0 (entryWeight weigh)

theorem directoryWeight_perm {more : VfsDirectory} (h : entries.Perm more) :
    directoryWeight weigh entries = directoryWeight weigh more := by
  induction h with
  | nil => rfl
  | cons pair _ ih => rw [directoryWeight, directoryWeight, ih]
  | swap first second _ =>
    rw [directoryWeight, directoryWeight, directoryWeight, directoryWeight]
    omega
  | trans _ _ ihFirst ihSecond => rw [ihFirst, ihSecond]

theorem weight_insert : directoryWeight weigh (entries.insert name entry) =
    entryWeight weigh entry + directoryWeight weigh (entries.remove name) :=
  directoryWeight_perm VfsDirectory.insert_perm

theorem weight_remove (h : NamesSorted entries) : directoryWeight weigh entries =
    weightAt weigh (entries.entry name) + directoryWeight weigh (entries.remove name) := by
  cases hentry : entries.entry name with
  | none =>
    rw [VfsDirectory.remove_eq_self hentry]
    exact (Nat.zero_add _).symm
  | some entry => exact directoryWeight_perm (VfsDirectory.entry_perm h hentry)

end Weights

/-! ## A directory that is written back -/

/-- A directory that is found in a directory is one of its own, at some level. -/
theorem directoryAt_cons (h : directoryAt path depth entries (name :: components) = .ok directory) :
    ∃ inner, entries.entry name = some (.directory inner) ∧
      directoryAt path (depth + 1) inner components = .ok directory := by
  rw [directoryAt] at h
  cases hentry : entries.entry name with
  | none =>
    rw [hentry] at h
    cases h
  | some entry =>
    rw [hentry] at h
    cases entry with
    | file file => cases h
    | directory inner => exact ⟨inner, rfl, h⟩

theorem putDirectory_cons (hentry : entries.entry name = some (.directory inner)) :
    putDirectory entries (name :: components) new =
      entries.insert name (.directory (putDirectory inner components new)) := by
  rw [putDirectory, hentry]

theorem all_directoryAt (h : directoryAt path depth entries components = .ok directory)
    (hall : EntryAll p (.directory entries)) : EntryAll p (.directory directory) := by
  induction components generalizing entries depth with
  | nil => exact Except.ok.inj h ▸ hall
  | cons name rest ih =>
    obtain ⟨inner, hentry, hrest⟩ := directoryAt_cons h
    rw [EntryAll] at hall
    exact ih hrest (hall.2.of_entry hentry)

/-- What holds throughout a tree and throughout what is written back holds throughout the outcome, when it does
not depend on what stands under a name. -/
theorem all_putDirectory (hp : ∀ entries name entry old, p entries → entries.entry name = some old →
      p (entries.insert name entry))
    (h : directoryAt path depth entries components = .ok directory) (hall : EntryAll p (.directory entries))
    (hnew : EntryAll p (.directory new)) : EntryAll p (.directory (putDirectory entries components new)) := by
  induction components generalizing entries depth with
  | nil => exact hnew
  | cons name rest ih =>
    obtain ⟨inner, hentry, hrest⟩ := directoryAt_cons h
    rw [EntryAll] at hall
    rw [putDirectory_cons hentry, EntryAll]
    exact ⟨hp entries name _ _ hall.1 hentry, hall.2.insert (ih hrest (hall.2.of_entry hentry))⟩

theorem weight_putDirectory {weigh : VfsFile → Nat}
    (h : directoryAt path depth entries components = .ok directory)
    (hsorted : EntryAll NamesSorted (.directory entries)) :
    directoryWeight weigh (putDirectory entries components new) + directoryWeight weigh directory =
      directoryWeight weigh entries + directoryWeight weigh new := by
  induction components generalizing entries depth with
  | nil =>
    obtain rfl := Except.ok.inj h
    rw [putDirectory, Nat.add_comm]
  | cons name rest ih =>
    obtain ⟨inner, hentry, hrest⟩ := directoryAt_cons h
    rw [EntryAll] at hsorted
    have hinner := ih hrest (hsorted.2.of_entry hentry)
    have hold : directoryWeight weigh entries =
        weightAt weigh (entries.entry name) + directoryWeight weigh (entries.remove name) := weight_remove hsorted.1
    rw [hentry] at hold
    rw [putDirectory_cons hentry, weight_insert, hold]
    show directoryWeight weigh (putDirectory inner rest new) + _ + _ =
      directoryWeight weigh inner + directoryWeight weigh (entries.remove name) + _
    omega

/-! ## Lookups -/

/-- Neither path is at or below the other. -/
def Apart (target sought : List String) : Prop := ¬ target <+: sought ∧ ¬ sought <+: target

theorem not_apart_nil : ¬ Apart components [] := fun h => h.2 (List.nil_prefix)

theorem Apart.tail (h : Apart (name :: components) (name :: sought)) : Apart components sought := by
  unfold Apart at h ⊢
  simpa using h

/-- What stands below a directory that is found. -/
theorem lookupEntry_directoryAt {found : VfsPath} (h : directoryAt found depth entries components = .ok directory) :
    lookupEntry path entries (components ++ sought) = lookupEntry path directory sought := by
  induction components generalizing entries depth with
  | nil => rw [Except.ok.inj h, List.nil_append]
  | cons name rest ih =>
    obtain ⟨inner, hentry, hrest⟩ := directoryAt_cons h
    rw [List.cons_append, lookupEntry, hentry]
    exact ih hrest

/-- What stands below a directory that is written back. -/
theorem lookupEntry_put_below {found : VfsPath} (h : directoryAt found depth entries components = .ok directory) :
    lookupEntry path (putDirectory entries components new) (components ++ sought) = lookupEntry path new sought := by
  induction components generalizing entries depth with
  | nil => rw [putDirectory, List.nil_append]
  | cons name rest ih =>
    obtain ⟨inner, hentry, hrest⟩ := directoryAt_cons h
    rw [putDirectory_cons hentry, List.cons_append, lookupEntry, VfsDirectory.entry_insert_self]
    exact ih hrest

/-- A directory that is written back, and differs in what stands under one name, changes no lookup apart from
it. -/
theorem lookupEntry_put_apart {found : VfsPath} (h : directoryAt found depth entries components = .ok directory)
    (hother : ∀ other, other ≠ name → new.entry other = directory.entry other)
    (hapart : Apart (components ++ [name]) sought) :
    lookupEntry path (putDirectory entries components new) sought = lookupEntry path entries sought := by
  induction components generalizing entries depth sought with
  | nil =>
    obtain rfl := Except.ok.inj h
    cases sought with
    | nil => exact absurd hapart not_apart_nil
    | cons head tail =>
      have hne : head ≠ name := by
        rintro rfl
        exact hapart.1 (List.prefix_append [head] tail)
      rw [putDirectory, lookupEntry, lookupEntry, hother head hne]
  | cons first rest ih =>
    obtain ⟨inner, hentry, hrest⟩ := directoryAt_cons h
    rw [putDirectory_cons hentry]
    cases sought with
    | nil => exact absurd hapart not_apart_nil
    | cons head tail =>
      by_cases hhead : head = first
      · subst hhead
        rw [lookupEntry, lookupEntry, VfsDirectory.entry_insert_self, hentry]
        exact ih hrest hapart.tail
      · rw [lookupEntry, lookupEntry, VfsDirectory.entry_insert_of_ne hhead]

end Lightspeed.Files
