import Mathlib.Algebra.GroupWithZero.Nat
import Lightspeed.Files.Validity

/-!
# Files put into a tree

A tree that is made by putting files into an empty one has no directory that is empty, so that it is known by its
files. A file goes into such a tree exactly when its path is neither at nor below nor above the path of a file that
is there.
-/

namespace Lightspeed.Files

open Lib

variable {entries inner made : VfsDirectory} {name : String} {entry : VfsEntry} {file : VfsFile}
  {components sought : List String} {path : VfsPath} {p : VfsDirectory → Prop}

/-! ## The files of a tree -/

/-- The file that some components below an entry lead to. -/
def fileUnder : VfsEntry → List String → Option VfsFile
  | .file file, rest => if rest.isEmpty then some file else none
  | .directory entries, rest => fileAt entries rest

theorem fileAt_cons :
    fileAt entries (name :: sought) = (entries.entry name).bind fun entry => fileUnder entry sought := by
  rw [fileAt]
  cases entries.entry name with
  | none => rfl
  | some entry => cases entry <;> rfl

/-- No directory below this one is empty. -/
def Filled (entries : VfsDirectory) : Prop := EntriesAll (· ≠ []) entries

theorem filled_nil : Filled [] := trivial

mutual

/-- An entry of such a tree has a file in it. -/
theorem exists_fileUnder (entry : VfsEntry) (h : EntryAll (· ≠ []) entry) :
    ∃ sought file, fileUnder entry sought = some file := by
  match entry with
  | .file file => exact ⟨[], file, rfl⟩
  | .directory entries => exact exists_fileAt entries h.1 h.2

theorem exists_fileAt (entries : List (String × VfsEntry)) (hne : entries ≠ []) (h : EntriesAll (· ≠ []) entries) :
    ∃ sought file, fileAt entries sought = some file := by
  match entries with
  | [] => exact absurd rfl hne
  | (name, entry) :: rest =>
    obtain ⟨sought, file, hfile⟩ := exists_fileUnder entry h.1
    have hentry : VfsDirectory.entry ((name, entry) :: rest) name = some entry := by simp [VfsDirectory.entry]
    refine ⟨name :: sought, file, ?_⟩
    rw [fileAt_cons, hentry]
    exact hfile

end

/-- A lookup finds a directory at the root and above the files. -/
theorem lookupEntry_directory (h : Filled entries) :
    (∃ found, lookupEntry path entries components = .ok (.directory found)) ↔
      components = [] ∨ ∃ rest file, rest ≠ [] ∧ fileAt entries (components ++ rest) = some file := by
  induction components generalizing entries with
  | nil => exact ⟨fun _ => Or.inl rfl, fun _ => ⟨entries, rfl⟩⟩
  | cons name more ih =>
    rw [lookupEntry]
    simp only [List.cons_append, fileAt_cons]
    cases hentry : entries.entry name with
    | none => simp
    | some entry =>
      have hfilled : EntryAll (· ≠ []) entry := EntriesAll.of_entry h hentry
      cases entry with
      | file file =>
        dsimp only
        constructor
        · rintro ⟨found, hfound⟩
          split_ifs at hfound
          cases hfound
        · rintro (hnil | ⟨rest, found, hrest, hfound⟩)
          · cases hnil
          · simp [fileUnder, hrest] at hfound
      | directory inner =>
        dsimp only
        rw [ih hfilled.2]
        constructor
        · rintro (rfl | hbelow)
          · obtain ⟨sought, file, hfile⟩ := exists_fileAt inner hfilled.1 hfilled.2
            have hne : sought ≠ [] := by
              rintro rfl
              cases hfile
            exact Or.inr ⟨sought, file, hne, hfile⟩
          · exact Or.inr hbelow
        · rintro (hnil | hbelow)
          · cases hnil
          · exact Or.inr hbelow

/-! ## Trees with the same files -/

/-- In a map an entry is found under its name. -/
theorem VfsDirectory.entry_of_mem (h : NamesSorted entries) (hmem : (name, entry) ∈ entries) :
    entries.entry name = some entry := by
  obtain ⟨before, after, rfl⟩ := List.append_of_mem hmem
  have hbefore : before.find? (fun other => other.1 == name) = none := by
    apply List.find?_eq_none.mpr
    intro pair hpair
    have hlt : pair.1 < name := (List.pairwise_append.mp h).2.2 pair hpair (name, entry) List.mem_cons_self
    simpa using ne_of_lt hlt
  unfold VfsDirectory.entry
  rw [List.find?_append, hbefore, Option.none_or, List.find?_cons_of_pos (by simp)]
  rfl

/-- Two maps with the same entries under every name are one. -/
theorem VfsDirectory.ext_entry {other : VfsDirectory} (h : NamesSorted entries) (hother : NamesSorted other)
    (hsame : ∀ name, entries.entry name = other.entry name) : entries = other := by
  have hmem : ∀ pair, pair ∈ entries ↔ pair ∈ other := by
    intro pair
    constructor
    · intro hpair
      exact mem_of_entry ((hsame pair.1).symm.trans (entry_of_mem h hpair))
    · intro hpair
      exact mem_of_entry ((hsame pair.1).trans (entry_of_mem hother hpair))
  have hnodup : ∀ {list : VfsDirectory}, NamesSorted list → list.Nodup := fun hlist =>
    hlist.imp fun hlt heq => absurd (congrArg Prod.fst heq) (ne_of_lt hlt)
  have hperm : entries.Perm other := (List.perm_ext_iff_of_nodup (hnodup h) (hnodup hother)).mpr hmem
  refine hperm.eq_of_pairwise ?_ h hother
  intro a b _ _ hab hba
  exact absurd hab (lt_asymm hba)

/-- Under a name there is nothing exactly when there is no file at or below it. -/
theorem entry_eq_none (h : Filled entries) :
    entries.entry name = none ↔ ∀ sought, fileAt entries (name :: sought) = none := by
  constructor
  · intro hentry sought
    rw [fileAt_cons, hentry]
    rfl
  · intro hnone
    cases hentry : entries.entry name with
    | none => rfl
    | some entry =>
      obtain ⟨sought, file, hfile⟩ := exists_fileUnder entry (EntriesAll.of_entry h hentry)
      have hthere : fileAt entries (name :: sought) = some file := by
        rw [fileAt_cons, hentry]
        exact hfile
      rw [hnone sought] at hthere
      cases hthere

/-- An entry with its directories in order and none of them empty. -/
def Canonical (entry : VfsEntry) : Prop := EntryAll NamesSorted entry ∧ EntryAll (· ≠ []) entry

/-- Two directories with the same files are one, when what stands in the first is known by its files. -/
theorem directory_ext {other : VfsDirectory} (hsorted : EntryAll NamesSorted (.directory entries))
    (hfilled : Filled entries) (hsorted' : EntryAll NamesSorted (.directory other)) (hfilled' : Filled other)
    (hsame : ∀ sought, fileAt entries sought = fileAt other sought)
    (hbelow : ∀ pair ∈ entries, ∀ there, Canonical there →
      (∀ sought, fileUnder pair.2 sought = fileUnder there sought) → pair.2 = there) : entries = other := by
  apply VfsDirectory.ext_entry hsorted.1 hsorted'.1
  intro name
  have hfiles : ∀ sought, fileAt entries (name :: sought) = fileAt other (name :: sought) := fun sought =>
    hsame (name :: sought)
  cases hentry : entries.entry name with
  | none =>
    symm
    rw [entry_eq_none hfilled']
    intro sought
    rw [← hfiles, (entry_eq_none hfilled).mp hentry sought]
  | some entry =>
    cases hthere : other.entry name with
    | none =>
      have hnone : entries.entry name = none := by
        rw [entry_eq_none hfilled]
        intro sought
        rw [hfiles, (entry_eq_none hfilled').mp hthere sought]
      rw [hentry] at hnone
      cases hnone
    | some there =>
      have hcanonical : Canonical there := ⟨hsorted'.2.of_entry hthere, EntriesAll.of_entry hfilled' hthere⟩
      refine congrArg some (hbelow (name, entry) (mem_of_entry hentry) there hcanonical ?_)
      intro sought
      have hsought := hfiles sought
      rw [fileAt_cons, fileAt_cons, hentry, hthere] at hsought
      exact hsought

mutual

/-- Such an entry is known by its files. -/
theorem canonical_ext (entry other : VfsEntry) (h : Canonical entry) (hother : Canonical other)
    (hsame : ∀ sought, fileUnder entry sought = fileUnder other sought) : entry = other := by
  match entry, other with
  | .file file, .file file' =>
    have hroot := hsame []
    rw [Option.some.inj hroot]
  | .file file, .directory entries => cases hsame []
  | .directory entries, .file file => cases hsame []
  | .directory entries, .directory others =>
    have hbelow := entries_ext entries h.1.2 h.2.2
    congr 1
    exact directory_ext h.1 h.2.2 hother.1 hother.2.2 hsame hbelow

theorem entries_ext (entries : List (String × VfsEntry)) (hsorted : EntriesAll NamesSorted entries)
    (hfilled : EntriesAll (· ≠ []) entries) :
    ∀ pair ∈ entries, ∀ there, Canonical there → (∀ sought, fileUnder pair.2 sought = fileUnder there sought) →
      pair.2 = there := by
  match entries with
  | [] => exact fun pair hpair => (nomatch hpair)
  | (name, entry) :: rest =>
    intro pair hpair there hthere hsame
    rcases List.mem_cons.mp hpair with rfl | hpair
    · exact canonical_ext entry there ⟨hsorted.1, hfilled.1⟩ hthere hsame
    · exact entries_ext rest hsorted.2 hfilled.2 pair hpair there hthere hsame

end

/-- Two trees with the same files are one. -/
theorem tree_ext {other : VfsDirectory} (hsorted : EntryAll NamesSorted (.directory entries)) (hfilled : Filled entries)
    (hsorted' : EntryAll NamesSorted (.directory other)) (hfilled' : Filled other)
    (hsame : ∀ sought, fileAt entries sought = fileAt other sought) : entries = other :=
  directory_ext hsorted hfilled hsorted' hfilled' hsame (entries_ext entries hsorted.2 hfilled)

/-! ## A file that is put in -/

/-- Puts a file where some components lead, and makes the directories above it. -/
def insertFileAt (path : VfsPath) (file : VfsFile) : VfsDirectory → List String → Except VfsError VfsDirectory
  | _, [] => .error .rootFile
  | entries, [name] =>
    match entries.entry name with
    | none => .ok (entries.insert name (.file file))
    | some (.directory _) => .error (.pathConflict path "directory")
    | some (.file _) => .error (.duplicatePath path)
  | entries, name :: next :: rest =>
    match entries.entry name with
    | some (.directory inner) => do
      return entries.insert name (.directory (← insertFileAt path file inner (next :: rest)))
    | none => do
      return entries.insert name (.directory (← insertFileAt path file [] (next :: rest)))
    | some (.file _) => .error (.pathConflict path "file")

def insertFile (directory : VfsDirectory) (path : VfsPath) (file : VfsFile) : Except VfsError VfsDirectory :=
  insertFileAt path file directory path.components

/-- What a file that is put in changes: the last directory has it, under a name that was free, and those above it
are there or made. -/
theorem insertFileAt_cons (h : insertFileAt path file entries (name :: components) = .ok made) :
    ∃ entry, made = entries.insert name entry ∧
      (components = [] ∧ entries.entry name = none ∧ entry = .file file ∨
        ∃ inner below, components ≠ [] ∧
          (entries.entry name = some (.directory inner) ∨ entries.entry name = none ∧ inner = []) ∧
          insertFileAt path file inner components = .ok below ∧ entry = .directory below) := by
  cases components with
  | nil =>
    rw [insertFileAt] at h
    cases hentry : entries.entry name with
    | none =>
      rw [hentry] at h
      exact ⟨.file file, (Except.ok.inj h).symm, Or.inl ⟨rfl, rfl, rfl⟩⟩
    | some entry =>
      rw [hentry] at h
      cases entry <;> cases h
  | cons next rest =>
    rw [insertFileAt] at h
    cases hentry : entries.entry name with
    | none =>
      rw [hentry] at h
      obtain ⟨below, hbelow, h⟩ := bind_eq_ok.mp h
      exact ⟨_, (Except.ok.inj h).symm, Or.inr ⟨[], below, List.cons_ne_nil _ _, Or.inr ⟨rfl, rfl⟩, hbelow, rfl⟩⟩
    | some entry =>
      rw [hentry] at h
      cases entry with
      | file there => cases h
      | directory inner =>
        obtain ⟨below, hbelow, h⟩ := bind_eq_ok.mp h
        exact ⟨_, (Except.ok.inj h).symm, Or.inr ⟨inner, below, List.cons_ne_nil _ _, Or.inl rfl, hbelow, rfl⟩⟩

/-- What holds of every directory, and of one that a name is put in, holds of every directory afterwards. -/
theorem all_insertFileAt
    (hp : ∀ entries, ∀ name ∈ components, ∀ entry, p entries ∨ entries = [] → p (entries.insert name entry))
    (hroot : p entries ∨ entries = []) (hall : EntriesAll p entries)
    (h : insertFileAt path file entries components = .ok made) : EntryAll p (.directory made) := by
  induction components generalizing entries made with
  | nil => cases h
  | cons name rest ih =>
    obtain ⟨entry, rfl, hcases⟩ := insertFileAt_cons h
    refine ⟨hp entries name List.mem_cons_self entry hroot, hall.insert ?_⟩
    rcases hcases with ⟨-, -, rfl⟩ | ⟨inner, below, -, hinner, hbelow, rfl⟩
    · trivial
    · have hp' : ∀ entries, ∀ name ∈ rest, ∀ entry, p entries ∨ entries = [] → p (entries.insert name entry) :=
        fun entries name hname => hp entries name (List.mem_cons_of_mem _ hname)
      rcases hinner with hentry | ⟨-, rfl⟩
      · have hinner : EntryAll p (.directory inner) := hall.of_entry hentry
        exact ih hp' (Or.inl hinner.1) hinner.2 hbelow
      · exact ih hp' (Or.inr rfl) trivial hbelow

/-- What a file that is put in adds is its weight. -/
theorem weight_insertFileAt {weigh : VfsFile → Nat} (hsorted : EntryAll NamesSorted (.directory entries))
    (h : insertFileAt path file entries components = .ok made) :
    directoryWeight weigh made = directoryWeight weigh entries + weigh file := by
  induction components generalizing entries made with
  | nil => cases h
  | cons name rest ih =>
    obtain ⟨entry, rfl, hcases⟩ := insertFileAt_cons h
    have hold : directoryWeight weigh entries =
        weightAt weigh (entries.entry name) + directoryWeight weigh (entries.remove name) := weight_remove hsorted.1
    rw [weight_insert, hold]
    rcases hcases with ⟨-, hnone, rfl⟩ | ⟨inner, below, -, hentry | ⟨hnone, rfl⟩, hbelow, rfl⟩
    · rw [hnone]
      show weigh file + _ = 0 + _ + weigh file
      omega
    · have hinner : directoryWeight weigh below = directoryWeight weigh inner + weigh file :=
        ih (hsorted.2.of_entry hentry) hbelow
      rw [hentry]
      show directoryWeight weigh below + _ = directoryWeight weigh inner + _ + weigh file
      omega
    · have hmade : directoryWeight weigh below = 0 + weigh file := ih ⟨List.Pairwise.nil, trivial⟩ hbelow
      rw [hnone]
      show directoryWeight weigh below + _ = 0 + _ + weigh file
      omega

/-- The file stands at its path, and the others stand where they did. -/
theorem fileAt_insertFileAt (h : insertFileAt path file entries components = .ok made) (sought : List String) :
    fileAt made sought = if sought = components then some file else fileAt entries sought := by
  induction components generalizing entries made sought with
  | nil => cases h
  | cons name rest ih =>
    obtain ⟨entry, rfl, hcases⟩ := insertFileAt_cons h
    cases sought with
    | nil => rfl
    | cons head tail =>
      by_cases hhead : head = name
      · subst hhead
        rw [fileAt_cons, fileAt_cons, VfsDirectory.entry_insert_self]
        rcases hcases with ⟨rfl, hnone, rfl⟩ | ⟨inner, below, -, hinner, hbelow, rfl⟩
        · rw [hnone]
          simp [fileUnder]
        · have hfiles : fileAt below tail = if tail = rest then some file else fileAt inner tail := ih hbelow tail
          show fileAt below tail = _
          rw [hfiles]
          rcases hinner with hentry | ⟨hnone, rfl⟩
          · rw [hentry]
            simp [fileUnder]
          · rw [hnone]
            cases tail <;> simp [fileAt, VfsDirectory.entry]
      · rw [if_neg (by simp [hhead]), fileAt_cons, fileAt_cons, VfsDirectory.entry_insert_of_ne hhead]

/-- A path is apart from those of the files that are there. -/
def Clear (entries : VfsDirectory) (components : List String) : Prop :=
  ∀ sought there, fileAt entries sought = some there → Apart components sought

theorem Apart.symm (h : Apart components sought) : Apart sought components := And.symm h

/-- At a path that is apart from those of the files there is none. -/
theorem Clear.ne (h : Clear entries components) : fileAt entries components ≠ some file :=
  fun hthere => (h components file hthere).1 (List.prefix_refl components)

/-- Paths with different first names are apart. -/
theorem apart_of_ne {head : String} (h : head ≠ name) : Apart (name :: components) (head :: sought) := by
  simp [Apart, h, Ne.symm h]

theorem clear_cons_none (h : entries.entry name = none) : Clear entries (name :: components) := by
  intro sought there hthere
  cases sought with
  | nil => cases hthere
  | cons head tail =>
    apply apart_of_ne
    rintro rfl
    rw [fileAt_cons, h] at hthere
    cases hthere

theorem not_clear_cons_file {there : VfsFile} (h : entries.entry name = some (.file there)) :
    ¬ Clear entries (name :: components) := by
  intro hclear
  have hthere : fileAt entries [name] = some there := by
    rw [fileAt_cons, h]
    rfl
  exact (hclear [name] there hthere).2 (List.prefix_append [name] components)

theorem clear_cons_directory (h : entries.entry name = some (.directory inner)) :
    Clear entries (name :: components) ↔ Clear inner components := by
  constructor
  · intro hclear sought there hthere
    have hbelow : fileAt entries (name :: sought) = some there := by
      rw [fileAt_cons, h]
      exact hthere
    exact (hclear (name :: sought) there hbelow).tail
  · intro hclear sought there hthere
    cases sought with
    | nil => cases hthere
    | cons head tail =>
      by_cases hhead : head = name
      · subst hhead
        rw [fileAt_cons, h] at hthere
        have hapart := hclear tail there hthere
        simpa [Apart] using hapart
      · exact apart_of_ne hhead

/-- A file goes in exactly when its path is apart from those of the files that are there. -/
theorem insertFileAt_eq_ok (hfilled : Filled entries) :
    (∃ made, insertFileAt path file entries components = .ok made) ↔ components ≠ [] ∧ Clear entries components := by
  induction components generalizing entries with
  | nil => simp [insertFileAt]
  | cons name rest ih =>
    have hne : name :: rest ≠ [] := List.cons_ne_nil name rest
    rw [and_iff_right hne]
    cases rest with
    | nil =>
      rw [insertFileAt]
      cases hentry : entries.entry name with
      | none => exact iff_of_true ⟨_, rfl⟩ (clear_cons_none hentry)
      | some entry =>
        cases entry with
        | file there => exact iff_of_false (fun ⟨made, h⟩ => (nomatch h)) (not_clear_cons_file hentry)
        | directory inner =>
          have hinner : EntryAll (· ≠ []) (.directory inner) := EntriesAll.of_entry hfilled hentry
          obtain ⟨sought, there, hthere⟩ := exists_fileAt inner hinner.1 hinner.2
          refine iff_of_false (fun ⟨made, h⟩ => (nomatch h)) fun hclear => ?_
          exact ((clear_cons_directory hentry).mp hclear sought there hthere).1 List.nil_prefix
    | cons next more =>
      rw [insertFileAt]
      cases hentry : entries.entry name with
      | none =>
        obtain ⟨below, hbelow⟩ := (ih filled_nil).mpr ⟨List.cons_ne_nil next more, fun sought there h => by
          cases sought <;> cases h⟩
        refine iff_of_true ⟨entries.insert name (.directory below), ?_⟩ (clear_cons_none hentry)
        dsimp only
        rw [hbelow]
        rfl
      | some entry =>
        cases entry with
        | file there => exact iff_of_false (fun ⟨made, h⟩ => (nomatch h)) (not_clear_cons_file hentry)
        | directory inner =>
          have hinner : EntryAll (· ≠ []) (.directory inner) := EntriesAll.of_entry hfilled hentry
          have hbelow := ih hinner.2
          rw [and_iff_right (List.cons_ne_nil next more)] at hbelow
          rw [clear_cons_directory hentry, ← hbelow]
          constructor
          · rintro ⟨made, h⟩
            obtain ⟨below, hbelow, -⟩ := bind_eq_ok.mp h
            exact ⟨below, hbelow⟩
          · rintro ⟨below, hbelow⟩
            refine ⟨entries.insert name (.directory below), ?_⟩
            dsimp only
            rw [hbelow]
            rfl

/-- A tree that files are put into, one by one. -/
structure Grown (root : VfsDirectory) : Prop where
  filled : Filled root
  sorted : EntryAll NamesSorted (.directory root)

theorem grown_nil : Grown [] := ⟨filled_nil, List.Pairwise.nil, trivial⟩

theorem Grown.insertFile {root : VfsDirectory} (hgrown : Grown root) (h : insertFile root path file = .ok made) :
    Grown made := by
  constructor
  · have hne : ∀ entries, ∀ name ∈ path.components, ∀ entry, entries ≠ [] ∨ entries = [] →
        VfsDirectory.insert entries name entry ≠ [] := fun entries name _ entry _ => by simp [VfsDirectory.insert]
    exact (all_insertFileAt hne (Classical.em (root = [])).symm hgrown.filled h).2
  · have hinsert : ∀ entries, ∀ name ∈ path.components, ∀ entry, NamesSorted entries ∨ entries = [] →
        NamesSorted (VfsDirectory.insert entries name entry) := by
      rintro entries name - entry (hsorted | rfl)
      · exact VfsDirectory.insert_sorted hsorted
      · exact VfsDirectory.insert_sorted List.Pairwise.nil
    exact all_insertFileAt hinsert (Or.inl hgrown.sorted.1) hgrown.sorted.2 h

/-- Behind a file that was put in, a path has to be apart from the file's too. -/
theorem clear_insertFile {root : VfsDirectory} (hclear : Clear root path.components)
    (h : insertFile root path file = .ok made) :
    Clear made components ↔ Clear root components ∧ Apart path.components components := by
  have hfiles : ∀ sought, fileAt made sought = if sought = path.components then some file else fileAt root sought :=
    fileAt_insertFileAt h
  constructor
  · intro hmade
    constructor
    · intro sought there hthere
      have hne : sought ≠ path.components := by
        rintro rfl
        exact hclear.ne hthere
      apply hmade sought there
      rw [hfiles, if_neg hne, hthere]
    · have hself : fileAt made path.components = some file := by rw [hfiles, if_pos rfl]
      exact (hmade path.components file hself).symm
  · rintro ⟨hroot, hapart⟩ sought there hthere
    rw [hfiles] at hthere
    split_ifs at hthere with hsought
    · rw [hsought]
      exact hapart.symm
    · exact hroot sought there hthere

/-- Valid names stay valid. -/
theorem names_insertFile {root : VfsDirectory} (hpath : ∀ name ∈ path.components, validateName name = .ok ())
    (hnames : EntryAll NamesValid (.directory root)) (h : insertFile root path file = .ok made) :
    EntryAll NamesValid (.directory made) := by
  have hinsert : ∀ entries, ∀ name ∈ path.components, ∀ entry, NamesValid entries ∨ entries = [] →
      NamesValid (VfsDirectory.insert entries name entry) := by
    intro entries name hname entry hentries pair hpair
    rcases VfsDirectory.mem_insert.mp hpair with rfl | ⟨hpair, -⟩
    · exact hpath name hname
    · rcases hentries with hentries | rfl
      · exact hentries pair hpair
      · cases hpair
  exact all_insertFileAt hinsert (Or.inl hnames.1) hnames.2 h

/-! ## Files that are put in one after another -/

def insertFiles (root : VfsDirectory) (staged : List (VfsPath × VfsFile)) : Except VfsError VfsDirectory :=
  staged.foldlM (fun root file => insertFile root file.1 file.2) root

variable {root : VfsDirectory} {staged : List (VfsPath × VfsFile)}

/-- What every file that is put in keeps, all of them keep. -/
theorem insertFiles_preserves {P : VfsDirectory → Prop}
    (hstep : ∀ put ∈ staged, ∀ root made, insertFile root put.1 put.2 = .ok made → P root → P made) (hroot : P root)
    (h : insertFiles root staged = .ok made) : P made :=
  foldlM_preserves (fun put hput root made hmade => hstep put hput root made hmade) h hroot

theorem Grown.insertFiles (hgrown : Grown root) (h : insertFiles root staged = .ok made) : Grown made :=
  insertFiles_preserves (fun _ _ _ _ hmade hroot => hroot.insertFile hmade) hgrown h

/-- The files of the tree afterwards are those that were put in and those that were there. -/
theorem fileAt_insertFiles (hgrown : Grown root) (h : insertFiles root staged = .ok made) :
    fileAt made sought = some file ↔
      (∃ put ∈ staged, put.1.components = sought ∧ put.2 = file) ∨ fileAt root sought = some file := by
  induction staged generalizing root with
  | nil =>
    obtain rfl := Except.ok.inj h
    simp
  | cons first rest ih =>
    obtain ⟨middle, hfirst, hrest⟩ := foldlM_cons_eq_ok.mp h
    have hclear : Clear root first.1.components := ((insertFileAt_eq_ok hgrown.filled).mp ⟨middle, hfirst⟩).2
    have hmiddle : fileAt middle sought = if sought = first.1.components then some first.2 else fileAt root sought :=
      fileAt_insertFileAt hfirst sought
    rw [ih (hgrown.insertFile hfirst) hrest, hmiddle]
    split_ifs with hsought
    · subst hsought
      have hfree : fileAt root first.1.components ≠ some file := hclear.ne
      simp [hfree, or_comm]
    · simp [Ne.symm hsought]

/-- Files go into a tree exactly when their paths are apart, from each other and from those of the files that are
there. -/
theorem insertFiles_eq_ok (hgrown : Grown root) :
    (∃ made, insertFiles root staged = .ok made) ↔
      (∀ put ∈ staged, put.1.components ≠ [] ∧ Clear root put.1.components) ∧
        staged.Pairwise fun a b => Apart a.1.components b.1.components := by
  induction staged generalizing root with
  | nil => simp [insertFiles, pure, Except.pure]
  | cons first rest ih =>
    have hfirst : (∃ middle, insertFile root first.1 first.2 = .ok middle) ↔ _ :=
      insertFileAt_eq_ok hgrown.filled
    have hclear : ∀ middle, insertFile root first.1 first.2 = .ok middle → ∀ components, Clear middle components ↔
        Clear root components ∧ Apart first.1.components components := fun middle hmiddle components =>
      clear_insertFile (hfirst.mp ⟨middle, hmiddle⟩).2 hmiddle
    rw [List.forall_mem_cons, List.pairwise_cons]
    constructor
    · rintro ⟨made, h⟩
      obtain ⟨middle, hmiddle, hrest⟩ := foldlM_cons_eq_ok.mp h
      obtain ⟨hall, hpairwise⟩ := (ih (hgrown.insertFile hmiddle)).mp ⟨made, hrest⟩
      refine ⟨⟨hfirst.mp ⟨middle, hmiddle⟩, fun put hput => ?_⟩, fun put hput => ?_, hpairwise⟩
      · exact ⟨(hall put hput).1, ((hclear middle hmiddle _).mp (hall put hput).2).1⟩
      · exact ((hclear middle hmiddle _).mp (hall put hput).2).2
    · rintro ⟨⟨hfree, hall⟩, hapart, hpairwise⟩
      obtain ⟨middle, hmiddle⟩ := hfirst.mpr hfree
      obtain ⟨made, hrest⟩ := (ih (hgrown.insertFile hmiddle)).mpr ⟨fun put hput =>
        ⟨(hall put hput).1, (hclear middle hmiddle _).mpr ⟨(hall put hput).2, hapart put hput⟩⟩, hpairwise⟩
      exact ⟨made, foldlM_cons_eq_ok.mpr ⟨middle, hmiddle, hrest⟩⟩

/-- What the files weigh that are put in. -/
theorem weight_insertFiles {weigh : VfsFile → Nat} (hgrown : Grown root) (h : insertFiles root staged = .ok made) :
    directoryWeight weigh made = directoryWeight weigh root + (staged.map fun put => weigh put.2).sum := by
  induction staged generalizing root with
  | nil =>
    obtain rfl := Except.ok.inj h
    rfl
  | cons first rest ih =>
    obtain ⟨middle, hfirst, hrest⟩ := foldlM_cons_eq_ok.mp h
    have hmiddle : directoryWeight weigh middle = directoryWeight weigh root + weigh first.2 :=
      weight_insertFileAt hgrown.sorted hfirst
    rw [ih (hgrown.insertFile hfirst) hrest, hmiddle, List.map_cons, List.sum_cons, Nat.add_assoc]

end Lightspeed.Files
