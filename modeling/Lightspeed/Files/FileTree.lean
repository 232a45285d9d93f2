import Lightspeed.Files.TreeChanges

/-!
# Manifests as file trees

The operations on a manifest are those of a file tree. One that returns leaves a manifest that validates, with what
was asked for at its target and every path apart from it as it was; one that fails leaves the manifest as it was.
What is put at a boundary comes from outside and its names are not checked, so that the names of a replacing entry
have to be valid.
-/

namespace Lightspeed.Files

open Lib

variable {manifest changed : VfsSnapshotManifest} {path : VfsPath} {entry : VfsEntry} {name : String}
  {parent new root : VfsDirectory} {result : Except VfsError VfsEntry}

/-- A path that was read from text. -/
def VfsPath.Parsed (path : VfsPath) : Prop := ∃ text, VfsPath.parse text = .ok path

/-- The components of such a path are valid names. -/
theorem VfsPath.Parsed.names (h : path.Parsed) : ∀ name ∈ path.components, validateName name = .ok () := by
  obtain ⟨text, hparse⟩ := h
  intro name hname
  obtain ⟨hempty, hdot, hdots⟩ := path.valid name hname
  obtain ⟨hslash, hnul⟩ := VfsPath.chars_of_parse hparse name hname
  unfold validateName
  rw [if_neg (by simp [hempty, hdot, hdots, hnul]), if_neg hslash]

/-! ## What a change leaves -/

/-- A tree that a change of one path leaves. -/
structure Leaves (manifest : VfsSnapshotManifest) (path : VfsPath) (result : Except VfsError VfsEntry)
    (root : VfsDirectory) : Prop where
  names : EntryAll NamesValid (.directory root)
  sorted : EntryAll NamesSorted (.directory root)
  target : lookupEntry path root path.components = result
  apart : ∀ sought : VfsPath, Apart path.components sought.components →
    lookupEntry sought root sought.components = lookupEntry sought manifest.root sought.components

theorem namesValid_put (entries : VfsDirectory) (name : String) (entry old : VfsEntry) (h : NamesValid entries)
    (hentry : entries.entry name = some old) : NamesValid (entries.insert name entry) := by
  intro pair hpair
  rcases VfsDirectory.mem_insert.mp hpair with rfl | ⟨hpair, -⟩
  · exact h (name, old) (mem_of_entry hentry)
  · exact h pair hpair

/-- The directory above a path, changed under the path's name only and written back. -/
theorem leaves_put (h : Sound manifest) (hname : path.components.getLast? = some name)
    (hparent : parentDirectory manifest path = .ok parent)
    (hother : ∀ other, other ≠ name → new.entry other = parent.entry other)
    (hnames : EntryAll NamesValid (.directory new)) (hsorted : EntryAll NamesSorted (.directory new))
    (htarget : lookupEntry path new [name] = result) :
    Leaves manifest path result (manifest.putRoot path new) := by
  have hsplit : path.components.dropLast ++ [name] = path.components := components_split hname
  refine ⟨?_, ?_, ?_, ?_⟩
  · exact all_putDirectory namesValid_put hparent h.names hnames
  · exact all_putDirectory (fun _ _ _ _ hentries _ => VfsDirectory.insert_sorted hentries) hparent h.sorted hsorted
  · have hbelow : lookupEntry path (manifest.putRoot path new) (path.components.dropLast ++ [name]) =
        lookupEntry path new [name] := lookupEntry_put_below hparent
    rwa [hsplit, htarget] at hbelow
  · intro sought hapart
    rw [← hsplit] at hapart
    exact lookupEntry_put_apart hparent hother hapart

/-- What stands under a name is what a lookup of the name gives. -/
theorem lookupEntry_singleton (hentry : new.entry name = some entry) : lookupEntry path new [name] = .ok entry := by
  rw [lookupEntry, hentry]
  cases entry <;> rfl

/-- An entry that is placed stands at its path. -/
theorem PutAt.leaves (h : Sound manifest) (hpath : path.Parsed) (hnames : EntryAll NamesValid entry)
    (hsorted : EntryAll NamesSorted entry) (hplaced : PutAt manifest path entry root) :
    Leaves manifest path (.ok entry) root := by
  obtain ⟨name, parent, hname, hparent, rfl⟩ := hplaced
  have hvalid : validateName name = .ok () := hpath.names name (List.mem_of_getLast? hname)
  have hparentNames : EntryAll NamesValid (.directory parent) := all_directoryAt hparent h.names
  have hparentSorted : EntryAll NamesSorted (.directory parent) := all_directoryAt hparent h.sorted
  refine leaves_put h hname hparent (fun other hne => VfsDirectory.entry_insert_of_ne hne) ⟨?_, ?_⟩ ⟨?_, ?_⟩
    (lookupEntry_singleton VfsDirectory.entry_insert_self)
  · intro pair hpair
    rcases VfsDirectory.mem_insert.mp hpair with rfl | ⟨hpair, -⟩
    · exact hvalid
    · exact hparentNames.1 pair hpair
  · exact hparentNames.2.insert hnames
  · exact VfsDirectory.insert_sorted hparentSorted.1
  · exact hparentSorted.2.insert hsorted

/-- An entry that is removed is not found at its path. -/
theorem leaves_removed (h : Sound manifest) (hname : path.components.getLast? = some name)
    (hparent : parentDirectory manifest path = .ok parent) :
    Leaves manifest path (.error (.notFound path)) (manifest.putRoot path (parent.remove name)) := by
  have hparentNames : EntryAll NamesValid (.directory parent) := all_directoryAt hparent h.names
  have hparentSorted : EntryAll NamesSorted (.directory parent) := all_directoryAt hparent h.sorted
  refine leaves_put h hname hparent (fun other hne => VfsDirectory.entry_remove_of_ne hne) ⟨?_, ?_⟩ ⟨?_, ?_⟩ ?_
  · exact fun pair hpair => hparentNames.1 pair (List.mem_filter.mp hpair).1
  · exact hparentNames.2.remove
  · exact VfsDirectory.remove_sorted hparentSorted.1
  · exact hparentSorted.2.remove
  · rw [lookupEntry, VfsDirectory.entry_remove_self]

/-- A tree that is left as it was. -/
theorem leaves_same (h : Sound manifest) (htarget : lookupEntry path manifest.root path.components = result) :
    Leaves manifest path result manifest.root :=
  ⟨h.names, h.sorted, htarget, fun _ _ => rfl⟩

/-- Below a directory that is missing nothing is found. -/
theorem lookupEntry_missing {found missing : VfsPath} {depth : Nat} {entries : VfsDirectory} {components : List String}
    (h : directoryAt path depth entries components = .error (.notFound missing)) (rest : List String) :
    lookupEntry found entries (components ++ rest) = .error (.notFound found) := by
  induction components generalizing entries depth with
  | nil => cases h
  | cons first more ih =>
    rw [directoryAt] at h
    rw [List.cons_append, lookupEntry]
    cases hentry : entries.entry first with
    | none => rfl
    | some entry =>
      rw [hentry] at h
      cases entry with
      | file file => cases h
      | directory inner => exact ih h

theorem entry_file_all {p : VfsDirectory → Prop} (file : VfsFile) : EntryAll p (.file file) := by
  rw [EntryAll]
  trivial

/-! ## The operations -/

/-- What is asked of a manifest. -/
inductive ManifestOperation
  | write (path : VfsPath) (file : VfsFile)
  | createDirectory (path : VfsPath) (recursive : Bool)
  | remove (path : VfsPath) (recursive force : Bool)
  | replace (path : VfsPath) (entry : VfsEntry)
  | copy (source destination : VfsPath) (recursive : Bool)

namespace ManifestOperation

/-- The operation, changing the manifest it is given. -/
def inPlace : ManifestOperation → InPlace.Change
  | write path file => InPlace.writeManifestFileRef path file
  | createDirectory path recursive => InPlace.createManifestDirectory path recursive
  | remove path recursive force => InPlace.removeManifestPath path recursive force
  | replace path entry => InPlace.replaceManifestEntry path entry
  | copy source destination recursive => InPlace.copyManifestPath source destination recursive

/-- The operation as a function that returns the changed manifest. -/
def apply (manifest : VfsSnapshotManifest) : ManifestOperation → Except VfsError VfsSnapshotManifest
  | write path file => writeManifestFileRef manifest path file
  | createDirectory path recursive => createManifestDirectory manifest path recursive
  | remove path recursive force => removeManifestPath manifest path recursive force
  | replace path entry => replaceManifestEntry manifest path entry
  | copy source destination recursive => copyManifestPath manifest source destination recursive

def target : ManifestOperation → VfsPath
  | write path _ | createDirectory path _ | remove path _ _ | replace path _ | copy _ path _ => path

/-- What a lookup of the target gives afterwards: what was written, made, put or copied, or nothing. -/
def standing (manifest : VfsSnapshotManifest) : ManifestOperation → Except VfsError VfsEntry
  | write _ file => .ok (.file file)
  | createDirectory path _ => .ok (directoryThere (lookupSnapshotPath manifest path))
  | remove path _ _ => .error (.notFound path)
  | replace _ entry => .ok entry
  | copy source _ _ => lookupSnapshotPath manifest source

/-- A replacing entry's directories have the property. -/
def EntryHas (p : VfsDirectory → Prop) : ManifestOperation → Prop
  | replace _ entry => EntryAll p entry
  | _ => True

end ManifestOperation

variable {operation : ManifestOperation}

/-- An entry that is found has what holds throughout the tree. -/
theorem entryAll_lookup {p : VfsDirectory → Prop} {found : VfsPath} {entries : VfsDirectory} {components : List String}
    (hall : EntryAll p (.directory entries)) (h : lookupEntry found entries components = .ok entry) :
    EntryAll p entry := by
  induction components generalizing entries with
  | nil => exact Except.ok.inj h ▸ hall
  | cons name rest ih =>
    rw [lookupEntry] at h
    rw [EntryAll] at hall
    cases hentry : entries.entry name with
    | none =>
      rw [hentry] at h
      cases h
    | some inner =>
      rw [hentry] at h
      cases inner with
      | file file =>
        dsimp only at h
        split_ifs at h
        exact Except.ok.inj h ▸ trivial
      | directory inner => exact ih (hall.2.of_entry hentry) h

/-- An operation fails and changes nothing, or it leaves a tree that is as it says. -/
theorem operation_comesTo (h : Sound manifest) (htarget : operation.target.Parsed)
    (hnames : operation.EntryHas NamesValid) (hsorted : operation.EntryHas NamesSorted)
    (hfits : (directorySize (runOn operation.inPlace manifest).2.root).Fits) :
    ComesTo manifest (runOn operation.inPlace manifest) (operation.apply manifest)
      (Leaves manifest operation.target (operation.standing manifest)) := by
  cases operation with
  | write path file =>
    exact (writeManifestFileRef_comesTo h hfits).mono fun root hplaced =>
      hplaced.leaves h htarget (entry_file_all _) (entry_file_all _)
  | createDirectory path recursive =>
    apply (createManifestDirectory_comesTo h).mono
    rintro root (hmade | ⟨name, parent, hname, hparent, hnone, rfl⟩)
    · refine ⟨?_, ?_, lookupEntry_created hmade, fun sought hapart => lookupEntry_created_apart hmade hapart⟩
      · refine all_createDirectories (by simp [NamesValid]) ?_ h.names hmade
        intro entries name hname entry hentries pair hpair
        rcases VfsDirectory.mem_insert.mp hpair with rfl | ⟨hpair, -⟩
        · exact htarget.names name hname
        · exact hentries pair hpair
      · exact all_createDirectories List.Pairwise.nil
          (fun _ _ _ _ hentries => VfsDirectory.insert_sorted hentries) h.sorted hmade
    · have hempty : EntryAll NamesValid (.directory []) := ⟨by simp [NamesValid], trivial⟩
      have hleaves := PutAt.leaves h htarget hempty ⟨List.Pairwise.nil, trivial⟩ ⟨name, parent, hname, hparent, rfl⟩
      have hmissing : lookupEntry path manifest.root path.components = .error (.notFound path) := by
        rw [← components_split hname, lookupEntry_directoryAt hparent, lookupEntry, hnone]
      have hstanding : ManifestOperation.standing manifest (.createDirectory path recursive) = .ok (.directory []) := by
        show Except.ok (directoryThere (lookupEntry path manifest.root path.components)) = _
        rw [hmissing]
        rfl
      rw [hstanding]
      exact hleaves
  | remove path recursive force =>
    apply (removeManifestPath_comesTo h).mono
    rintro root ⟨name, hname, ⟨⟨missing, hmissing⟩, rfl⟩ | ⟨parent, hparent, ⟨hnone, rfl⟩ | rfl⟩⟩
    · apply leaves_same h
      show lookupEntry path manifest.root path.components = .error (.notFound path)
      rw [← components_split hname]
      exact lookupEntry_missing hmissing [name]
    · apply leaves_same h
      show lookupEntry path manifest.root path.components = .error (.notFound path)
      rw [← components_split hname, lookupEntry_directoryAt hparent, lookupEntry, hnone]
    · exact leaves_removed h hname hparent
  | replace path entry =>
    apply (replaceManifestEntry_comesTo h hfits).mono
    rintro root (⟨hroot, rfl⟩ | ⟨-, hplaced⟩)
    · have hempty : path.components = [] := List.isEmpty_iff.mp hroot
      refine ⟨hnames, hsorted, ?_, ?_⟩
      · show lookupEntry path root path.components = .ok (.directory root)
        rw [hempty]
        rfl
      · intro sought hapart
        have hprefix : path.components <+: sought.components := hempty ▸ List.nil_prefix
        exact absurd hprefix hapart.1
    · exact hplaced.leaves h htarget hnames hsorted
  | copy source destination recursive =>
    apply (copyManifestPath_comesTo h hfits).mono
    rintro root ⟨entry, hsource, hplaced⟩
    have hleaves := hplaced.leaves h htarget (entryAll_lookup h.names hsource) (entryAll_lookup h.sorted hsource)
    rw [← hsource] at hleaves
    exact hleaves

/-- On a manifest that validates, an operation on paths that were read, with the names of a replacing entry valid,
implements a file tree, as long as the files and the bytes of the tree that it leaves are numbers of 64 bits. If it
returns, the manifest validates, its target stands as it was asked for, and every path that is neither at nor below
nor above the target is looked up with the same result. If it fails, the manifest is as it was. -/
theorem operations_implement_tree (manifest : VfsSnapshotManifest) (operation : ManifestOperation)
    (htyped : WellTyped manifest) (hvalid : manifest.validate = .ok ()) (htarget : operation.target.Parsed)
    (hsorted : operation.EntryHas NamesSorted) (hnames : operation.EntryHas NamesValid)
    (hfits : (directorySize (runOn operation.inPlace manifest).2.root).Fits) :
    match runOn operation.inPlace manifest with
    | (.ok (), changed) =>
      changed.validate = .ok () ∧ WellTyped changed ∧ changed.totals = directorySize changed.root ∧
      lookupSnapshotPath changed operation.target = operation.standing manifest ∧
      ∀ sought : VfsPath, Apart operation.target.components sought.components →
        lookupSnapshotPath changed sought = lookupSnapshotPath manifest sought
    | (.error _, left) => left = manifest := by
  have hsound := sound_of_validate htyped hvalid
  rcases operation_comesTo hsound htarget hnames hsorted hfits with ⟨e, -, hran⟩ | ⟨root, hleaves, -, hran⟩
  · rw [hran]
  · rw [hran] at hfits ⊢
    have hchanged : Sound (manifest.withTree root) :=
      ⟨hsound.version, hleaves.names, hleaves.sorted, rfl, hfits⟩
    exact ⟨hchanged.validate, hchanged.wellTyped, rfl, hleaves.target, hleaves.apart⟩

/-- A file two directories down. -/
def nestedManifest : VfsSnapshotManifest where
  root := [("a", .directory [("b", .directory [("c", .file ⟨"blob", 3, none, false⟩)])])]
  totals := ⟨1, 3⟩

def pathA : VfsPath := ⟨["a"], by decide⟩

def pathAB : VfsPath := ⟨["a", "b"], by decide⟩

/-- A directory is copied over the one that it is in. -/
theorem operations_implement_tree_copied :
    (runOn (ManifestOperation.copy pathAB pathA true).inPlace nestedManifest).1 = .ok () ∧
    match runOn (ManifestOperation.copy pathAB pathA true).inPlace nestedManifest with
    | (.ok (), changed) =>
      changed.validate = .ok () ∧ WellTyped changed ∧ changed.totals = directorySize changed.root ∧
      lookupSnapshotPath changed pathA = lookupSnapshotPath nestedManifest pathAB ∧
      ∀ sought : VfsPath, Apart pathA.components sought.components →
        lookupSnapshotPath changed sought = lookupSnapshotPath nestedManifest sought
    | (.error _, left) => left = nestedManifest := by
  have hsorted : EntryAll NamesSorted (.directory nestedManifest.root) := by
    simp [nestedManifest, EntryAll, EntriesAll, NamesSorted]
  have hparsed : pathA.Parsed := ⟨"/a", by decide +kernel⟩
  refine ⟨by rfl, ?_⟩
  exact operations_implement_tree nestedManifest (.copy pathAB pathA true) ⟨hsorted, by decide, by decide⟩ (by rfl)
    hparsed trivial trivial ⟨by decide, by decide⟩

/-- A replacing entry with a name that is not valid is put as it is, and the manifest no longer validates. -/
theorem replaced_names_unchecked :
    VfsSnapshotManifest.empty.validate = .ok () ∧ WellTyped .empty ∧ VfsPath.parse "/" = .ok .root ∧
    let operation := ManifestOperation.replace .root (.directory [("..", .file ⟨"blob", 1, none, false⟩)])
    operation.EntryHas NamesSorted ∧ (directorySize (runOn operation.inPlace .empty).2.root).Fits ∧
    (runOn operation.inPlace .empty).1 = .ok () ∧ (runOn operation.inPlace .empty).2.validate ≠ .ok () := by
  have hempty : EntryAll NamesSorted (.directory []) := ⟨List.Pairwise.nil, trivial⟩
  refine ⟨by rfl, ⟨hempty, by decide, by decide⟩, by decide, ?_, ⟨by decide, by decide⟩, by rfl, ?_⟩
  · simp [ManifestOperation.EntryHas, EntryAll, EntriesAll, NamesSorted]
  · intro h
    obtain ⟨-, hnames, -⟩ := validate_eq_ok h
    have hdots := hnames.1 ("..", .file ⟨"blob", 1, none, false⟩) List.mem_cons_self
    exact absurd hdots (by decide)

end Lightspeed.Files
