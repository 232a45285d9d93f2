import Lightspeed.Files.Workspace

/-!
# What a change leaves alone

A file that is written stands at its path, a file that is removed or moved is gone from it, and every
other path keeps its file.
-/

namespace Lightspeed.Files

open Lib

/-! ## Entries of a directory -/

namespace VfsDirectory

variable {entries : VfsDirectory} {name other : String} {new : VfsEntry}

theorem entry_insert_self : (entries.insert name new).entry name = some new := by
  have hbefore : (entries.takeWhile fun pair => pair.1 < name).find? (fun pair => pair.1 == name) =
      none := by
    refine List.find?_eq_none.mpr fun pair hpair => ?_
    have hlt : pair.1 < name := by
      simpa using List.all_eq_true.mp List.all_takeWhile pair hpair
    simpa using ne_of_lt hlt
  unfold entry insert
  rw [List.find?_append, hbefore, Option.none_or, List.find?_cons_of_pos (by simp)]
  rfl

theorem find?_filter_ne (h : other ≠ name) (pairs : VfsDirectory) :
    (pairs.filter fun pair => pair.1 != name).find? (fun pair => pair.1 == other) =
      pairs.find? fun pair => pair.1 == other := by
  rw [List.find?_filter]
  congr 1
  funext pair
  by_cases hpair : pair.1 = other
  · have hne : pair.1 ≠ name := fun hname => h (hpair.symm.trans hname)
    simp [hpair, h]
  · simp [hpair]

theorem entry_insert_of_ne (h : other ≠ name) :
    (entries.insert name new).entry other = entries.entry other := by
  unfold entry insert
  rw [List.find?_append, List.find?_cons_of_neg (by simpa using h.symm), find?_filter_ne h,
    ← List.find?_append, List.takeWhile_append_dropWhile]

theorem entry_remove_self : (entries.remove name).entry name = none := by
  have hnone : (entries.filter fun pair => pair.1 != name).find? (fun pair => pair.1 == name) =
      none := by
    refine List.find?_eq_none.mpr fun pair hpair => ?_
    simpa using (List.mem_filter.mp hpair).2
  unfold entry remove
  rw [hnone]
  rfl

theorem entry_remove_of_ne (h : other ≠ name) : (entries.remove name).entry other = entries.entry other := by
  unfold entry remove
  rw [find?_filter_ne h]

end VfsDirectory

/-! ## Files of a tree -/

/-- The file that some components lead to. -/
def fileAt : VfsDirectory → List String → Option VfsFile
  | _, [] => none
  | entries, name :: rest =>
    match entries.entry name with
    | some (.file file) => if rest.isEmpty then some file else none
    | some (.directory inner) => fileAt inner rest
    | none => none

theorem lookupEntry_file {path : VfsPath} {entries : VfsDirectory} {components : List String}
    {file : VfsFile} :
    lookupEntry path entries components = .ok (.file file) ↔ fileAt entries components = some file := by
  induction components generalizing entries with
  | nil => simp [lookupEntry, fileAt]
  | cons name rest ih =>
    rw [lookupEntry, fileAt]
    cases entries.entry name with
    | none => simp
    | some entry =>
      cases entry with
      | file other =>
        dsimp only
        split_ifs <;> simp
      | directory inner => exact ih

theorem manifestFile_eq (manifest : VfsSnapshotManifest) (path : VfsPath) :
    manifestFile manifest path = fileAt manifest.root path.components := by
  unfold manifestFile lookupSnapshotPath
  split
  next file hfile => exact (lookupEntry_file.mp hfile).symm
  next hnot =>
    cases hfile : fileAt manifest.root path.components with
    | none => rfl
    | some file => exact absurd (lookupEntry_file.mpr hfile) (hnot file)

/-- A directory that is written back, and differs in one name's file only, changes the tree in that file
only. -/
theorem fileAt_putDirectory {path : VfsPath} {depth : Nat} {entries directory new : VfsDirectory}
    {components : List String} {name : String}
    (hdirectory : directoryAt path depth entries components = .ok directory)
    (hother : ∀ rest, rest ≠ [name] → fileAt new rest = fileAt directory rest) (sought : List String) :
    fileAt (putDirectory entries components new) sought =
      if sought = components ++ [name] then fileAt new [name] else fileAt entries sought := by
  induction components generalizing entries depth sought with
  | nil =>
    obtain rfl := Except.ok.inj hdirectory
    rw [putDirectory, List.nil_append]
    split_ifs with hsought
    · rw [hsought]
    · exact hother sought hsought
  | cons first rest ih =>
    rw [directoryAt] at hdirectory
    rw [putDirectory]
    cases hentry : entries.entry first with
    | none =>
      rw [hentry] at hdirectory
      cases hdirectory
    | some entry =>
      rw [hentry] at hdirectory
      cases entry with
      | file file => cases hdirectory
      | directory inner =>
        dsimp only at hdirectory ⊢
        cases sought with
        | nil => rfl
        | cons head tail =>
          by_cases hhead : head = first
          · subst hhead
            have hnew : fileAt (entries.insert head (.directory (putDirectory inner rest new)))
                (head :: tail) = fileAt (putDirectory inner rest new) tail := by
              rw [fileAt, VfsDirectory.entry_insert_self]
            have hold : fileAt entries (head :: tail) = fileAt inner tail := by
              rw [fileAt, hentry]
            rw [hnew, hold, ih hdirectory]
            simp
          · rw [if_neg (by simp [hhead]), fileAt, fileAt, VfsDirectory.entry_insert_of_ne hhead]

/-! ## Files of a manifest -/

variable {manifest changed : VfsSnapshotManifest} {path : VfsPath} {file : VfsFile}

theorem VfsPath.ext_components {a b : VfsPath} (h : a.components = b.components) : a = b := by
  cases a
  cases b
  congr

/-- A path's components are its parent's and its name. -/
theorem components_split {name : String} (h : path.components.getLast? = some name) :
    path.components.dropLast ++ [name] = path.components :=
  List.dropLast_append_getLast? name h

/-- What is written back at a path's parent, and differs in the path's name only, changes the path's file
only. -/
theorem manifestFile_putParent {parent new : VfsDirectory} {totals : VfsTotals} {name : String}
    (hname : path.components.getLast? = some name)
    (hparent : parentDirectory manifest path = .ok parent)
    (hother : ∀ rest, rest ≠ [name] → fileAt new rest = fileAt parent rest) (sought : VfsPath) :
    manifestFile (manifest.putParent path new totals) sought =
      if sought = path then fileAt new [name] else manifestFile manifest sought := by
  rw [manifestFile_eq, manifestFile_eq]
  unfold VfsSnapshotManifest.putParent
  dsimp only
  rw [fileAt_putDirectory hparent hother, components_split hname]
  by_cases hsame : sought = path
  · rw [if_pos hsame, if_pos (by rw [hsame])]
  · rw [if_neg hsame, if_neg fun h => hsame (VfsPath.ext_components h)]

/-- A written file stands at its path, and nothing else changes. -/
theorem manifestFile_write (h : writeManifestFileRef manifest path file = .ok changed)
    (sought : VfsPath) :
    manifestFile changed sought = if sought = path then some file else manifestFile manifest sought := by
  unfold writeManifestFileRef at h
  obtain ⟨_, htarget, h⟩ := bind_eq_ok.mp h
  unfold ensureFileWriteTarget at htarget
  unfold insertOrReplaceEntry at h
  cases hname : path.components.getLast? with
  | none =>
    rw [hname] at htarget
    cases htarget
  | some name =>
    rw [hname] at htarget h
    dsimp only at htarget h
    obtain ⟨parent, hparent, htarget⟩ := bind_eq_ok.mp htarget
    obtain ⟨added, -, h⟩ := bind_eq_ok.mp h
    obtain ⟨parent', hparent', h⟩ := bind_eq_ok.mp h
    rw [hparent] at hparent'
    obtain rfl := Except.ok.inj hparent'
    obtain ⟨kept, -, h⟩ := bind_eq_ok.mp h
    obtain ⟨totals, -, h⟩ := bind_eq_ok.mp h
    obtain rfl := Except.ok.inj h
    rw [manifestFile_putParent hname hparent]
    · rw [fileAt, VfsDirectory.entry_insert_self]
      rfl
    · intro rest hrest
      cases rest with
      | nil => rfl
      | cons first tail =>
        rw [fileAt, fileAt]
        by_cases hfirst : first = name
        · -- Below a file that is there, or not there yet, nothing is found.
          subst hfirst
          have htail : tail ≠ [] := fun htail => hrest (by rw [htail])
          rw [VfsDirectory.entry_insert_self]
          cases hentry : parent.entry first with
          | none => simp [htail]
          | some entry =>
            rw [hentry] at htarget
            cases entry with
            | file old => simp [htail]
            | directory inner => cases htarget
        · rw [VfsDirectory.entry_insert_of_ne hfirst]

/-- What is removed without its descendants leaves its path, and nothing else changes. -/
theorem manifestFile_remove (h : removeManifestPath manifest path false false = .ok changed)
    (sought : VfsPath) :
    manifestFile changed sought = if sought = path then none else manifestFile manifest sought := by
  unfold removeManifestPath at h
  cases hname : path.components.getLast? with
  | none =>
    rw [hname] at h
    cases h
  | some name =>
    rw [hname] at h
    dsimp only at h
    cases hparent : parentDirectory manifest path with
    | error error =>
      rw [hparent] at h
      cases error <;> cases h
    | ok parent =>
      rw [hparent] at h
      dsimp only at h
      cases hentry : parent.entry name with
      | none =>
        rw [hentry] at h
        cases h
      | some entry =>
        rw [hentry] at h
        dsimp only at h
        obtain ⟨_, hremovable, h⟩ := bind_eq_ok.mp h
        obtain ⟨kept, -, h⟩ := bind_eq_ok.mp h
        obtain rfl := Except.ok.inj h
        have hrest : ∀ rest, rest ≠ [name] → fileAt (parent.remove name) rest = fileAt parent rest := by
          intro rest hrest
          cases rest with
          | nil => rfl
          | cons first tail =>
            rw [fileAt, fileAt]
            by_cases hfirst : first = name
            · subst hfirst
              have htail : tail ≠ [] := fun htail => hrest (by rw [htail])
              rw [VfsDirectory.entry_remove_self, hentry]
              cases entry with
              | file old => simp [htail]
              | directory inner =>
                have hinner : inner = [] := by simpa using require_eq_ok.mp hremovable
                cases tail with
                | nil => exact absurd rfl htail
                | cons second tail =>
                  dsimp only
                  rw [hinner, fileAt]
                  rfl
            · rw [VfsDirectory.entry_remove_of_ne hfirst]
        rw [manifestFile_putParent hname hparent hrest, fileAt, VfsDirectory.entry_remove_self]

/-- A result that is lifted is the versioned filesystem's. -/
theorem liftVfs_eq_ok {α : Type} {result : Except VfsError α} {requestPath : FsPath} {value : α} :
    liftVfs result requestPath = .ok value ↔ result = .ok value := by
  unfold liftVfs
  cases result with
  | error error => exact ⟨fun h => (nomatch h), fun h => (nomatch h)⟩
  | ok found => exact ⟨fun h => congrArg _ (Except.ok.inj h), fun h => congrArg _ (Except.ok.inj h)⟩

theorem manifestFile_place {requestPath : FsPath} {options : RenameOptions}
    (h : placeManifestFile manifest path requestPath file options = .ok changed) (sought : VfsPath) :
    manifestFile changed sought = if sought = path then some file else manifestFile manifest sought := by
  unfold placeManifestFile at h
  obtain ⟨_, -, h⟩ := bind_eq_ok.mp h
  exact manifestFile_write (liftVfs_eq_ok.mp h) sought

/-- A rename takes its source's file to the destination, and changes nothing else. -/
theorem manifestFile_rename {sourcePath destinationPath : FsPath} {source destination : VfsPath}
    {options : RenameOptions}
    (h : (WorkspaceUpdate.rename sourcePath destinationPath source destination options).apply manifest =
      .ok changed) :
    ∃ moved, manifestFile manifest source = some moved ∧ ∀ sought,
      manifestFile changed sought =
        if sought = destination then some moved
        else if sought = source then none
        else manifestFile manifest sought := by
  unfold WorkspaceUpdate.apply at h
  dsimp only at h
  obtain ⟨entry, hentry, h⟩ := bind_eq_ok.mp h
  have hlookup := liftVfs_eq_ok.mp hentry
  cases entry with
  | directory inner => cases h
  | file moved =>
    dsimp only at h
    obtain ⟨placed, hplaced, h⟩ := bind_eq_ok.mp h
    have hsource : manifestFile manifest source = some moved := by
      unfold manifestFile
      rw [hlookup]
    refine ⟨moved, hsource, fun sought => ?_⟩
    by_cases hsame : source = destination
    · rw [if_neg (not_not.mpr hsame)] at h
      obtain rfl := Except.ok.inj h
      rw [manifestFile_place hplaced, hsame]
      split_ifs <;> rfl
    · rw [if_pos hsame] at h
      rw [manifestFile_remove (liftVfs_eq_ok.mp h), manifestFile_place hplaced]
      by_cases hdestination : sought = destination
      · rw [if_pos hdestination, if_pos hdestination, if_neg]
        rw [hdestination]
        exact Ne.symm hsame
      · rw [if_neg hdestination, if_neg hdestination]

end Lightspeed.Files
