import Lightspeed.Files.InPlace

/-!
# What an operation does to a manifest

On a manifest that validates, an operation fails and changes nothing, or returns and has changed the tree at its
target, with the totals of the tree that is left. One lemma an operation says which, in place and as a function
at once.
-/

namespace Lightspeed.Files

open Lib

variable {manifest changed : VfsSnapshotManifest} {path : VfsPath} {entry : VfsEntry} {name : String}
  {parent entries : VfsDirectory} {found : Option VfsEntry} {totals delta rest : VfsTotals}

/-- A manifest as it is in memory: names in the order of a map, and totals of 64 bits. -/
structure WellTyped (manifest : VfsSnapshotManifest) : Prop where
  sorted : EntryAll NamesSorted (.directory manifest.root)
  totals : manifest.totals.Fits

/-- A manifest that validates. -/
structure Sound (manifest : VfsSnapshotManifest) : Prop where
  version : manifest.schemaVersion = vfsSnapshotSchemaVersion
  names : EntryAll NamesValid (.directory manifest.root)
  sorted : EntryAll NamesSorted (.directory manifest.root)
  totals : manifest.totals = directorySize manifest.root
  fits : (directorySize manifest.root).Fits

theorem sound_of_validate (htyped : WellTyped manifest) (h : manifest.validate = .ok ()) : Sound manifest := by
  obtain ⟨hversion, hnames, htotals⟩ := validate_eq_ok h
  exact ⟨hversion, hnames, htyped.sorted, htotals, htotals ▸ htyped.totals⟩

theorem Sound.validate (h : Sound manifest) : manifest.validate = .ok () :=
  validate_of_fits h.version h.names h.totals h.fits

theorem Sound.wellTyped (h : Sound manifest) : WellTyped manifest := ⟨h.sorted, h.totals ▸ h.fits⟩

/-- The manifest with another tree, and the totals of that. -/
def VfsSnapshotManifest.withTree (manifest : VfsSnapshotManifest) (root : VfsDirectory) : VfsSnapshotManifest :=
  { manifest with root, totals := directorySize root }

/-! ## Sizes -/

/-- What stands under a name counts, or nothing where nothing does. -/
def sizeAt (found : Option VfsEntry) : VfsTotals := ⟨weightAt (fun _ => 1) found, weightAt VfsFile.sizeBytes found⟩

/-- The tree with the directory above a path written back. -/
def VfsSnapshotManifest.putRoot (manifest : VfsSnapshotManifest) (path : VfsPath) (parent : VfsDirectory) :
    VfsDirectory := putDirectory manifest.root path.components.dropLast parent

/-- A tree counts what it does without the entry at a path, and that entry. -/
theorem size_remove (name : String) (hsorted : EntryAll NamesSorted (.directory manifest.root))
    (hparent : parentDirectory manifest path = .ok parent) :
    directorySize manifest.root =
      (directorySize (manifest.putRoot path (parent.remove name))).plus (sizeAt (parent.entry name)) := by
  have hparentSorted : NamesSorted parent := (all_directoryAt hparent hsorted).1
  have hweight : ∀ weigh : VfsFile → Nat, directoryWeight weigh manifest.root =
      directoryWeight weigh (manifest.putRoot path (parent.remove name)) + weightAt weigh (parent.entry name) := by
    intro weigh
    have hput : directoryWeight weigh (manifest.putRoot path (parent.remove name)) + directoryWeight weigh parent =
        directoryWeight weigh manifest.root + directoryWeight weigh (parent.remove name) :=
      weight_putDirectory hparent hsorted
    have hold : directoryWeight weigh parent =
        weightAt weigh (parent.entry name) + directoryWeight weigh (parent.remove name) := weight_remove hparentSorted
    omega
  exact congrArg₂ VfsTotals.mk (hweight _) (hweight _)

/-- With another entry at a path, a tree counts what it does without, and the new entry. -/
theorem size_insert (hsorted : EntryAll NamesSorted (.directory manifest.root))
    (hparent : parentDirectory manifest path = .ok parent) :
    directorySize (manifest.putRoot path (parent.insert name entry)) =
      (directorySize (manifest.putRoot path (parent.remove name))).plus (entrySize entry) := by
  have hweight : ∀ weigh : VfsFile → Nat, directoryWeight weigh (manifest.putRoot path (parent.insert name entry)) =
      directoryWeight weigh (manifest.putRoot path (parent.remove name)) + entryWeight weigh entry := by
    intro weigh
    have hinsert : directoryWeight weigh (manifest.putRoot path (parent.insert name entry)) +
        directoryWeight weigh parent =
          directoryWeight weigh manifest.root + directoryWeight weigh (parent.insert name entry) :=
      weight_putDirectory hparent hsorted
    have hremove : directoryWeight weigh (manifest.putRoot path (parent.remove name)) + directoryWeight weigh parent =
        directoryWeight weigh manifest.root + directoryWeight weigh (parent.remove name) :=
      weight_putDirectory hparent hsorted
    have hnew : directoryWeight weigh (parent.insert name entry) =
        entryWeight weigh entry + directoryWeight weigh (parent.remove name) := weight_insert
    omega
  exact congrArg₂ VfsTotals.mk (hweight _) (hweight _)

/-! ## Totals in place -/

/-- Totals that fit are added. -/
theorem runOn_addTotals (h : (manifest.totals.plus delta).Fits) :
    runOn (InPlace.addTotals delta) manifest = (.ok (), { manifest with totals := manifest.totals.plus delta }) := by
  unfold InPlace.addTotals
  rw [reading_bind_ok (a := ()), changing_bind, reading_bind_ok (a := ())]
  · rfl
  · exact require_pos h.2
  · exact require_pos h.1

/-- Totals that were counted are subtracted. -/
theorem runOn_subtractTotals (h : manifest.totals = rest.plus delta) :
    runOn (InPlace.subtractTotals delta) manifest = (.ok (), { manifest with totals := rest }) := by
  have hfiles : manifest.totals.files = rest.files + delta.files := congrArg VfsTotals.files h
  have hbytes : manifest.totals.bytes = rest.bytes + delta.bytes := congrArg VfsTotals.bytes h
  unfold InPlace.subtractTotals
  rw [reading_bind_ok (a := ()), changing_bind, reading_bind_ok (a := ()), runOn_changing]
  · dsimp only
    rw [hfiles, hbytes, Nat.add_sub_cancel, Nat.add_sub_cancel]
  · exact require_pos (by dsimp only; omega)
  · exact require_pos (by omega)

/-- An entry that was counted is subtracted. -/
theorem runOn_subtractRemoved (h : manifest.totals = rest.plus (sizeAt found)) (hfits : manifest.totals.Fits) :
    runOn (InPlace.subtractRemoved found) manifest = (.ok (), { manifest with totals := rest }) := by
  cases found with
  | none =>
    have hsame : manifest.totals = rest := h
    rw [← hsame]
    rfl
  | some entry =>
    rw [h] at hfits
    have htotals : entryTotals entry = .ok (entrySize entry) := entryTotals_of_fits entry hfits.right
    show runOn (ofResult (entryTotals entry) >>= InPlace.subtractTotals) manifest = _
    rw [ofResult_bind_ok htotals]
    exact runOn_subtractTotals h

theorem keptTotals_of_counted (h : totals = rest.plus (sizeAt found)) (hfits : totals.Fits) :
    keptTotals totals found = .ok rest := by
  cases found with
  | none =>
    have hsame : totals = rest := h
    rw [hsame]
    rfl
  | some entry =>
    rw [h] at hfits
    have htotals : entryTotals entry = .ok (entrySize entry) := entryTotals_of_fits entry hfits.right
    have hfiles : totals.files = rest.files + (entrySize entry).files := congrArg VfsTotals.files h
    have hbytes : totals.bytes = rest.bytes + (entrySize entry).bytes := congrArg VfsTotals.bytes h
    show (entryTotals entry >>= fun delta => subtractTotals totals delta) = _
    rw [htotals, ok_bind]
    unfold subtractTotals
    rw [if_neg (by omega), if_neg (by omega), hfiles, hbytes, Nat.add_sub_cancel, Nat.add_sub_cancel]

/-- A computation that leaves the tree alone. -/
def KeepsTree {α : Type} (x : InPlace VfsError VfsSnapshotManifest α) : Prop :=
  ∀ manifest, (runOn x manifest).2.root = manifest.root

theorem KeepsTree.bind {α β : Type} {x : InPlace VfsError VfsSnapshotManifest α}
    {f : α → InPlace VfsError VfsSnapshotManifest β} (hx : KeepsTree x) (hf : ∀ a, KeepsTree (f a)) :
    KeepsTree (x >>= f) := by
  intro manifest
  have hkept : (fun t : VfsSnapshotManifest => t.root = manifest.root) (runOn (x >>= f) manifest).2 :=
    runOn_bind_keeps (hx manifest) fun a t ht => (hf a t).trans ht
  exact hkept

theorem keepsTree_addTotals : KeepsTree (InPlace.addTotals delta) := by
  unfold InPlace.addTotals
  refine KeepsTree.bind (fun _ => rfl) fun _ => ?_
  refine KeepsTree.bind (fun _ => rfl) fun _ => ?_
  exact KeepsTree.bind (fun _ => rfl) fun _ _ => rfl

theorem keepsTree_subtractTotals : KeepsTree (InPlace.subtractTotals delta) := by
  unfold InPlace.subtractTotals
  refine KeepsTree.bind (fun _ => rfl) fun _ => ?_
  refine KeepsTree.bind (fun _ => rfl) fun _ => ?_
  exact KeepsTree.bind (fun _ => rfl) fun _ _ => rfl

theorem keepsTree_subtractRemoved : KeepsTree (InPlace.subtractRemoved found) := by
  cases found with
  | none => exact fun _ => rfl
  | some entry => exact KeepsTree.bind (fun _ => rfl) fun _ => keepsTree_subtractTotals

/-! ## One entry -/

/-- What an operation comes to on a manifest, in place and as a function: it fails and changes nothing, or it leaves
a tree that is told, with its totals. -/
def ComesTo (manifest : VfsSnapshotManifest) (ran : Except VfsError Unit × VfsSnapshotManifest)
    (result : Except VfsError VfsSnapshotManifest) (left : VfsDirectory → Prop) : Prop :=
  (∃ e, result = .error e ∧ ran = (.error e, manifest)) ∨
    ∃ root, left root ∧ result = .ok (manifest.withTree root) ∧ ran = (.ok (), manifest.withTree root)

/-- An entry is put under a path's name in the directory above the path. -/
def PutAt (manifest : VfsSnapshotManifest) (path : VfsPath) (entry : VfsEntry) (root : VfsDirectory) : Prop :=
  ∃ name parent, path.components.getLast? = some name ∧ parentDirectory manifest path = .ok parent ∧
    root = manifest.putRoot path (parent.insert name entry)

/-- An entry takes the place of what stood at a path. -/
theorem insertOrReplaceEntry_comesTo (h : Sound manifest)
    (hfits : (directorySize (runOn (InPlace.insertOrReplaceEntry path entry) manifest).2.root).Fits) :
    ComesTo manifest (runOn (InPlace.insertOrReplaceEntry path entry) manifest)
      (insertOrReplaceEntry manifest path entry) (PutAt manifest path entry) := by
  unfold InPlace.insertOrReplaceEntry at hfits ⊢
  unfold insertOrReplaceEntry
  cases hname : path.components.getLast? with
  | none => exact Or.inl ⟨_, rfl, rfl⟩
  | some name =>
    rw [hname] at hfits
    dsimp only at hfits ⊢
    cases hadded : entryTotals entry with
    | error e => exact Or.inl ⟨e, rfl, ofResult_bind_error rfl⟩
    | ok added =>
      rw [hadded, ofResult_bind_ok rfl] at hfits
      cases hparent : parentDirectory manifest path with
      | error e =>
        refine Or.inl ⟨e, rfl, ?_⟩
        rw [ofResult_bind_ok rfl]
        exact reading_bind_error hparent
      | ok parent =>
        have hread : ∀ f : VfsDirectory → InPlace.Change,
            runOn (reading (parentDirectory · path) >>= f) manifest = runOn (f parent) manifest :=
          fun f => reading_bind_ok hparent
        rw [hread] at hfits
        have hroot : (runOn (do
            InPlace.putParent path (parent.insert name entry)
            InPlace.subtractRemoved (parent.entry name)
            InPlace.addTotals added) manifest).2.root = manifest.putRoot path (parent.insert name entry) := by
          unfold InPlace.putParent
          rw [changing_bind]
          exact KeepsTree.bind keepsTree_subtractRemoved (fun _ => keepsTree_addTotals) _
        rw [hroot] at hfits
        -- the entry that comes fits, and the one that goes was counted
        have hinsert : directorySize (manifest.putRoot path (parent.insert name entry)) =
            (directorySize (manifest.putRoot path (parent.remove name))).plus (entrySize entry) :=
          size_insert h.sorted hparent
        rw [hinsert] at hfits
        have hsize : added = entrySize entry :=
          Except.ok.inj (hadded.symm.trans (entryTotals_of_fits entry hfits.right))
        have hcounted : manifest.totals =
            (directorySize (manifest.putRoot path (parent.remove name))).plus (sizeAt (parent.entry name)) :=
          h.totals.trans (size_remove _ h.sorted hparent)
        have htotals : manifest.totals.Fits := h.totals ▸ h.fits
        refine Or.inr ⟨_, ⟨name, parent, hname, hparent, rfl⟩, ?_, ?_⟩
        · rw [ok_bind, ok_bind, keptTotals_of_counted hcounted htotals, ok_bind, hsize, addTotals_of_fits hfits, ← hinsert]
          rfl
        · obtain ⟨put, hput⟩ : ∃ put, put =
              ({ manifest with root := manifest.putRoot path (parent.insert name entry) } : VfsSnapshotManifest) :=
            ⟨_, rfl⟩
          have hsubtract : runOn (InPlace.subtractRemoved (parent.entry name)) put = (.ok (),
              { put with totals := directorySize (manifest.putRoot path (parent.remove name)) }) :=
            runOn_subtractRemoved (by rw [hput]; exact hcounted) (by rw [hput]; exact htotals)
          have hrest : runOn (InPlace.subtractRemoved (parent.entry name) >>= fun _ => InPlace.addTotals added) put =
              (.ok (), { put with totals := directorySize (manifest.putRoot path (parent.insert name entry)) }) := by
            rw [runOn_bind_ok hsubtract, hsize, runOn_addTotals hfits, ← hinsert]
          rw [hput] at hrest
          rw [ofResult_bind_ok rfl, hread, InPlace.putParent, changing_bind]
          exact hrest

theorem ComesTo.mono {ran : Except VfsError Unit × VfsSnapshotManifest} {result : Except VfsError VfsSnapshotManifest}
    {left left' : VfsDirectory → Prop} (h : ComesTo manifest ran result left) (himp : ∀ root, left root → left' root) :
    ComesTo manifest ran result left' :=
  h.imp id fun ⟨root, hleft, hresult, hran⟩ => ⟨root, himp root hleft, hresult, hran⟩

/-- A file is written where a file or nothing stood. -/
theorem writeManifestFileRef_comesTo {file : VfsFile} (h : Sound manifest)
    (hfits : (directorySize (runOn (InPlace.writeManifestFileRef path file) manifest).2.root).Fits) :
    ComesTo manifest (runOn (InPlace.writeManifestFileRef path file) manifest)
      (writeManifestFileRef manifest path file) (PutAt manifest path (.file file)) := by
  unfold InPlace.writeManifestFileRef at hfits ⊢
  unfold writeManifestFileRef
  cases htarget : ensureFileWriteTarget manifest path with
  | error e => exact Or.inl ⟨e, rfl, reading_bind_error htarget⟩
  | ok _ =>
    have hread : ∀ f : Unit → InPlace.Change,
        runOn (reading (ensureFileWriteTarget · path) >>= f) manifest = runOn (f ()) manifest :=
      fun f => reading_bind_ok htarget
    rw [hread] at hfits ⊢
    exact insertOrReplaceEntry_comesTo h hfits

/-- An entry takes the place of what stood at a path, the root included. -/
theorem replaceManifestEntry_comesTo (h : Sound manifest)
    (hfits : (directorySize (runOn (InPlace.replaceManifestEntry path entry) manifest).2.root).Fits) :
    ComesTo manifest (runOn (InPlace.replaceManifestEntry path entry) manifest)
      (replaceManifestEntry manifest path entry) (fun root =>
        path.isRoot = true ∧ entry = .directory root ∨ path.isRoot = false ∧ PutAt manifest path entry root) := by
  unfold InPlace.replaceManifestEntry at hfits ⊢
  unfold replaceManifestEntry
  by_cases hroot : path.isRoot = true
  · rw [if_pos hroot] at hfits ⊢
    rw [if_pos hroot]
    cases htotals : entryTotals entry with
    | error e => exact Or.inl ⟨e, rfl, ofResult_bind_error rfl⟩
    | ok totals =>
      rw [htotals, ofResult_bind_ok rfl] at hfits
      rw [ofResult_bind_ok rfl]
      cases entry with
      | file file => exact Or.inl ⟨_, rfl, rfl⟩
      | directory root =>
        have hfit : (entrySize (.directory root)).Fits := hfits
        have hsize : totals = directorySize root := Except.ok.inj (htotals.symm.trans (entryTotals_of_fits _ hfit))
        refine Or.inr ⟨root, Or.inl ⟨hroot, rfl⟩, ?_, ?_⟩
        · rw [hsize]
          rfl
        · rw [hsize]
          rfl
  · rw [if_neg hroot] at hfits ⊢
    rw [if_neg hroot]
    exact (insertOrReplaceEntry_comesTo h hfits).mono fun root hplaced =>
      Or.inr ⟨Bool.eq_false_iff.mpr hroot, hplaced⟩

/-- What stands at the source takes the place of what stood at the destination. -/
theorem copyManifestPath_comesTo {source destination : VfsPath} {recursive : Bool} (h : Sound manifest)
    (hfits : (directorySize (runOn (InPlace.copyManifestPath source destination recursive) manifest).2.root).Fits) :
    ComesTo manifest (runOn (InPlace.copyManifestPath source destination recursive) manifest)
      (copyManifestPath manifest source destination recursive) (fun root =>
        ∃ entry, lookupSnapshotPath manifest source = .ok entry ∧ PutAt manifest destination entry root) := by
  unfold InPlace.copyManifestPath at hfits ⊢
  unfold copyManifestPath
  cases hsource : lookupSnapshotPath manifest source with
  | error e => exact Or.inl ⟨e, rfl, reading_bind_error hsource⟩
  | ok entry =>
    have hread : ∀ f : VfsEntry → InPlace.Change,
        runOn (reading (lookupSnapshotPath · source) >>= f) manifest = runOn (f entry) manifest :=
      fun f => reading_bind_ok hsource
    rw [hread] at hfits ⊢
    rw [ok_bind]
    cases entry with
    | file file =>
      exact (writeManifestFileRef_comesTo h hfits).mono fun root hplaced => ⟨_, rfl, hplaced⟩
    | directory directory =>
      dsimp only at hfits ⊢
      by_cases hrecursive : recursive = true
      · by_cases hbelow : destination.startsWith source = false
        · rw [require_pos hrecursive, require_pos hbelow, ok_bind, ok_bind]
          rw [require_pos hrecursive, require_pos hbelow, ofResult_bind_ok rfl, ofResult_bind_ok rfl] at hfits
          rw [ofResult_bind_ok rfl, ofResult_bind_ok rfl]
          exact (insertOrReplaceEntry_comesTo h hfits).mono fun root hplaced => ⟨_, rfl, hplaced⟩
        · rw [require_pos hrecursive, ok_bind, ofResult_bind_ok rfl]
          unfold require
          rw [if_neg hbelow]
          exact Or.inl ⟨_, rfl, rfl⟩
      · unfold require
        rw [if_neg hrecursive]
        exact Or.inl ⟨_, rfl, rfl⟩

/-- An entry goes from a path, or there is nothing to go and nothing changes. -/
theorem removeManifestPath_comesTo {recursive force : Bool} (h : Sound manifest) :
    ComesTo manifest (runOn (InPlace.removeManifestPath path recursive force) manifest)
      (removeManifestPath manifest path recursive force) (fun root => ∃ name,
        path.components.getLast? = some name ∧
        ((∃ missing, parentDirectory manifest path = .error (.notFound missing)) ∧ root = manifest.root ∨
          ∃ parent, parentDirectory manifest path = .ok parent ∧
            (parent.entry name = none ∧ root = manifest.root ∨ root = manifest.putRoot path (parent.remove name)))) := by
  have hstays : manifest = manifest.withTree manifest.root := by
    unfold VfsSnapshotManifest.withTree
    rw [← h.totals]
  unfold InPlace.removeManifestPath removeManifestPath
  cases hname : path.components.getLast? with
  | none => exact Or.inl ⟨_, rfl, rfl⟩
  | some name =>
    have hread : ∀ f : Except VfsError VfsDirectory → InPlace.Change,
        runOn (reading (fun manifest => .ok (parentDirectory manifest path)) >>= f) manifest =
          runOn (f (parentDirectory manifest path)) manifest :=
      fun f => reading_bind_ok rfl
    dsimp only
    rw [hread]
    cases hparent : parentDirectory manifest path with
    | error e =>
      by_cases hmissing : ∃ missing, e = .notFound missing
      · obtain ⟨missing, rfl⟩ := hmissing
        dsimp only
        split_ifs
        · exact Or.inr ⟨manifest.root, ⟨name, rfl, Or.inl ⟨⟨missing, rfl⟩, rfl⟩⟩, congrArg Except.ok hstays,
            congrArg (Prod.mk _) hstays⟩
        · exact Or.inl ⟨_, rfl, rfl⟩
      · cases e with
        | notFound missing => exact absurd ⟨missing, rfl⟩ hmissing
        | _ => exact Or.inl ⟨_, rfl, rfl⟩
    | ok parent =>
      dsimp only
      cases hentry : parent.entry name with
      | none =>
        dsimp only
        split_ifs
        · exact Or.inr ⟨manifest.root, ⟨name, rfl, Or.inr ⟨parent, rfl, Or.inl ⟨hentry, rfl⟩⟩⟩,
            congrArg Except.ok hstays, congrArg (Prod.mk _) hstays⟩
        · exact Or.inl ⟨_, rfl, rfl⟩
      | some entry =>
        dsimp only
        cases hremovable : requireRemovable path recursive entry with
        | error e => exact Or.inl ⟨e, rfl, ofResult_bind_error rfl⟩
        | ok _ =>
          have hcounted : manifest.totals =
              (directorySize (manifest.putRoot path (parent.remove name))).plus (sizeAt (some entry)) := by
            rw [← hentry]
            exact h.totals.trans (size_remove _ h.sorted hparent)
          have htotals : manifest.totals.Fits := h.totals ▸ h.fits
          refine Or.inr ⟨_, ⟨name, rfl, Or.inr ⟨parent, rfl, Or.inr rfl⟩⟩, ?_, ?_⟩
          · rw [ok_bind, keptTotals_of_counted hcounted htotals, ok_bind]
            rfl
          · rw [ofResult_bind_ok rfl, InPlace.putParent, changing_bind]
            obtain ⟨put, hput⟩ : ∃ put, put =
                ({ manifest with root := manifest.putRoot path (parent.remove name) } : VfsSnapshotManifest) := ⟨_, rfl⟩
            have hsubtract : runOn (InPlace.subtractRemoved (some entry)) put = (.ok (),
                { put with totals := directorySize (manifest.putRoot path (parent.remove name)) }) :=
              runOn_subtractRemoved (by rw [hput]; exact hcounted) (by rw [hput]; exact htotals)
            rw [hput] at hsubtract
            exact hsubtract

/-! ## Directories -/

variable {made : VfsDirectory} {components : List String} {depth : Nat}

/-- The directories that components name below one another: the first one is there, or it is made. -/
theorem createDirectories_cons (h : createDirectories path depth entries (name :: components) = .ok made) :
    ∃ inner below, (entries.entry name = some (.directory inner) ∨ entries.entry name = none ∧ inner = []) ∧
      createDirectories path (depth + 1) inner components = .ok below ∧ made = entries.insert name (.directory below) := by
  rw [createDirectories] at h
  cases hentry : entries.entry name with
  | none =>
    rw [hentry] at h
    obtain ⟨below, hbelow, hmade⟩ := bind_eq_ok.mp h
    exact ⟨[], below, Or.inr ⟨rfl, rfl⟩, hbelow, (Except.ok.inj hmade).symm⟩
  | some entry =>
    rw [hentry] at h
    cases entry with
    | file file => cases h
    | directory inner =>
      obtain ⟨below, hbelow, hmade⟩ := bind_eq_ok.mp h
      exact ⟨inner, below, Or.inl rfl, hbelow, (Except.ok.inj hmade).symm⟩

/-- In an empty directory nothing stands in the way. -/
theorem createDirectories_nil (path : VfsPath) (depth : Nat) (components : List String) :
    ∃ made, createDirectories path depth [] components = .ok made ∧
      InPlace.createDirectories path depth [] components = (.ok (), made) := by
  induction components generalizing depth with
  | nil => exact ⟨[], rfl, rfl⟩
  | cons name rest ih =>
    obtain ⟨below, hresult, hran⟩ := ih (depth + 1)
    have hnone : VfsDirectory.entry [] name = none := rfl
    rw [createDirectories, InPlace.createDirectories, hnone]
    dsimp only
    rw [hresult, hran]
    exact ⟨_, rfl, rfl⟩

/-- Directories are made as far as no file stands in the way, and where one does, none was made. -/
theorem createDirectories_run (path : VfsPath) (depth : Nat) (components : List String)
    (hsorted : EntryAll NamesSorted (.directory entries)) :
    (∃ e, createDirectories path depth entries components = .error e ∧
      InPlace.createDirectories path depth entries components = (.error e, entries)) ∨
    ∃ made, createDirectories path depth entries components = .ok made ∧
      InPlace.createDirectories path depth entries components = (.ok (), made) := by
  induction components generalizing entries depth with
  | nil => exact Or.inr ⟨entries, rfl, rfl⟩
  | cons name rest ih =>
    rw [EntryAll] at hsorted
    rw [createDirectories, InPlace.createDirectories]
    cases hentry : entries.entry name with
    | none =>
      obtain ⟨below, hresult, hran⟩ := createDirectories_nil path (depth + 1) rest
      dsimp only
      rw [hresult, hran]
      exact Or.inr ⟨_, rfl, rfl⟩
    | some entry =>
      cases entry with
      | file file => exact Or.inl ⟨_, rfl, rfl⟩
      | directory inner =>
        dsimp only
        rcases ih (depth + 1) (hsorted.2.of_entry hentry) with ⟨e, hresult, hran⟩ | ⟨below, hresult, hran⟩
        · -- what was found on the way is put back as it was
          rw [hresult, hran]
          exact Or.inl ⟨e, rfl, congrArg (Prod.mk _) (VfsDirectory.insert_entry_self hsorted.1 hentry)⟩
        · rw [hresult, hran]
          exact Or.inr ⟨_, rfl, rfl⟩

theorem weight_createDirectories {weigh : VfsFile → Nat} (hsorted : EntryAll NamesSorted (.directory entries))
    (h : createDirectories path depth entries components = .ok made) :
    directoryWeight weigh made = directoryWeight weigh entries := by
  induction components generalizing entries made depth with
  | nil => rw [Except.ok.inj h]
  | cons name rest ih =>
    obtain ⟨inner, below, hentry, hbelow, rfl⟩ := createDirectories_cons h
    rw [EntryAll] at hsorted
    have hold : directoryWeight weigh entries =
        weightAt weigh (entries.entry name) + directoryWeight weigh (entries.remove name) := weight_remove hsorted.1
    rw [weight_insert, hold]
    apply congrArg (· + directoryWeight weigh (entries.remove name))
    rcases hentry with hentry | ⟨hentry, rfl⟩
    · rw [hentry]
      exact ih (hsorted.2.of_entry hentry) hbelow
    · rw [hentry]
      exact ih ⟨List.Pairwise.nil, trivial⟩ hbelow

/-- What holds throughout a tree, and of an empty directory, holds throughout with the directories that are made. -/
theorem all_createDirectories {p : VfsDirectory → Prop} (hnil : p [])
    (hp : ∀ entries, ∀ name ∈ components, ∀ entry, p entries → p (entries.insert name entry))
    (hall : EntryAll p (.directory entries)) (h : createDirectories path depth entries components = .ok made) :
    EntryAll p (.directory made) := by
  induction components generalizing entries made depth with
  | nil => exact Except.ok.inj h ▸ hall
  | cons name rest ih =>
    obtain ⟨inner, below, hentry, hbelow, rfl⟩ := createDirectories_cons h
    rw [EntryAll] at hall
    have hinner : EntryAll p (.directory inner) := by
      rcases hentry with hentry | ⟨-, rfl⟩
      · exact hall.2.of_entry hentry
      · exact ⟨hnil, trivial⟩
    have hrest := ih (fun entries name hname => hp entries name (List.mem_cons_of_mem _ hname)) hinner hbelow
    rw [EntryAll]
    exact ⟨hp entries name List.mem_cons_self _ hall.1, hall.2.insert hrest⟩

/-- The directory that is found, or an empty one. -/
def directoryThere : Except VfsError VfsEntry → VfsEntry
  | .ok (.directory entries) => .directory entries
  | _ => .directory []

/-- The directory stands at its path: as it was, or empty. -/
theorem lookupEntry_created {found : VfsPath} (h : createDirectories path depth entries components = .ok made) :
    lookupEntry found made components = .ok (directoryThere (lookupEntry found entries components)) := by
  induction components generalizing entries made depth with
  | nil =>
    rw [Except.ok.inj h]
    rfl
  | cons name rest ih =>
    obtain ⟨inner, below, hentry, hbelow, rfl⟩ := createDirectories_cons h
    rw [lookupEntry, lookupEntry, VfsDirectory.entry_insert_self]
    dsimp only
    rw [ih hbelow]
    rcases hentry with hentry | ⟨hentry, rfl⟩
    · rw [hentry]
    · rw [hentry]
      cases rest <;> rfl

/-- Making directories changes no lookup apart from them. -/
theorem lookupEntry_created_apart {found : VfsPath} {sought : List String}
    (h : createDirectories path depth entries components = .ok made) (hapart : Apart components sought) :
    lookupEntry found made sought = lookupEntry found entries sought := by
  induction components generalizing entries made depth sought with
  | nil => exact absurd List.nil_prefix hapart.1
  | cons name rest ih =>
    obtain ⟨inner, below, hentry, hbelow, rfl⟩ := createDirectories_cons h
    cases sought with
    | nil => exact absurd hapart not_apart_nil
    | cons head tail =>
      rw [lookupEntry, lookupEntry]
      by_cases hhead : head = name
      · subst hhead
        rw [VfsDirectory.entry_insert_self]
        dsimp only
        rw [ih hbelow hapart.tail]
        rcases hentry with hentry | ⟨hentry, rfl⟩
        · rw [hentry]
        · rw [hentry]
          cases tail with
          | nil => exact absurd hapart.tail not_apart_nil
          | cons => rfl
      · rw [VfsDirectory.entry_insert_of_ne hhead]

/-- A directory is made at a path, with the ones above it or in the one above it. -/
theorem createManifestDirectory_comesTo {recursive : Bool} (h : Sound manifest) :
    ComesTo manifest (runOn (InPlace.createManifestDirectory path recursive) manifest)
      (createManifestDirectory manifest path recursive) (fun root =>
        createDirectories path 0 manifest.root path.components = .ok root ∨
        ∃ name parent, path.components.getLast? = some name ∧ parentDirectory manifest path = .ok parent ∧
          parent.entry name = none ∧ root = manifest.putRoot path (parent.insert name (.directory []))) := by
  unfold InPlace.createManifestDirectory createManifestDirectory
  cases hname : path.components.getLast? with
  | none =>
    have hempty : path.components = [] := List.getLast?_eq_none_iff.mp hname
    dsimp only
    split_ifs
    · have hstays : manifest = manifest.withTree manifest.root := by
        unfold VfsSnapshotManifest.withTree
        rw [← h.totals]
      refine Or.inr ⟨manifest.root, Or.inl ?_, congrArg Except.ok hstays, congrArg (Prod.mk _) hstays⟩
      rw [hempty]
      rfl
    · exact Or.inl ⟨_, rfl, rfl⟩
  | some name =>
    dsimp only
    by_cases hrecursive : recursive = true
    · rw [if_pos hrecursive, if_pos hrecursive]
      rcases createDirectories_run path 0 path.components h.sorted with
        ⟨e, hresult, hin⟩ | ⟨made, hresult, hin⟩
      · refine Or.inl ⟨e, by rw [hresult]; rfl, ?_⟩
        exact congrArg (fun ran => (ran.1, { manifest with root := ran.2 })) hin
      · have hsize : directorySize made = manifest.totals := by
          rw [h.totals]
          exact congrArg₂ VfsTotals.mk (weight_createDirectories h.sorted hresult)
            (weight_createDirectories h.sorted hresult)
        refine Or.inr ⟨made, Or.inl hresult, ?_, ?_⟩
        · rw [hresult, VfsSnapshotManifest.withTree, hsize]
          rfl
        · rw [VfsSnapshotManifest.withTree, hsize]
          exact congrArg (fun ran => (ran.1, { manifest with root := ran.2 })) hin
    · rw [if_neg hrecursive, if_neg hrecursive]
      cases hparent : parentDirectory manifest path with
      | error e => exact Or.inl ⟨e, rfl, reading_bind_error hparent⟩
      | ok parent =>
        have hread : ∀ f : VfsDirectory → InPlace.Change,
            runOn (reading (parentDirectory · path) >>= f) manifest = runOn (f parent) manifest :=
          fun f => reading_bind_ok hparent
        rw [hread, ok_bind]
        cases hentry : parent.entry name with
        | some entry => exact Or.inl ⟨_, rfl, rfl⟩
        | none =>
          -- an empty directory counts nothing, and so does what was not there
          have hsize : directorySize (manifest.putRoot path (parent.insert name (.directory []))) = manifest.totals := by
            have hremove := size_remove name h.sorted hparent
            rw [hentry] at hremove
            rw [size_insert h.sorted hparent, h.totals, hremove]
            rfl
          refine Or.inr ⟨_, Or.inr ⟨name, parent, rfl, rfl, hentry, rfl⟩, ?_, ?_⟩
          · rw [VfsSnapshotManifest.withTree, hsize]
            rfl
          · rw [VfsSnapshotManifest.withTree, hsize]
            rfl

end Lightspeed.Files
