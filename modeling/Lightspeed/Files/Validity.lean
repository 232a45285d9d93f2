import Lightspeed.Files.Trees

/-!
# Manifests that validate

A manifest validates when its names are valid at every level and its totals are those of its tree. The totals are
sums that are checked against 64 bits at every step, and below that bound they are what the files weigh.
-/

namespace Lightspeed.Files

open Lib

variable {entries : VfsDirectory} {entry : VfsEntry} {totals after delta : VfsTotals}
  {manifest : VfsSnapshotManifest}

/-- The files and the bytes of an entry, without bound. -/
def entrySize (entry : VfsEntry) : VfsTotals := ⟨entryWeight (fun _ => 1) entry, entryWeight VfsFile.sizeBytes entry⟩

def directorySize (entries : VfsDirectory) : VfsTotals :=
  ⟨directoryWeight (fun _ => 1) entries, directoryWeight VfsFile.sizeBytes entries⟩

/-- Totals that a number of 64 bits holds. -/
def VfsTotals.Fits (totals : VfsTotals) : Prop := totals.files < 2 ^ 64 ∧ totals.bytes < 2 ^ 64

/-- One total beside another. -/
def VfsTotals.plus (totals delta : VfsTotals) : VfsTotals := ⟨totals.files + delta.files, totals.bytes + delta.bytes⟩

theorem VfsTotals.zero_plus : VfsTotals.plus {} totals = totals := by
  cases totals
  simp [VfsTotals.plus]

theorem VfsTotals.plus_assoc {more : VfsTotals} : (totals.plus delta).plus more = totals.plus (delta.plus more) := by
  simp [VfsTotals.plus, Nat.add_assoc]

theorem directorySize_cons {name : String} :
    directorySize ((name, entry) :: entries) = (entrySize entry).plus (directorySize entries) := rfl

/-! ## Totals -/

theorem addTotals_of_fits (h : (totals.plus delta).Fits) : addTotals totals delta = .ok (totals.plus delta) := by
  have hfiles : ¬ 2 ^ 64 ≤ totals.files + delta.files := Nat.not_le.mpr h.1
  have hbytes : ¬ 2 ^ 64 ≤ totals.bytes + delta.bytes := Nat.not_le.mpr h.2
  unfold addTotals
  rw [if_neg hfiles, if_neg hbytes]
  rfl

theorem VfsTotals.Fits.left (h : (totals.plus delta).Fits) : totals.Fits :=
  ⟨lt_of_le_of_lt (Nat.le_add_right _ _) h.1, lt_of_le_of_lt (Nat.le_add_right _ _) h.2⟩

theorem VfsTotals.Fits.right (h : (totals.plus delta).Fits) : delta.Fits :=
  ⟨lt_of_le_of_lt (Nat.le_add_left _ _) h.1, lt_of_le_of_lt (Nat.le_add_left _ _) h.2⟩

mutual

theorem entryTotals_of_fits (entry : VfsEntry) (h : (entrySize entry).Fits) :
    entryTotals entry = .ok (entrySize entry) := by
  match entry with
  | .file file => rfl
  | .directory entries =>
    have hentries := directoryTotals_of_fits entries {} (by rwa [VfsTotals.zero_plus])
    rw [VfsTotals.zero_plus] at hentries
    exact hentries

theorem directoryTotals_of_fits (entries : List (String × VfsEntry)) (totals : VfsTotals)
    (h : (totals.plus (directorySize entries)).Fits) :
    directoryTotals totals entries = .ok (totals.plus (directorySize entries)) := by
  match entries with
  | [] => rfl
  | (name, entry) :: rest =>
    rw [directorySize_cons, ← VfsTotals.plus_assoc] at h ⊢
    rw [directoryTotals, entryTotals_of_fits entry h.left.right, ok_bind, addTotals_of_fits h.left, ok_bind]
    exact directoryTotals_of_fits rest (totals.plus (entrySize entry)) h

end

/-! ## Validation -/

mutual

theorem validateEntry_eq_ok (entry : VfsEntry) {totals after : VfsTotals} (h : validateEntry totals entry = .ok after) :
    EntryAll NamesValid entry ∧ after = totals.plus (entrySize entry) := by
  match entry with
  | .file file =>
    rw [validateEntry] at h
    split_ifs at h
    exact ⟨trivial, (Except.ok.inj h).symm⟩
  | .directory entries =>
    obtain ⟨hnames, hall, hafter⟩ := validateDirectory_eq_ok entries h
    exact ⟨⟨hnames, hall⟩, hafter⟩

theorem validateDirectory_eq_ok (entries : List (String × VfsEntry)) {totals after : VfsTotals}
    (h : validateDirectory totals entries = .ok after) :
    NamesValid entries ∧ EntriesAll NamesValid entries ∧ after = totals.plus (directorySize entries) := by
  match entries with
  | [] => exact ⟨by simp [NamesValid], trivial, (Except.ok.inj h).symm⟩
  | (name, entry) :: rest =>
    rw [validateDirectory] at h
    obtain ⟨_, hname, h⟩ := bind_eq_ok.mp h
    obtain ⟨middle, hentry, h⟩ := bind_eq_ok.mp h
    obtain ⟨hall, hmiddle⟩ := validateEntry_eq_ok entry hentry
    obtain ⟨hnames, hrest, hafter⟩ := validateDirectory_eq_ok rest h
    refine ⟨List.forall_mem_cons.mpr ⟨hname, hnames⟩, ⟨hall, hrest⟩, ?_⟩
    rw [hafter, hmiddle, VfsTotals.plus_assoc, directorySize_cons]

end

mutual

theorem validateEntry_of_fits (entry : VfsEntry) (totals : VfsTotals) (hnames : EntryAll NamesValid entry)
    (h : (totals.plus (entrySize entry)).Fits) : validateEntry totals entry = .ok (totals.plus (entrySize entry)) := by
  match entry with
  | .file file =>
    have hbytes : ¬ 2 ^ 64 ≤ totals.bytes + file.sizeBytes := Nat.not_le.mpr h.2
    rw [validateEntry, if_neg hbytes]
    rfl
  | .directory entries => exact validateDirectory_of_fits entries totals hnames.1 hnames.2 h

theorem validateDirectory_of_fits (entries : List (String × VfsEntry)) (totals : VfsTotals)
    (hnames : NamesValid entries) (hall : EntriesAll NamesValid entries)
    (h : (totals.plus (directorySize entries)).Fits) :
    validateDirectory totals entries = .ok (totals.plus (directorySize entries)) := by
  match entries with
  | [] => rfl
  | (name, entry) :: rest =>
    obtain ⟨hname, hrest⟩ := List.forall_mem_cons.mp hnames
    rw [directorySize_cons, ← VfsTotals.plus_assoc] at h ⊢
    rw [validateDirectory, hname, ok_bind, validateEntry_of_fits entry totals hall.1 h.left, ok_bind]
    exact validateDirectory_of_fits rest (totals.plus (entrySize entry)) hrest hall.2 h

end

/-- A manifest that validates: its names are valid and its totals are its tree's. -/
theorem validate_eq_ok (h : manifest.validate = .ok ()) :
    manifest.schemaVersion = vfsSnapshotSchemaVersion ∧ EntryAll NamesValid (.directory manifest.root) ∧
      manifest.totals = directorySize manifest.root := by
  unfold VfsSnapshotManifest.validate at h
  obtain ⟨_, hversion, h⟩ := bind_eq_ok.mp h
  obtain ⟨computed, hcomputed, h⟩ := bind_eq_ok.mp h
  obtain ⟨hnames, hall, hsize⟩ := validateDirectory_eq_ok manifest.root hcomputed
  rw [VfsTotals.zero_plus] at hsize
  exact ⟨require_eq_ok.mp hversion, ⟨hnames, hall⟩, (require_eq_ok.mp h).symm.trans hsize⟩

/-- Such a manifest validates, when its totals are numbers of 64 bits. -/
theorem validate_of_fits (hversion : manifest.schemaVersion = vfsSnapshotSchemaVersion)
    (hnames : EntryAll NamesValid (.directory manifest.root)) (htotals : manifest.totals = directorySize manifest.root)
    (h : (directorySize manifest.root).Fits) : manifest.validate = .ok () := by
  have hvalid := validateDirectory_of_fits manifest.root {} hnames.1 hnames.2 (by rwa [VfsTotals.zero_plus])
  unfold VfsSnapshotManifest.validate
  rw [require_pos hversion, ok_bind, hvalid, ok_bind, VfsTotals.zero_plus]
  exact require_pos htotals.symm

end Lightspeed.Files
