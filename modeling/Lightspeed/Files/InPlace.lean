import Lightspeed.Files.Validity
import Lightspeed.Lib.InPlace

/-!
# Manifests changed in place

The operations are given a manifest to change, and several of them change its tree before they settle its totals.
On a manifest that validates they come to the same as their readings that return a new manifest: the totals that
are taken were counted, so that no step fails once the tree is changed, but for a total that 64 bits do not hold.
-/

namespace Lightspeed.Files

open Lib

/-- A file is copied to the destination, a directory with what it holds. -/
def copyManifestPath (manifest : VfsSnapshotManifest) (source destination : VfsPath) (recursive : Bool) :
    Except VfsError VfsSnapshotManifest := do
  match ← lookupSnapshotPath manifest source with
  | .file file => writeManifestFileRef manifest destination file
  | .directory directory =>
    require (recursive = true)
      (.invalidOperation "copy requires recursive: true when source is a directory")
    require (destination.startsWith source = false)
      (.invalidOperation "cannot copy a directory to itself or one of its descendants")
    insertOrReplaceEntry manifest destination (.directory directory)

namespace InPlace

/-- A change of a manifest. -/
abbrev Change := InPlace VfsError VfsSnapshotManifest Unit

def addTotals (delta : VfsTotals) : Change := do
  reading fun manifest =>
    require (manifest.totals.files + delta.files < 2 ^ 64) (.invalidManifest "file count overflowed u64")
  changing fun manifest =>
    { manifest with totals := { manifest.totals with files := manifest.totals.files + delta.files } }
  reading fun manifest =>
    require (manifest.totals.bytes + delta.bytes < 2 ^ 64) (.invalidManifest "byte total overflowed u64")
  changing fun manifest =>
    { manifest with totals := { manifest.totals with bytes := manifest.totals.bytes + delta.bytes } }

def subtractTotals (delta : VfsTotals) : Change := do
  reading fun manifest =>
    require (delta.files ≤ manifest.totals.files) (.invalidManifest "file count underflowed u64")
  changing fun manifest =>
    { manifest with totals := { manifest.totals with files := manifest.totals.files - delta.files } }
  reading fun manifest =>
    require (delta.bytes ≤ manifest.totals.bytes) (.invalidManifest "byte total underflowed u64")
  changing fun manifest =>
    { manifest with totals := { manifest.totals with bytes := manifest.totals.bytes - delta.bytes } }

/-- The totals of an entry that is gone are subtracted. -/
def subtractRemoved : Option VfsEntry → Change
  | some entry => do subtractTotals (← ofResult (entryTotals entry))
  | none => pure ()

/-- Writes the directory above a path back to the tree. -/
def putParent (path : VfsPath) (parent : VfsDirectory) : Change :=
  changing fun manifest => { manifest with root := putDirectory manifest.root path.components.dropLast parent }

def insertOrReplaceEntry (path : VfsPath) (entry : VfsEntry) : Change :=
  match path.components.getLast? with
  | none => throw (.pathConflict path "directory")
  | some name => do
    let added ← ofResult (entryTotals entry)
    let parent ← reading (parentDirectory · path)
    putParent path (parent.insert name entry)
    subtractRemoved (parent.entry name)
    addTotals added

def writeManifestFileRef (path : VfsPath) (file : VfsFile) : Change := do
  reading (ensureFileWriteTarget · path)
  insertOrReplaceEntry path (.file file)

/-- Makes the directories that some components name, one below the other, and returns the tree as far as it
came. -/
def createDirectories (path : VfsPath) (depth : Nat) :
    VfsDirectory → List String → Except VfsError Unit × VfsDirectory
  | entries, [] => (.ok (), entries)
  | entries, name :: rest =>
    match entries.entry name with
    | some (.directory inner) =>
      let (result, inner) := createDirectories path (depth + 1) inner rest
      (result, entries.insert name (.directory inner))
    | none =>
      let (result, inner) := createDirectories path (depth + 1) [] rest
      (result, entries.insert name (.directory inner))
    | some (.file _) => (.error (.notADirectory (path.take (depth + 1))), entries)

def createManifestDirectory (path : VfsPath) (recursive : Bool) : Change :=
  match path.components.getLast? with
  | none => if recursive then pure () else throw (.alreadyExists path)
  | some name =>
    if recursive then
      ExceptT.mk fun manifest =>
        let (result, root) := createDirectories path 0 manifest.root path.components
        (result, { manifest with root })
    else do
      let parent ← reading (parentDirectory · path)
      ofResult (require (parent.entry name).isNone (.alreadyExists path))
      putParent path (parent.insert name (.directory []))

def removeManifestPath (path : VfsPath) (recursive force : Bool) : Change :=
  match path.components.getLast? with
  | none => throw (.invalidOperation "cannot remove vfs root")
  | some name => do
    match ← reading (fun manifest => .ok (parentDirectory manifest path)) with
    | .error (.notFound missing) => if force then pure () else throw (.notFound missing)
    | .error error => throw error
    | .ok parent =>
      match parent.entry name with
      | none => if force then pure () else throw (.notFound path)
      | some entry => do
        ofResult (requireRemovable path recursive entry)
        putParent path (parent.remove name)
        subtractRemoved (some entry)

def replaceManifestEntry (path : VfsPath) (entry : VfsEntry) : Change :=
  if path.isRoot then do
    let totals ← ofResult (entryTotals entry)
    match entry with
    | .directory root => changing fun manifest => { manifest with root, totals }
    | .file _ => throw (.invalidOperation "workspace root must remain a directory")
  else insertOrReplaceEntry path entry

def copyManifestPath (source destination : VfsPath) (recursive : Bool) : Change := do
  match ← reading (lookupSnapshotPath · source) with
  | .file file => do
    reading (ensureFileWriteTarget · destination)
    insertOrReplaceEntry destination (.file file)
  | .directory directory => do
    ofResult (require (recursive = true)
      (.invalidOperation "copy requires recursive: true when source is a directory"))
    ofResult (require (destination.startsWith source = false)
      (.invalidOperation "cannot copy a directory to itself or one of its descendants"))
    insertOrReplaceEntry destination (.directory directory)

end InPlace

end Lightspeed.Files
