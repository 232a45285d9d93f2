import Lightspeed.Files.Path
import Lightspeed.Lib.Result

/-!
# Manifests of the versioned filesystem

A manifest is a tree of directories with files that name their contents by reference, and the totals of
the tree. Every change goes to one boundary of the tree and moves the totals along.
-/

namespace Lightspeed.Files

open Lib

/-! ## Manifests -/

/-- The reference of a blob, which stands for its contents. -/
abbrev BlobRef := String

structure VfsFile where
  blobRef : BlobRef
  sizeBytes : Nat
  mediaType : Option String := none
  executable : Bool := false
  deriving DecidableEq

/-- A file, or a directory with its entries by name. -/
inductive VfsEntry where
  | file (file : VfsFile)
  | directory (entries : List (String × VfsEntry))

/-- A directory's entries by name. -/
abbrev VfsDirectory := List (String × VfsEntry)

structure VfsTotals where
  files : Nat := 0
  bytes : Nat := 0
  deriving DecidableEq

def vfsSnapshotSchemaVersion : String := "lightspeed.vfs.snapshot.v1"

structure VfsSnapshotManifest where
  schemaVersion : String := vfsSnapshotSchemaVersion
  root : VfsDirectory := []
  totals : VfsTotals := {}

def VfsSnapshotManifest.empty : VfsSnapshotManifest := {}

inductive BlobStoreError where
  | notFound (blobRef : BlobRef)
  | store (message : String)
  deriving DecidableEq

inductive VfsError where
  | rootFile
  | duplicatePath (path : VfsPath)
  | alreadyExists (path : VfsPath)
  | pathConflict (path : VfsPath) (existing : String)
  | notFound (path : VfsPath)
  | notAFile (path : VfsPath)
  | notADirectory (path : VfsPath)
  | directoryNotEmpty (path : VfsPath)
  | invalidOperation (message : String)
  | limitExceeded (limit : String) (value max : Nat)
  | invalidManifest (message : String)
  | blobStore (error : BlobStoreError)
  deriving DecidableEq

/-! ## Totals -/

def addTotals (totals delta : VfsTotals) : Except VfsError VfsTotals :=
  if 2 ^ 64 ≤ totals.files + delta.files then
    .error (.invalidManifest "file count overflowed u64")
  else if 2 ^ 64 ≤ totals.bytes + delta.bytes then
    .error (.invalidManifest "byte total overflowed u64")
  else .ok ⟨totals.files + delta.files, totals.bytes + delta.bytes⟩

def subtractTotals (totals delta : VfsTotals) : Except VfsError VfsTotals :=
  if totals.files < delta.files then .error (.invalidManifest "file count underflowed u64")
  else if totals.bytes < delta.bytes then .error (.invalidManifest "byte total underflowed u64")
  else .ok ⟨totals.files - delta.files, totals.bytes - delta.bytes⟩

mutual

def entryTotals : VfsEntry → Except VfsError VfsTotals
  | .file file => .ok ⟨1, file.sizeBytes⟩
  | .directory entries => directoryTotals {} entries

/-- The totals of a directory's entries, on top of others. -/
def directoryTotals (totals : VfsTotals) : List (String × VfsEntry) → Except VfsError VfsTotals
  | [] => .ok totals
  | (_, entry) :: rest => do directoryTotals (← addTotals totals (← entryTotals entry)) rest

end

def validateName (name : String) : Except VfsError Unit :=
  if name = "" ∨ name = "." ∨ name = ".." ∨ '\x00' ∈ name.toList then
    .error (.invalidManifest ("invalid directory entry name '" ++ name ++ "'"))
  else if '/' ∈ name.toList then
    .error (.invalidManifest ("directory entry name contains '/': '" ++ name ++ "'"))
  else .ok ()

mutual

def validateEntry (totals : VfsTotals) : VfsEntry → Except VfsError VfsTotals
  | .file file =>
    if 2 ^ 64 ≤ totals.bytes + file.sizeBytes then
      .error (.invalidManifest "file byte total overflowed u64")
    else .ok ⟨totals.files + 1, totals.bytes + file.sizeBytes⟩
  | .directory entries => validateDirectory totals entries

def validateDirectory (totals : VfsTotals) : List (String × VfsEntry) → Except VfsError VfsTotals
  | [] => .ok totals
  | (name, entry) :: rest => do
    validateName name
    validateDirectory (← validateEntry totals entry) rest

end

def VfsTotals.render (totals : VfsTotals) : String :=
  "VfsTotals \x7b files: " ++ toString totals.files ++ ", bytes: " ++ toString totals.bytes ++ " \x7d"

def VfsSnapshotManifest.validate (manifest : VfsSnapshotManifest) : Except VfsError Unit := do
  require (manifest.schemaVersion = vfsSnapshotSchemaVersion)
    (.invalidManifest ("unsupported schema version '" ++ manifest.schemaVersion ++ "'"))
  let totals ← validateDirectory {} manifest.root
  require (totals = manifest.totals)
    (.invalidManifest ("manifest totals do not match tree contents: expected " ++
      manifest.totals.render ++ ", computed " ++ totals.render))

/-! ## Lookups -/

namespace VfsDirectory

def entry (entries : VfsDirectory) (name : String) : Option VfsEntry :=
  (entries.find? fun other => other.1 == name).map Prod.snd

/-- Puts an entry under a name, in the order of the names. -/
def insert (entries : VfsDirectory) (name : String) (entry : VfsEntry) : VfsDirectory :=
  entries.takeWhile (fun other => other.1 < name) ++ (name, entry) ::
    (entries.dropWhile fun other => other.1 < name).filter fun other => other.1 != name

def remove (entries : VfsDirectory) (name : String) : VfsDirectory :=
  entries.filter fun other => other.1 != name

end VfsDirectory

/-- The directory that some components lead to. -/
def directoryAt (path : VfsPath) (depth : Nat) :
    VfsDirectory → List String → Except VfsError VfsDirectory
  | entries, [] => .ok entries
  | entries, name :: rest =>
    match entries.entry name with
    | some (.directory inner) => directoryAt path (depth + 1) inner rest
    | some (.file _) => .error (.notADirectory (path.take (depth + 1)))
    | none => .error (.notFound (path.take (depth + 1)))

/-- Writes a directory back to where it was found. -/
def putDirectory : VfsDirectory → List String → VfsDirectory → VfsDirectory
  | _, [], directory => directory
  | entries, name :: rest, directory =>
    match entries.entry name with
    | some (.directory inner) => entries.insert name (.directory (putDirectory inner rest directory))
    | _ => entries

/-- What some components lead to. -/
def lookupEntry (path : VfsPath) : VfsDirectory → List String → Except VfsError VfsEntry
  | entries, [] => .ok (.directory entries)
  | entries, name :: rest =>
    match entries.entry name with
    | some (.file file) => if rest.isEmpty then .ok (.file file) else .error (.notADirectory path)
    | some (.directory inner) => lookupEntry path inner rest
    | none => .error (.notFound path)

def lookupSnapshotPath (manifest : VfsSnapshotManifest) (path : VfsPath) : Except VfsError VfsEntry :=
  lookupEntry path manifest.root path.components

def manifestFile (manifest : VfsSnapshotManifest) (path : VfsPath) : Option VfsFile :=
  match lookupSnapshotPath manifest path with
  | .ok (.file file) => some file
  | _ => none

/-! ## Changes -/

/-- The directory above a path, and the path's name in it. -/
def parentDirectory (manifest : VfsSnapshotManifest) (path : VfsPath) : Except VfsError VfsDirectory :=
  directoryAt path 0 manifest.root path.components.dropLast

def VfsSnapshotManifest.putParent (manifest : VfsSnapshotManifest) (path : VfsPath)
    (parent : VfsDirectory) (totals : VfsTotals) : VfsSnapshotManifest :=
  { manifest with root := putDirectory manifest.root path.components.dropLast parent, totals }

def ensureFileWriteTarget (manifest : VfsSnapshotManifest) (path : VfsPath) : Except VfsError Unit :=
  match path.components.getLast? with
  | none => .error .rootFile
  | some name => do
    match (← parentDirectory manifest path).entry name with
    | some (.directory _) => .error (.notAFile path)
    | _ => .ok ()

/-- The totals without an entry that goes. -/
def keptTotals (totals : VfsTotals) : Option VfsEntry → Except VfsError VfsTotals
  | some old => do subtractTotals totals (← entryTotals old)
  | none => .ok totals

def insertOrReplaceEntry (manifest : VfsSnapshotManifest) (path : VfsPath) (entry : VfsEntry) :
    Except VfsError VfsSnapshotManifest :=
  match path.components.getLast? with
  | none => .error (.pathConflict path "directory")
  | some name => do
    let added ← entryTotals entry
    let parent ← parentDirectory manifest path
    let kept ← keptTotals manifest.totals (parent.entry name)
    return manifest.putParent path (parent.insert name entry) (← addTotals kept added)

def writeManifestFileRef (manifest : VfsSnapshotManifest) (path : VfsPath) (file : VfsFile) :
    Except VfsError VfsSnapshotManifest := do
  ensureFileWriteTarget manifest path
  insertOrReplaceEntry manifest path (.file file)

/-- Makes the directories that some components name. -/
def createDirectories (path : VfsPath) (depth : Nat) :
    VfsDirectory → List String → Except VfsError VfsDirectory
  | entries, [] => .ok entries
  | entries, name :: rest =>
    match entries.entry name with
    | some (.directory inner) => do
      return entries.insert name (.directory (← createDirectories path (depth + 1) inner rest))
    | none => do
      return entries.insert name (.directory (← createDirectories path (depth + 1) [] rest))
    | some (.file _) => .error (.notADirectory (path.take (depth + 1)))

def createManifestDirectory (manifest : VfsSnapshotManifest) (path : VfsPath) (recursive : Bool) :
    Except VfsError VfsSnapshotManifest :=
  match path.components.getLast? with
  | none => if recursive then .ok manifest else .error (.alreadyExists path)
  | some name =>
    if recursive then do
      return { manifest with root := ← createDirectories path 0 manifest.root path.components }
    else do
      let parent ← parentDirectory manifest path
      require (parent.entry name).isNone (.alreadyExists path)
      return manifest.putParent path (parent.insert name (.directory [])) manifest.totals

/-- Refuses to remove a directory that is not empty. -/
def requireRemovable (path : VfsPath) (recursive : Bool) : VfsEntry → Except VfsError Unit
  | .directory inner => require (recursive = true ∨ inner.isEmpty = true) (.directoryNotEmpty path)
  | .file _ => .ok ()

def removeManifestPath (manifest : VfsSnapshotManifest) (path : VfsPath) (recursive force : Bool) :
    Except VfsError VfsSnapshotManifest :=
  match path.components.getLast? with
  | none => .error (.invalidOperation "cannot remove vfs root")
  | some name =>
    match parentDirectory manifest path with
    | .error (.notFound missing) => if force then .ok manifest else .error (.notFound missing)
    | .error error => .error error
    | .ok parent =>
      match parent.entry name with
      | none => if force then .ok manifest else .error (.notFound path)
      | some entry => do
        requireRemovable path recursive entry
        let kept ← keptTotals manifest.totals (some entry)
        return manifest.putParent path (parent.remove name) kept

/-- Replaces exactly one boundary; the root stays a directory. -/
def replaceManifestEntry (manifest : VfsSnapshotManifest) (path : VfsPath) (entry : VfsEntry) :
    Except VfsError VfsSnapshotManifest :=
  if path.isRoot then do
    let totals ← entryTotals entry
    match entry with
    | .directory root => .ok { manifest with root, totals }
    | .file _ => .error (.invalidOperation "workspace root must remain a directory")
  else insertOrReplaceEntry manifest path entry

end Lightspeed.Files
