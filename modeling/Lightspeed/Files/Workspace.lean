import Mathlib.Logic.Function.Basic
import Lightspeed.Files.Manifest
import Lightspeed.Lib.Machine
import Lightspeed.Lib.Versioned

/-!
# Workspaces

A workspace is a head manifest with a revision. A call reads the head, updates the manifest and publishes
it while the revision is the one it read; when another call was first, it starts over a bounded number of
times. A capture is prepared on a head and published on that head or not at all. A move from one
workspace to another is a read, a call on the destination and a call on the source.
-/

namespace Lightspeed.Files

open Lib

/-! ## Updates of a manifest -/

def mapVfsError (error : VfsError) (requestPath : FsPath) : FsError :=
  match error with
  | .notFound _ => .notFound requestPath
  | .alreadyExists _ => .alreadyExists requestPath
  | .notAFile path => .invalidInput ("path is not a file: " ++ path.asStr)
  | .notADirectory path => .invalidInput ("path is not a directory: " ++ path.asStr)
  | .directoryNotEmpty path => .invalidInput ("directory is not empty: " ++ path.asStr)
  | .invalidOperation message => .invalidInput message
  | .pathConflict path existing =>
    .invalidInput ("path conflicts with an existing " ++ existing ++ ": " ++ path.asStr)
  | .blobStore (.notFound blobRef) => .invalidData ("vfs snapshot references missing blob: " ++ blobRef)
  | .blobStore (.store message) => .failed ("blob store failure: " ++ message)
  | .invalidManifest message => .invalidData message
  | .rootFile => .failed "vfs file path cannot be the root path"
  | .duplicatePath path => .failed ("duplicate vfs path: " ++ path.asStr)
  | .limitExceeded limit value max =>
    .failed ("vfs snapshot limit exceeded for " ++ limit ++ ": value " ++ toString value ++
      " is greater than max " ++ toString max)

/-- A result of the versioned filesystem, with the path that was asked for in its error. -/
def liftVfs {α : Type} (result : Except VfsError α) (requestPath : FsPath) : Except FsError α :=
  result.mapError (mapVfsError · requestPath)

/-- Content that is stored already. -/
structure ContentDescriptor where
  contentRef : BlobRef
  byteLen : Nat
  mediaType : Option String

/-- New contents leave a file's mode alone. -/
def writeKeepingMode (manifest : VfsSnapshotManifest) (path : VfsPath) (blobRef : BlobRef)
    (sizeBytes : Nat) (mediaType : Option String) : Except VfsError VfsSnapshotManifest :=
  let executable := (manifestFile manifest path).any (·.executable)
  writeManifestFileRef manifest path { blobRef, sizeBytes, mediaType, executable }

/-- Puts a file as it is. -/
def placeManifestFile (manifest : VfsSnapshotManifest) (path : VfsPath) (requestPath : FsPath)
    (file : VfsFile) (options : RenameOptions) : Except FsError VfsSnapshotManifest := do
  require (options.overwrite = true ∨ (lookupSnapshotPath manifest path).toOption.isNone)
    (.alreadyExists requestPath)
  liftVfs (writeManifestFileRef manifest path file) requestPath

def onlyFilesMove (path : FsPath) : FsError :=
  .unsupported (path.asStr ++ " is not a file; only files can be moved")

/-- The entry that a path selects. -/
def selectedEntry (manifest : VfsSnapshotManifest) (path : FsPath) : Except FsError VfsEntry := do
  liftVfs (lookupSnapshotPath manifest (← fsPathToVfsPath path)) path

/-- The private manifest that a capture starts from: the parents of its path are made. -/
def prepareVfsCapture (manifest : VfsSnapshotManifest) (path : FsPath) (vfsPath : VfsPath)
    (replace : Bool) : Except FsError VfsSnapshotManifest := do
  match lookupSnapshotPath manifest vfsPath with
  | .ok _ => require (replace = true) (.alreadyExists path)
  | .error (.notFound _) => pure ()
  | .error error => throw (mapVfsError error path)
  if vfsPath.isRoot then return manifest
  liftVfs (createManifestDirectory manifest (vfsPath.take (vfsPath.components.length - 1)) true) path

/-- What a call does to the manifest, with the path that was asked for. -/
inductive WorkspaceUpdate where
  | writeFileWith (path : FsPath) (vfsPath : VfsPath) (blobRef : BlobRef) (sizeBytes : Nat)
      (options : WriteOptions)
  | writeFileRef (path : FsPath) (vfsPath : VfsPath) (content : ContentDescriptor)
  | createDirectory (path : FsPath) (vfsPath : VfsPath) (recursive : Bool)
  | remove (path : FsPath) (vfsPath : VfsPath) (options : RemoveOptions)
  | rename (sourcePath destinationPath : FsPath) (source destination : VfsPath)
      (options : RenameOptions)
  | placeFile (path : FsPath) (vfsPath : VfsPath) (file : VfsFile) (options : RenameOptions)
  | capture (path : FsPath) (vfsPath : VfsPath) (replace : Bool) (entry : VfsEntry)

namespace WorkspaceUpdate

/-- The path that a conflict names. -/
def requestPath : WorkspaceUpdate → FsPath
  | writeFileWith path .. | writeFileRef path .. | createDirectory path .. | remove path .. => path
  | rename _ destinationPath .. => destinationPath
  | placeFile path .. | capture path .. => path

/-- Judges its preconditions on a manifest, and updates it. -/
def apply (manifest : VfsSnapshotManifest) : WorkspaceUpdate → Except FsError VfsSnapshotManifest
  | writeFileWith path vfsPath blobRef sizeBytes options => do
    require (∀ version ∈ options.ifMatch,
      (manifestFile manifest vfsPath).map (·.blobRef) = some version) (.conflict path)
    liftVfs (writeKeepingMode manifest vfsPath blobRef sizeBytes none) path
  | writeFileRef path vfsPath content =>
    liftVfs (writeKeepingMode manifest vfsPath content.contentRef content.byteLen content.mediaType)
      path
  | createDirectory path vfsPath recursive =>
    liftVfs (createManifestDirectory manifest vfsPath recursive) path
  | remove path vfsPath options =>
    liftVfs (removeManifestPath manifest vfsPath options.recursive options.force) path
  | rename sourcePath destinationPath source destination options => do
    match ← liftVfs (lookupSnapshotPath manifest source) sourcePath with
    | .directory _ => throw (onlyFilesMove sourcePath)
    | .file file =>
      let manifest ← placeManifestFile manifest destination destinationPath file options
      if source ≠ destination then liftVfs (removeManifestPath manifest source false false) sourcePath
      else return manifest
  | placeFile path vfsPath file options => placeManifestFile manifest vfsPath path file options
  | capture path vfsPath replace entry => do
    let prepared ← prepareVfsCapture manifest path vfsPath replace
    liftVfs (replaceManifestEntry prepared vfsPath entry) path

end WorkspaceUpdate

/-- What a client asks of a workspace's filesystem; contents are stored before. -/
inductive WorkspaceRequest where
  | writeFileWith (path : FsPath) (blobRef : BlobRef) (sizeBytes : Nat) (options : WriteOptions)
  | writeFileRef (path : FsPath) (content : ContentDescriptor)
  | createDirectory (path : FsPath) (recursive : Bool)
  | remove (path : FsPath) (options : RemoveOptions)
  | rename (source destination : FsPath) (options : RenameOptions)
  | placeFile (path : FsPath) (file : VfsFile) (options : RenameOptions)

def WorkspaceRequest.update : WorkspaceRequest → Except FsError WorkspaceUpdate
  | writeFileWith path blobRef sizeBytes options => do
    return .writeFileWith path (← fsPathToVfsPath path) blobRef sizeBytes options
  | writeFileRef path content => do return .writeFileRef path (← fsPathToVfsPath path) content
  | createDirectory path recursive => do
    return .createDirectory path (← fsPathToVfsPath path) recursive
  | remove path options => do return .remove path (← fsPathToVfsPath path) options
  | rename source destination options => do
    return .rename source destination (← fsPathToVfsPath source) (← fsPathToVfsPath destination)
      options
  | placeFile path file options => do return .placeFile path (← fsPathToVfsPath path) file options

/-! ## Attachments -/

abbrev VfsWorkspaceId := String

inductive ResolvedWorkspaceAttachmentTarget where
  | availableSnapshot (snapshotRef : BlobRef)
  | availableWorkspace (workspace : VfsWorkspaceId)
  | unavailable (reason : String)

/-- A snapshot or a workspace at a path, to be edited or only read. -/
structure ResolvedWorkspaceAttachment where
  path : VfsPath
  target : ResolvedWorkspaceAttachmentTarget
  writable : Bool

/-- A path inside a workspace. -/
structure WorkspaceRoute where
  workspace : VfsWorkspaceId
  innerPath : FsPath

/-- The attachment that a path lies in, with the path inside it. -/
def routeAttachment (attachments : List ResolvedWorkspaceAttachment) (path : FsPath) :
    Except FsError (Option (ResolvedWorkspaceAttachment × FsPath)) := do
  let vfsPath ← fsPathToVfsPath path
  return (attachments.find? fun attachment => vfsPath.startsWith attachment.path).map fun attachment =>
    (attachment, vfsPathToFsPath (vfsPath.drop attachment.path.components.length))

def writableWorkspaceForAttachment (attachment : ResolvedWorkspaceAttachment) (requestPath : FsPath) :
    Except FsError VfsWorkspaceId := do
  require (attachment.writable = true) (.permissionDenied requestPath)
  match attachment.target with
  | .availableWorkspace workspace => return workspace
  | .availableSnapshot _ => throw (.permissionDenied requestPath)
  | .unavailable reason => throw (.unavailable requestPath reason)

/-- The two ends of a move. -/
def renameRoutes (attachments : List ResolvedWorkspaceAttachment) (sourcePath destinationPath : FsPath) :
    Except FsError (WorkspaceRoute × WorkspaceRoute) := do
  let (source, sourceInner) ←
    orError (← routeAttachment attachments sourcePath) (.permissionDenied sourcePath)
  let (destination, destinationInner) ←
    orError (← routeAttachment attachments destinationPath) (.permissionDenied destinationPath)
  let sourceWorkspace ← writableWorkspaceForAttachment source sourcePath
  let destinationWorkspace ← writableWorkspaceForAttachment destination destinationPath
  return (⟨sourceWorkspace, sourceInner⟩, ⟨destinationWorkspace, destinationInner⟩)

/-! ## Calls -/

/-- A workspace's record: the manifest that its head names, with the revision. -/
abbrev VfsWorkspaceRecord := Versioned VfsSnapshotManifest

/-- Attempts at one head update before a busy workspace is reported as a conflict. -/
def headUpdateAttempts : Nat := 8

/-- A client's call, or a call that a move makes. -/
inductive CallId where
  | client (id : Nat)
  | place (move : Nat)
  | remove (move : Nat)
  deriving DecidableEq

/-- Where a call stands: before a read, with the attempts that are left then; or before it publishes what
it made of the head it read. -/
inductive CallStage where
  | reading (attempts : Nat)
  | committing (attempts : Nat) (current : VfsWorkspaceRecord) (manifest : VfsSnapshotManifest)
  | done (result : Except FsError Unit)

inductive WorkspaceCall where
  | refused (error : FsError)
  | running (workspace : VfsWorkspaceId) (update : WorkspaceUpdate) (stage : CallStage)

/-- A capture that is prepared on a head. -/
structure WorkspaceCaptureTarget where
  workspace : VfsWorkspaceId
  current : VfsWorkspaceRecord
  manifest : VfsSnapshotManifest
  path : FsPath
  vfsPath : VfsPath
  replace : Bool

inductive MoveStage where
  | exporting
  | placing (file : VfsFile)
  | removing (file : VfsFile)
  | done (result : Except FsError Unit)

/-- A move between two workspaces. -/
structure WorkspaceMove where
  sourcePath : FsPath
  source : WorkspaceRoute
  destination : WorkspaceRoute
  options : RenameOptions
  stage : MoveStage

/-- A head that was published: the call, its update, and the new manifest. -/
structure WorkspaceCommit where
  call : CallId
  workspace : VfsWorkspaceId
  update : WorkspaceUpdate
  head : VfsSnapshotManifest

structure Workspaces where
  records : VfsWorkspaceId → VfsWorkspaceRecord
  calls : CallId → Option WorkspaceCall := fun _ => none
  targets : List WorkspaceCaptureTarget := []
  moves : Nat → Option WorkspaceMove := fun _ => none
  /-- Every head that was published, in order. -/
  commits : List WorkspaceCommit := []

/-- What happens next: a client asks, or some call or move goes on from where it waits. -/
inductive WorkspaceInput where
  | call (id : Nat) (workspace : VfsWorkspaceId) (request : WorkspaceRequest)
  | prepareCapture (workspace : VfsWorkspaceId) (path : FsPath) (replace : Bool)
  | commitCapture (id target : Nat) (entry : VfsEntry)
  | readHead (id : CallId)
  | commitHead (id : CallId)
  /-- A store or the clock fails a call. -/
  | failCall (id : CallId) (error : FsError)
  | rename (move : Nat) (attachments : List ResolvedWorkspaceAttachment) (source destination : FsPath)
      (options : RenameOptions)
  | exportSource (move : Nat)
  | failExport (move : Nat) (error : FsError)
  /-- A move takes the result of the call it waits for. -/
  | advance (move : Nat)

namespace Workspaces

def setCall (s : Workspaces) (id : CallId) (call : WorkspaceCall) : Workspaces :=
  { s with calls := Function.update s.calls id (some call) }

def setMove (s : Workspaces) (id : Nat) (move : WorkspaceMove) : Workspaces :=
  { s with moves := Function.update s.moves id (some move) }

/-- Starts a call. -/
def start (s : Workspaces) (id : CallId) (workspace : VfsWorkspaceId) (request : WorkspaceRequest) :
    Workspaces :=
  match request.update with
  | .error error => s.setCall id (.refused error)
  | .ok update => s.setCall id (.running workspace update (.reading headUpdateAttempts))

/-- A workspace's head, when its manifest is valid. -/
def readRecord (s : Workspaces) (workspace : VfsWorkspaceId) : Except FsError VfsWorkspaceRecord := do
  liftVfs (s.records workspace).value.validate .root
  return s.records workspace

/-- One attempt of a call: reads the head, and updates the manifest. -/
def readHead (s : Workspaces) (id : CallId) (workspace : VfsWorkspaceId) (update : WorkspaceUpdate)
    (attempts : Nat) : Workspaces :=
  match s.readRecord workspace with
  | .error error => s.setCall id (.running workspace update (.done (.error error)))
  | .ok current =>
    match update.apply current.value with
    | .error error => s.setCall id (.running workspace update (.done (.error error)))
    | .ok manifest =>
      s.setCall id (.running workspace update (.committing (attempts - 1) current manifest))

/-- Publishes a manifest over the head it was made from. When another head is there, the call starts over
while it has attempts left. -/
def commitHead (s : Workspaces) (id : CallId) (workspace : VfsWorkspaceId) (update : WorkspaceUpdate)
    (attempts : Nat) (current : VfsWorkspaceRecord) (manifest : VfsSnapshotManifest) : Workspaces :=
  match manifest.validate with
  | .error error =>
    s.setCall id (.running workspace update (.done (.error (mapVfsError error .root))))
  | .ok () =>
    if (s.records workspace).revision = current.revision then
      { s.setCall id (.running workspace update (.done (.ok ()))) with
        records := Function.update s.records workspace ((s.records workspace).change manifest)
        commits := s.commits ++ [⟨id, workspace, update, manifest⟩] }
    else if attempts = 0 then
      s.setCall id (.running workspace update (.done (.error (.conflict update.requestPath))))
    else s.setCall id (.running workspace update (.reading attempts))

/-- Reads the file that a move takes, and starts to place it. -/
def exportSource (s : Workspaces) (id : Nat) (move : WorkspaceMove) : Workspaces :=
  let entry : Except FsError VfsEntry := do
    selectedEntry (← s.readRecord move.source.workspace).value move.source.innerPath
  match entry with
  | .error error => s.setMove id { move with stage := .done (.error error) }
  | .ok (.directory _) => s.setMove id { move with stage := .done (.error (onlyFilesMove move.sourcePath)) }
  | .ok (.file file) =>
    (s.setMove id { move with stage := .placing file }).start (.place id) move.destination.workspace
      (.placeFile move.destination.innerPath file move.options)

/-- The result of a call that has ended. -/
def result (s : Workspaces) (id : CallId) : Option (Except FsError Unit) :=
  match s.calls id with
  | some (.refused error) => some (.error error)
  | some (.running _ _ (.done result)) => some result
  | _ => none

def advance (s : Workspaces) (id : Nat) (move : WorkspaceMove) : Option Workspaces :=
  match move.stage with
  | .placing file =>
    (s.result (.place id)).map fun result =>
      match result with
      | .error error => s.setMove id { move with stage := .done (.error error) }
      | .ok () =>
        (s.setMove id { move with stage := .removing file }).start (.remove id) move.source.workspace
          (.remove move.source.innerPath .file)
  | .removing _ =>
    (s.result (.remove id)).map fun result => s.setMove id { move with stage := .done result }
  | _ => none

def step (s : Workspaces) : WorkspaceInput → Option Workspaces
  | .call id workspace request =>
    if s.calls (.client id) = none then some (s.start (.client id) workspace request) else none
  | .prepareCapture workspace path replace =>
    let target : Except FsError WorkspaceCaptureTarget := do
      let current ← s.readRecord workspace
      let vfsPath ← fsPathToVfsPath path
      let manifest ← prepareVfsCapture current.value path vfsPath replace
      return { workspace, current, manifest, path, vfsPath, replace }
    match target with
    | .error _ => some s
    | .ok target => some { s with targets := s.targets ++ [target] }
  | .commitCapture id target entry =>
    match s.calls (.client id), s.targets[target]? with
    | none, some target =>
      let update : WorkspaceUpdate := .capture target.path target.vfsPath target.replace entry
      match liftVfs (replaceManifestEntry target.manifest target.vfsPath entry) target.path with
      | .error error =>
        some (s.setCall (.client id) (.running target.workspace update (.done (.error error))))
      | .ok manifest =>
        -- Attempts are of no use to a capture: it keeps its one revision check.
        some (s.setCall (.client id)
          (.running target.workspace update (.committing 0 target.current manifest)))
    | _, _ => none
  | .readHead id =>
    match s.calls id with
    | some (.running workspace update (.reading attempts)) =>
      some (s.readHead id workspace update attempts)
    | _ => none
  | .commitHead id =>
    match s.calls id with
    | some (.running workspace update (.committing attempts current manifest)) =>
      some (s.commitHead id workspace update attempts current manifest)
    | _ => none
  | .failCall id error =>
    match s.calls id with
    | some (.running workspace update (.reading _))
    | some (.running workspace update (.committing ..)) =>
      some (s.setCall id (.running workspace update (.done (.error error))))
    | _ => none
  | .rename id attachments source destination options =>
    if s.moves id ≠ none ∨ s.calls (.place id) ≠ none then none
    else
      match renameRoutes attachments source destination with
      | .error error => some (s.setCall (.place id) (.refused error))
      | .ok (start, finish) =>
        if start.workspace = finish.workspace then
          some (s.start (.place id) start.workspace
            (.rename start.innerPath finish.innerPath options))
        else
          some (s.setMove id { sourcePath := source, source := start, destination := finish, options
                               stage := .exporting })
  | .exportSource id =>
    match s.moves id with
    | some move =>
      match move.stage with
      | .exporting => some (s.exportSource id move)
      | _ => none
    | none => none
  | .failExport id error =>
    match s.moves id with
    | some move =>
      match move.stage with
      | .exporting => some (s.setMove id { move with stage := .done (.error error) })
      | _ => none
    | none => none
  | .advance id => (s.moves id).bind fun move => s.advance id move

end Workspaces

/-- Clients of workspaces, from any records. -/
def workspaces (base : VfsWorkspaceId → VfsWorkspaceRecord) : Machine Workspaces WorkspaceInput where
  init s := s = { records := base }
  step := Workspaces.step

end Lightspeed.Files
