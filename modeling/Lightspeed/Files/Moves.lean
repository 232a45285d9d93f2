import Lightspeed.Files.FileAt
import Lightspeed.Files.FileTree
import Lightspeed.Files.Heads

/-!
# Moves and writes

A move inside a workspace is one publication. A move between two workspaces reads its source, places the
file and removes the source, each on the head that is there then: it takes a file along, and not another
that was written meanwhile, as long as the source still holds the file that it read when it is removed.
-/

namespace Lightspeed.Files

open Lib

variable {base : VfsWorkspaceId → VfsWorkspaceRecord} {s t : Workspaces} {input : WorkspaceInput}
  {id : CallId} {call : WorkspaceCall} {path : VfsPath} {file : VfsFile}
  {workspace : VfsWorkspaceId}

/-! ## What the calls of a move are about -/

/-- The call that places a move's file. -/
def WorkspaceMove.Places (move : WorkspaceMove) (file : VfsFile) (workspace : VfsWorkspaceId)
    (update : WorkspaceUpdate) : Prop :=
  workspace = move.destination.workspace ∧
    ∃ vfsPath, update = .placeFile move.destination.innerPath vfsPath file move.options

/-- The call that removes a move's source. -/
def WorkspaceMove.Removes (move : WorkspaceMove) (workspace : VfsWorkspaceId)
    (update : WorkspaceUpdate) : Prop :=
  workspace = move.source.workspace ∧
    ∃ vfsPath, fsPathToVfsPath move.source.innerPath = .ok vfsPath ∧
      update = .remove move.source.innerPath vfsPath .file

/-- A move's calls are about the file that it read. -/
structure MovesKept (s : Workspaces) : Prop where
  placing : ∀ id move placed workspace update stage, s.moves id = some move →
    move.stage = .placing placed → s.calls (.place id) = some (.running workspace update stage) →
      move.Places placed workspace update
  placed : ∀ id move placed, s.moves id = some move → move.stage = .removing placed →
    ∃ workspace update, s.calls (.place id) = some (.running workspace update (.done (.ok ()))) ∧
      move.Places placed workspace update
  removing : ∀ id workspace update stage, s.calls (.remove id) = some (.running workspace update stage) →
    ∃ move, s.moves id = some move ∧ move.Removes workspace update ∧
      (stage.Waits → ∃ placed, move.stage = .removing placed)

/-- A call that is not a move's, or goes on as it was, leaves them so. -/
theorem MovesKept.setCall (hs : MovesKept s)
    (hplace : ∀ move record placed workspace update stage, id = .place move →
      call = .running workspace update stage → s.moves move = some record →
      record.stage = .placing placed → record.Places placed workspace update)
    (hplaced : ∀ workspace update, s.calls id ≠ some (.running workspace update (.done (.ok ()))))
    (hremove : ∀ move workspace update stage, id = .remove move →
      call = .running workspace update stage → ∃ record, s.moves move = some record ∧
        record.Removes workspace update ∧ (stage.Waits → ∃ placed, record.stage = .removing placed)) :
    MovesKept (s.setCall id call) := by
  refine ⟨fun other record placed workspace update stage hmove hstage hother => ?_,
    fun other record placed hmove hstage => ?_, fun other workspace update stage hother => ?_⟩
  · rcases setCall_cases hother with ⟨rfl, hfound⟩ | ⟨-, hfound⟩
    · exact hplace _ _ _ _ _ _ rfl hfound.symm hmove hstage
    · exact hs.placing _ _ _ _ _ _ hmove hstage hfound
  · obtain ⟨workspace, update, hcall, hplaces⟩ := hs.placed _ _ _ hmove hstage
    refine ⟨workspace, update, ?_, hplaces⟩
    unfold Workspaces.setCall
    dsimp only
    rw [Function.update_of_ne, hcall]
    intro hsame
    rw [hsame] at hcall
    exact hplaced _ _ hcall
  · rcases setCall_cases hother with ⟨rfl, hfound⟩ | ⟨-, hfound⟩
    · exact hremove _ _ _ _ rfl hfound.symm
    · exact hs.removing _ _ _ _ hfound

/-- A waiting call that goes on is about what it was about. -/
theorem MovesKept.goesOn {update : WorkspaceUpdate} {stage next : CallStage} (hs : MovesKept s)
    (hcall : s.calls id = some (.running workspace update stage)) (hwaits : stage.Waits) :
    MovesKept (s.setCall id (.running workspace update next)) := by
  refine hs.setCall ?_ ?_ ?_
  · rintro move record placed _ _ _ rfl hnext hmove hstage
    cases hnext
    exact hs.placing _ _ _ _ _ _ hmove hstage hcall
  · intro workspace' update' hdone
    rw [hcall] at hdone
    cases hdone
    exact hwaits
  · rintro move _ _ _ rfl hnext
    cases hnext
    obtain ⟨record, hmove, hremoves, hremoving⟩ := hs.removing _ _ _ _ hcall
    exact ⟨record, hmove, hremoves, fun _ => hremoving hwaits⟩

/-- A move that goes on, with what its calls are about. -/
theorem MovesKept.setMove {move : Nat} {record : WorkspaceMove} (hs : MovesKept s)
    (hplacing : ∀ placed, record.stage = .placing placed → s.calls (.place move) = none)
    (hplaced : ∀ placed, record.stage = .removing placed →
      ∃ workspace update, s.calls (.place move) = some (.running workspace update (.done (.ok ()))) ∧
        record.Places placed workspace update)
    (hremoving : ∀ workspace update stage,
      s.calls (.remove move) = some (.running workspace update stage) →
        record.Removes workspace update ∧ ¬ stage.Waits) : MovesKept (s.setMove move record) := by
  refine ⟨fun other found placed workspace update stage hmove hstage hcall => ?_,
    fun other found placed hmove hstage => ?_, fun other workspace update stage hcall => ?_⟩
  · rcases setMove_cases hmove with ⟨rfl, rfl⟩ | ⟨-, hold⟩
    · have hcall : s.calls (.place other) = some (.running workspace update stage) := hcall
      rw [hplacing placed hstage] at hcall
      cases hcall
    · exact hs.placing _ _ _ _ _ _ hold hstage hcall
  · rcases setMove_cases hmove with ⟨rfl, rfl⟩ | ⟨-, hold⟩
    · exact hplaced placed hstage
    · exact hs.placed _ _ _ hold hstage
  · by_cases hsame : other = move
    · subst hsame
      obtain ⟨hremoves, hended⟩ := hremoving _ _ _ hcall
      exact ⟨record, setMove_moves s other record, hremoves, fun hwaits => absurd hwaits hended⟩
    · obtain ⟨found, hfound, hremoves, hwaits⟩ := hs.removing _ _ _ _ hcall
      refine ⟨found, ?_, hremoves, hwaits⟩
      unfold Workspaces.setMove
      dsimp only
      rw [Function.update_of_ne hsame, hfound]

/-- A call that is started, whatever its request says. -/
theorem MovesKept.start {request : WorkspaceRequest}
    (h : ∀ error, MovesKept (s.setCall id (.refused error)))
    (hrunning : ∀ update, request.update = .ok update →
      MovesKept (s.setCall id (.running workspace update (.reading headUpdateAttempts)))) :
    MovesKept (s.start id workspace request) := by
  rcases start_cases s id workspace request with ⟨error, hstart⟩ | ⟨update, hupdate, hstart⟩
  · rw [hstart]
    exact h error
  · rw [hstart]
    exact hrunning update hupdate

theorem placeFile_update {path : FsPath} {options : RenameOptions} {update : WorkspaceUpdate}
    (h : (WorkspaceRequest.placeFile path file options).update = .ok update) :
    ∃ vfsPath, update = .placeFile path vfsPath file options := by
  obtain ⟨vfsPath, -, hupdate⟩ := bind_eq_ok.mp h
  exact ⟨vfsPath, (Except.ok.inj hupdate).symm⟩

theorem remove_update {path : FsPath} {options : RemoveOptions} {update : WorkspaceUpdate}
    (h : (WorkspaceRequest.remove path options).update = .ok update) :
    ∃ vfsPath, fsPathToVfsPath path = .ok vfsPath ∧ update = .remove path vfsPath options := by
  obtain ⟨vfsPath, hpath, hupdate⟩ := bind_eq_ok.mp h
  exact ⟨vfsPath, hpath, (Except.ok.inj hupdate).symm⟩

theorem movesKept_step (horder : MovesInOrder s) (hs : MovesKept s) (h : s.step input = some t) :
    MovesKept t := by
  cases step_workspaceStep h with
  | idle => exact hs
  | @starts _ id workspace request hnew hid =>
    have hkept : ∀ call, MovesKept (s.setCall id call) := by
      intro call
      refine hs.setCall ?_ ?_ ?_
      · rintro move record placed _ _ _ rfl - hmove
        rcases hid with ⟨client, hid⟩ | ⟨other, hid, hnone⟩
        · cases hid
        · cases hid
          rw [hnone] at hmove
          cases hmove
      · intro workspace update hdone
        rw [hnew] at hdone
        cases hdone
      · rintro move _ _ _ rfl
        rcases hid with ⟨client, hid⟩ | ⟨other, hid, -⟩
        · cases hid
        · cases hid
    exact .start (fun error => hkept _) fun update _ => hkept _
  | refuses hnew hmove =>
    refine hs.setCall ?_ ?_ ?_
    · intro _ _ _ _ _ _ _ hrunning
      cases hrunning
    · intro workspace update hdone
      rw [hnew] at hdone
      cases hdone
    · intro _ _ _ _ _ hrunning
      cases hrunning
  | prepares => exact ⟨hs.placing, hs.placed, hs.removing⟩
  | captures hnew =>
    refine hs.setCall ?_ ?_ ?_
    · intro _ _ _ _ _ _ hid
      cases hid
    · intro workspace update hdone
      rw [hnew] at hdone
      cases hdone
    · intro _ _ _ _ hid
      cases hid
  | goesOn hcall hwaits => exact hs.goesOn hcall hwaits
  | @publishes id workspace update _ _ _ hcall =>
    have hkept : MovesKept (s.setCall id (.running workspace update (.done (.ok ())))) :=
      hs.goesOn hcall trivial
    exact ⟨hkept.placing, hkept.placed, hkept.removing⟩
  | moves hnew hmove hstage =>
    refine hs.setMove (fun _ hplacing => ?_) (fun _ hremoving => ?_) fun _ _ _ hcall => ?_
    · rw [hstage] at hplacing
      cases hplacing
    · rw [hstage] at hremoving
      cases hremoving
    · rw [horder.unmoved _ hmove] at hcall
      cases hcall
  | @ends _ id record result hmove hended =>
    refine hs.setMove (fun _ hplacing => ?_) (fun _ hremoving => ?_) fun workspace update stage hcall => ?_
    · cases hplacing
    · cases hremoving
    · obtain ⟨found, hfound, hremoves, hwaits⟩ := hs.removing _ _ _ _ hcall
      rw [hmove] at hfound
      obtain rfl := Option.some.inj hfound
      refine ⟨hremoves, fun hwaiting => ?_⟩
      obtain ⟨placed, hremoving⟩ := hwaits hwaiting
      have hresult := hended placed hremoving
      unfold Workspaces.result at hresult
      rw [hcall] at hresult
      cases stage with
      | done result => exact hwaiting
      | reading attempts | committing attempts current manifest => exact hresult rfl
  | @places _ id record placed hmove hstage hfile =>
    obtain ⟨hplace, hremove⟩ := horder.exporting _ _ hmove hstage
    have hkept : MovesKept (s.setMove id { record with stage := .placing placed }) := by
      refine hs.setMove (fun _ _ => hplace) (fun _ hremoving => ?_) fun _ _ _ hcall => ?_
      · cases hremoving
      · rw [hremove] at hcall
        cases hcall
    refine .start (fun error => hkept.setCall ?_ ?_ ?_) fun update hupdate => hkept.setCall ?_ ?_ ?_
    · intro _ _ _ _ _ _ _ hrunning
      cases hrunning
    · intro workspace update hdone
      have hdone : s.calls (.place id) = some (.running workspace update (.done (.ok ()))) := hdone
      rw [hplace] at hdone
      cases hdone
    · intro _ _ _ _ hid
      cases hid
    · intro move found placed' workspace update' stage hid hrunning hfound hplacing
      cases hid
      cases hrunning
      rw [setMove_moves] at hfound
      obtain rfl := Option.some.inj hfound
      cases hplacing
      exact ⟨rfl, placeFile_update hupdate⟩
    · intro workspace update hdone
      have hdone : s.calls (.place id) = some (.running workspace update (.done (.ok ()))) := hdone
      rw [hplace] at hdone
      cases hdone
    · intro _ _ _ _ hid
      cases hid
  | @removes _ id record placed hmove hstage hplaced =>
    have hremove := horder.placing _ _ _ hmove hstage
    have hkept : MovesKept (s.setMove id { record with stage := .removing placed }) := by
      refine hs.setMove (fun _ hplacing => ?_) (fun other hremoving => ?_) fun _ _ _ hcall => ?_
      · cases hplacing
      · cases hremoving
        unfold Workspaces.result at hplaced
        split at hplaced
        · cases hplaced
        next workspace update result hcall =>
          cases hplaced
          have hplaces := hs.placing _ _ _ _ _ _ hmove hstage hcall
          exact ⟨workspace, update, hcall, hplaces⟩
        · cases hplaced
      · rw [hremove] at hcall
        cases hcall
    refine .start (fun error => hkept.setCall ?_ ?_ ?_) fun update hupdate => hkept.setCall ?_ ?_ ?_
    · intro _ _ _ _ _ _ _ hrunning
      cases hrunning
    · intro workspace update hdone
      have hdone : s.calls (.remove id) = some (.running workspace update (.done (.ok ()))) := hdone
      rw [hremove] at hdone
      cases hdone
    · intro _ _ _ _ _ hrunning
      cases hrunning
    · intro _ _ _ _ _ _ hid
      cases hid
    · intro workspace update hdone
      have hdone : s.calls (.remove id) = some (.running workspace update (.done (.ok ()))) := hdone
      rw [hremove] at hdone
      cases hdone
    · intro move workspace update' stage hid hrunning
      cases hid
      cases hrunning
      exact ⟨_, setMove_moves _ _ _, ⟨rfl, remove_update hupdate⟩, fun _ => ⟨placed, rfl⟩⟩

theorem reachable_movesKept (h : (workspaces base).Reaches s) : MovesKept s := by
  refine h.invariant ?_ fun s input t hreach hs hstep =>
    movesKept_step (reachable_movesInOrder hreach) hs hstep
  rintro s rfl
  exact ⟨fun _ _ _ _ _ _ h => (nomatch h), fun _ _ _ h => (nomatch h), fun _ _ _ _ h => (nomatch h)⟩

/-! ## What a publication takes -/

/-- The file at a workspace's path after some publications. -/
def fileAfter (base : VfsWorkspaceId → VfsWorkspaceRecord) (commits : List WorkspaceCommit)
    (workspace : VfsWorkspaceId) (path : VfsPath) : Option VfsFile :=
  manifestFile ((base workspace).after (headsOf workspace commits)).value path

/-- A publication that takes a file from its path leaves it at its move's destination, or it is no move's,
or replaces the file at its move's destination. -/
def TakesAlong (before : List WorkspaceCommit) (commit : WorkspaceCommit) (path : VfsPath)
    (file : VfsFile) : Prop :=
  match commit.update with
  | .rename _ _ source destination _ =>
    path = source ∧ manifestFile commit.head destination = some file ∨
      path ≠ source ∧ path = destination
  | .remove _ source _ =>
    ∀ move, commit.call = .remove move → path = source ∧ ∃ placed ∈ before,
      placed.call = .place move ∧ ∃ requestPath destination options,
        placed.update = .placeFile requestPath destination file options ∧
          manifestFile placed.head destination = some file
  | _ => True

/-- The call's publication would go through. -/
def Workspaces.publishes (s : Workspaces) (id : CallId) : Bool :=
  match s.calls id with
  | some (.running workspace _ (.committing _ current manifest)) =>
    manifest.validate.isOk && (s.records workspace).revision == current.revision
  | _ => false

/-- The file that a move has placed, and the path that it removes next. -/
def WorkspaceMove.removal (move : WorkspaceMove) : Option (VfsFile × VfsPath) :=
  match move.stage, (fsPathToVfsPath move.source.innerPath).toOption with
  | .removing placed, some path => some (placed, path)
  | _, _ => none

/-- When a move's removal is published, its source holds the file that the move read, or none. -/
def SourceKept (s : Workspaces) : WorkspaceInput → Prop
  | .commitHead (.remove id) => s.publishes (.remove id) = true → ∀ move ∈ s.moves id,
    ∀ removal ∈ move.removal,
      ∀ found ∈ manifestFile (s.records move.source.workspace).value removal.2, found = removal.1
  | _ => True

instance (s : Workspaces) (input : WorkspaceInput) : Decidable (SourceKept s input) :=
  match input with
  | .commitHead (.remove id) =>
    inferInstanceAs (Decidable (s.publishes (.remove id) = true → ∀ move ∈ s.moves id,
      ∀ removal ∈ move.removal,
        ∀ found ∈ manifestFile (s.records move.source.workspace).value removal.2, found = removal.1))
  | .commitHead (.client _) | .commitHead (.place _) | .call .. | .prepareCapture .. |
    .commitCapture .. | .readHead _ | .failCall .. | .rename .. | .exportSource _ | .failExport .. |
    .advance _ => .isTrue trivial

/-- A file that was placed is there when its call is published. -/
theorem placed_committed (hheads : HeadsInv base s) {move : Nat} {record : WorkspaceMove}
    {update : WorkspaceUpdate}
    (hcall : s.calls (.place move) = some (.running workspace update (.done (.ok ()))))
    (hplaces : record.Places file workspace update) :
    ∃ placed ∈ s.commits, placed.call = .place move ∧ ∃ requestPath destination options,
      placed.update = .placeFile requestPath destination file options ∧
        manifestFile placed.head destination = some file := by
  obtain ⟨commit, hcommit, hid, hworkspace, hupdate⟩ := hheads.succeeded _ _ _ hcall
  obtain ⟨-, destination, rfl⟩ := hplaces
  obtain ⟨before, after, hsplit⟩ := List.append_of_mem hcommit
  have happly := hheads.applied _ _ _ hsplit
  rw [hupdate] at happly
  refine ⟨commit, hcommit, hid, _, destination, _, hupdate, ?_⟩
  rw [manifestFile_place happly, if_pos rfl]

/-- A publication takes no file away that a move did not take along. -/
theorem publish_takesAlong {update : WorkspaceUpdate} {attempts : Nat}
    {current : VfsWorkspaceRecord} {manifest : VfsSnapshotManifest} (hheads : HeadsInv base s)
    (hmoves : MovesKept s) (hsource : SourceKept s (.commitHead id))
    (hcall : s.calls id = some (.running workspace update (.committing attempts current manifest)))
    (hvalid : manifest.validate = .ok ())
    (hrevision : (s.records workspace).revision = current.revision)
    (hfile : manifestFile (s.records workspace).value path = some file)
    (hgone : manifestFile manifest path ≠ some file) :
    TakesAlong s.commits ⟨id, workspace, update, manifest⟩ path file := by
  obtain ⟨hseen, happly⟩ := hheads.committing _ _ _ _ _ _ hcall
  have hcurrent : current = s.records workspace := by
    rw [hheads.head]
    refine hseen.eq_after ?_
    rw [← hheads.head]
    exact hrevision.symm
  rw [hcurrent] at happly
  unfold TakesAlong
  cases update with
  | rename sourcePath destinationPath source destination options =>
    dsimp only
    obtain ⟨moved, hmoved, hchanged⟩ := manifestFile_rename happly
    by_cases hpath : path = source
    · rw [hpath, hmoved] at hfile
      obtain rfl := Option.some.inj hfile
      refine .inl ⟨hpath, ?_⟩
      rw [hchanged, if_pos rfl]
    · refine .inr ⟨hpath, ?_⟩
      by_contra hdestination
      rw [hchanged, if_neg hdestination, if_neg hpath] at hgone
      exact hgone hfile
  | remove requestPath source options =>
    dsimp only
    rintro move rfl
    obtain ⟨record, hrecord, ⟨hworkspace, source', hsource', hupdate⟩, hwaits⟩ :=
      hmoves.removing _ _ _ _ hcall
    obtain ⟨placed, hstage⟩ := hwaits trivial
    cases hupdate
    have hchanged := manifestFile_remove (liftVfs_eq_ok.mp happly) path
    have hpath : path = source := by
      by_contra hne
      rw [if_neg hne] at hchanged
      rw [hchanged] at hgone
      exact hgone hfile
    -- The condition: what is at the source is what the move placed.
    have hpublishes : s.publishes (.remove move) = true := by
      unfold Workspaces.publishes
      rw [hcall]
      dsimp only
      rw [hvalid, hrevision, beq_self_eq_true]
      rfl
    have hremoval : (placed, source) ∈ record.removal := by
      unfold WorkspaceMove.removal
      rw [hstage, hsource']
      rfl
    have hsame : file = placed := by
      refine hsource hpublishes record hrecord _ hremoval file ?_
      rw [← hworkspace, ← hpath]
      exact hfile
    subst hsame
    obtain ⟨workspace', update', hplaced, hplaces⟩ := hmoves.placed _ _ _ hrecord hstage
    exact ⟨hpath, placed_committed hheads hplaced hplaces⟩
  | writeFileWith => trivial
  | writeFileRef => trivial
  | createDirectory => trivial
  | placeFile => trivial
  | capture => trivial

/-! ## What becomes of a file -/

theorem fileAfter_concat_self (base : VfsWorkspaceId → VfsWorkspaceRecord)
    (commits : List WorkspaceCommit) (commit : WorkspaceCommit) (path : VfsPath) :
    fileAfter base (commits ++ [commit]) commit.workspace path = manifestFile commit.head path := by
  unfold fileAfter headsOf
  rw [commitsTo_concat_self, List.map_append, List.map_cons, List.map_nil, Versioned.after_concat]
  rfl

theorem fileAfter_concat_other {commits : List WorkspaceCommit} {commit : WorkspaceCommit}
    (h : commit.workspace ≠ workspace) :
    fileAfter base (commits ++ [commit]) workspace path = fileAfter base commits workspace path := by
  unfold fileAfter headsOf
  rw [commitsTo_concat_other h]

/-- A file stays at its path, or some later publication to its workspace takes it from there. -/
theorem file_stays_or_goes {front : List WorkspaceCommit} (rest : List WorkspaceCommit)
    (h : fileAfter base front workspace path = some file) :
    fileAfter base (front ++ rest) workspace path = some file ∨
      ∃ middle later after, rest = middle ++ later :: after ∧ later.workspace = workspace ∧
        fileAfter base (front ++ middle) workspace path = some file ∧
        manifestFile later.head path ≠ some file := by
  induction rest generalizing front with
  | nil =>
    rw [List.append_nil]
    exact .inl h
  | cons commit rest ih =>
    by_cases hkept : fileAfter base (front ++ [commit]) workspace path = some file
    · rw [List.append_cons]
      rcases ih hkept with hstays | ⟨middle, later, after, rfl, hgoes⟩
      · exact .inl hstays
      · rw [← List.append_cons] at hgoes
        exact .inr ⟨commit :: middle, later, after, rfl, hgoes⟩
    · have hsame : commit.workspace = workspace := by
        by_contra hother
        rw [fileAfter_concat_other hother] at hkept
        exact hkept h
      refine .inr ⟨[], commit, rest, rfl, hsame, by rwa [List.append_nil], ?_⟩
      rw [← hsame, fileAfter_concat_self] at hkept
      exact hkept

/-- The path and the contents of a write. -/
def WorkspaceUpdate.written : WorkspaceUpdate → Option (VfsPath × BlobRef)
  | .writeFileWith _ path blobRef _ _ => some (path, blobRef)
  | .writeFileRef _ path content => some (path, content.contentRef)
  | _ => none

/-- A write's contents stand at its path. -/
theorem apply_written {manifest changed : VfsSnapshotManifest} {update : WorkspaceUpdate}
    {blobRef : BlobRef} (h : update.apply manifest = .ok changed)
    (hwritten : update.written = some (path, blobRef)) :
    ∃ file, manifestFile changed path = some file ∧ file.blobRef = blobRef := by
  cases update with
  | writeFileWith requestPath vfsPath contents sizeBytes options =>
    obtain ⟨rfl, rfl⟩ := Prod.mk.inj (Option.some.inj hwritten)
    unfold WorkspaceUpdate.apply at h
    obtain ⟨_, -, h⟩ := bind_eq_ok.mp h
    have hfile := manifestFile_write (liftVfs_eq_ok.mp h) vfsPath
    rw [if_pos rfl] at hfile
    exact ⟨_, hfile, rfl⟩
  | writeFileRef requestPath vfsPath content =>
    obtain ⟨rfl, rfl⟩ := Prod.mk.inj (Option.some.inj hwritten)
    have hfile := manifestFile_write (liftVfs_eq_ok.mp h) vfsPath
    rw [if_pos rfl] at hfile
    exact ⟨_, hfile, rfl⟩
  | createDirectory | remove | rename | placeFile | capture => cases hwritten

/-- Only a publication adds to what was published. -/
theorem step_commits (h : s.step input = some t) :
    t.commits = s.commits ∨
      ∃ id workspace update attempts current manifest, input = .commitHead id ∧
        s.calls id = some (.running workspace update (.committing attempts current manifest)) ∧
        manifest.validate = .ok () ∧ (s.records workspace).revision = current.revision ∧
        t.commits = s.commits ++ [⟨id, workspace, update, manifest⟩] := by
  have hstart : ∀ (s : Workspaces) id workspace request,
      (s.start id workspace request).commits = s.commits := by
    intro s id workspace request
    rcases start_cases s id workspace request with ⟨error, hstart⟩ | ⟨update, -, hstart⟩
    · rw [hstart]
      rfl
    · rw [hstart]
      rfl
  cases step_workspaceStep h with
  | publishes hcall hvalid hrevision =>
    exact .inr ⟨_, _, _, _, _, _, rfl, hcall, hvalid, hrevision, rfl⟩
  | starts | places | removes => exact .inl (hstart ..)
  | _ => exact .inl rfl

/-- What becomes of the files of workspaces. -/
structure NothingLost (base : VfsWorkspaceId → VfsWorkspaceRecord) (s : Workspaces) : Prop where
  /-- What a move removes is what it placed. -/
  taken : ∀ before commit after, s.commits = before ++ commit :: after → ∀ path file,
    fileAfter base before commit.workspace path = some file →
    manifestFile commit.head path ≠ some file → TakesAlong before commit path file
  /-- The contents of a write that succeeded are at its path, or a later publication took them. -/
  kept : ∀ id workspace update path blobRef,
    s.calls id = some (.running workspace update (.done (.ok ()))) →
    update.written = some (path, blobRef) →
    ∃ before commit after file, s.commits = before ++ commit :: after ∧ commit.call = id ∧
      manifestFile commit.head path = some file ∧ file.blobRef = blobRef ∧
      (manifestFile (s.records workspace).value path = some file ∨
        ∃ middle later rest, after = middle ++ later :: rest ∧ later.workspace = workspace ∧
          manifestFile later.head path ≠ some file ∧
          TakesAlong (before ++ commit :: middle) later path file)

/-- Where every move's source still holds what the move read when it is removed, moves lose nothing. -/
theorem moves_lose_nothing {steps : List (Workspaces × WorkspaceInput)}
    (hrun : (workspaces base).Run steps s) (hkept : ∀ step ∈ steps, SourceKept step.1 step.2) :
    NothingLost base s := by
  have htaken : ∀ before commit after, s.commits = before ++ commit :: after → ∀ path file,
      fileAfter base before commit.workspace path = some file →
      manifestFile commit.head path ≠ some file → TakesAlong before commit path file := by
    refine hrun.invariant (P := fun s => ∀ before commit after,
      s.commits = before ++ commit :: after → ∀ path file,
      fileAfter base before commit.workspace path = some file →
      manifestFile commit.head path ≠ some file → TakesAlong before commit path file)
      ?_ ?_ hkept
    · rintro s rfl before commit after hsplit
      exact absurd (congrArg List.length hsplit) (by simp)
    · intro s input t hreach hs hsource h
      have hheads := reachable_headsInv hreach
      have hmoves := reachable_movesKept hreach
      intro before commit after hsplit path file hfile hgone
      rcases step_commits h with hcommits | ⟨id, workspace, update, attempts, current, manifest, rfl,
        hcall, hvalid, hrevision, hcommits⟩
      · rw [hcommits] at hsplit
        exact hs before commit after hsplit path file hfile hgone
      · rw [hcommits] at hsplit
        rcases snoc_eq_append_cons.mp hsplit with ⟨rest, -, hold⟩ | ⟨-, rfl, rfl⟩
        · exact hs before commit rest hold path file hfile hgone
        · refine publish_takesAlong hheads hmoves hsource hcall hvalid hrevision ?_ hgone
          rw [hheads.head]
          exact hfile
  have hheads := reachable_headsInv ⟨steps, hrun⟩
  refine ⟨htaken, fun id workspace update path blobRef hcall hwritten => ?_⟩
  obtain ⟨commit, hcommit, hid, hworkspace, hupdate⟩ := hheads.succeeded _ _ _ hcall
  obtain ⟨before, after, hsplit⟩ := List.append_of_mem hcommit
  have happly := hheads.applied _ _ _ hsplit
  rw [hupdate] at happly
  obtain ⟨file, hfile, hblob⟩ := apply_written happly hwritten
  refine ⟨before, commit, after, file, hsplit, hid, hfile, hblob, ?_⟩
  have hfront : fileAfter base (before ++ [commit]) workspace path = some file := by
    rw [← hworkspace, fileAfter_concat_self]
    exact hfile
  have hafter := file_stays_or_goes after hfront
  rcases hafter with hstays | ⟨middle, later, rest, rfl, hlater, hthere, hgone⟩
  · refine .inl ?_
    rw [hheads.head, hsplit, List.append_cons]
    exact hstays
  · refine .inr ⟨middle, later, rest, rfl, hlater, hgone, ?_⟩
    rw [← List.append_cons] at hthere
    refine htaken (before ++ commit :: middle) later rest ?_ path file ?_ hgone
    · rw [hsplit, List.append_assoc, List.cons_append]
    · rw [hlater]
      exact hthere

/-! ## A write during a move -/

/-- Two workspaces, attached to be edited. -/
def twoWorkspaces : List ResolvedWorkspaceAttachment :=
  [⟨⟨["left"], by decide⟩, .availableWorkspace "l", true⟩,
    ⟨⟨["right"], by decide⟩, .availableWorkspace "r", true⟩]

def leftFile : FsPath := .ofSegments true ["left", "a"]

def rightFile : FsPath := .ofSegments true ["right", "a"]

/-- A write, and a move of its file to the other workspace. -/
def moveAfterWrite : List WorkspaceInput :=
  [.call 0 "l" (.writeFileWith (fileNamed "a") "blob-1" 1 {}), .readHead (.client 0),
    .commitHead (.client 0),
    .rename 0 twoWorkspaces leftFile rightFile {}, .exportSource 0, .readHead (.place 0),
    .commitHead (.place 0), .advance 0, .readHead (.remove 0), .commitHead (.remove 0)]

/-- While a move's source is still to be removed, its file has been placed. -/
theorem placed_before_removal {id : Nat} {stage : CallStage} (h : (workspaces base).Reaches s)
    (hcall : s.calls (.remove id) = some (.running workspace update stage)) (hwaits : stage.Waits) :
    ∃ move placed, s.moves id = some move ∧ move.Removes workspace update ∧
      ∃ commit ∈ s.commits, commit.call = .place id ∧ move.Places placed commit.workspace commit.update := by
  have hmoves := reachable_movesKept h
  obtain ⟨move, hmove, hremoves, hstage⟩ := hmoves.removing id workspace update stage hcall
  obtain ⟨placed, hplaced⟩ := hstage hwaits
  obtain ⟨other, placing, hdone, hplaces⟩ := hmoves.placed id move placed hmove hplaced
  obtain ⟨commit, hcommit, hid, rfl, rfl⟩ := (reachable_headsInv h).succeeded _ _ _ hdone
  exact ⟨move, placed, hmove, hremoves, commit, hcommit, hid, hplaces⟩

/-- Whether a call has still to read its head. -/
def unread : Option WorkspaceCall → Bool
  | some (.running _ _ (.reading _)) => true
  | _ => false

theorem placed_before_removal_after_write : ∃ s, (workspaces fun _ => ⟨.empty, 0⟩).Reaches s ∧
    ∃ commit ∈ s.commits, commit.call = .place 0 := by
  obtain ⟨s, hs, hreading⟩ : ∃ s ∈ (workspaces fun _ => ⟨.empty, 0⟩).exec { records := fun _ => ⟨.empty, 0⟩ }
      (moveAfterWrite.take 8), unread (s.calls (.remove 0)) = true := by decide +kernel
  have hreach := Machine.exec_reaches (m := workspaces fun _ => ⟨.empty, 0⟩) rfl hs
  unfold unread at hreading
  split at hreading
  next hcall =>
    obtain ⟨_, _, -, -, commit, hcommit, hid, -⟩ := placed_before_removal hreach hcall trivial
    exact ⟨s, hreach, commit, hcommit, hid⟩
  · cases hreading

/-- A second write, between the move's two publications. -/
def writeDuringMove : List WorkspaceInput :=
  [.call 0 "l" (.writeFileWith (fileNamed "a") "blob-1" 1 {}), .readHead (.client 0),
    .commitHead (.client 0),
    .rename 0 twoWorkspaces leftFile rightFile {}, .exportSource 0, .readHead (.place 0),
    .commitHead (.place 0),
    .call 1 "l" (.writeFileWith (fileNamed "a") "blob-2" 1 {}), .readHead (.client 1),
    .commitHead (.client 1),
    .advance 0, .readHead (.remove 0), .commitHead (.remove 0)]

/-- The write's contents are at the move's destination. -/
theorem moves_lose_nothing_after_write : ∃ steps s,
    (workspaces fun _ => ⟨.empty, 0⟩).Run steps s ∧
      s.commits.map (·.call) = [.client 0, .place 0, .remove 0] ∧
      NothingLost (fun _ => ⟨.empty, 0⟩) s := by
  obtain ⟨⟨steps, s⟩, hs, hcalls, hkept⟩ :
      ∃ run ∈ (workspaces fun _ => ⟨.empty, 0⟩).trace { records := fun _ => ⟨.empty, 0⟩ }
      moveAfterWrite, run.2.commits.map (·.call) = [.client 0, .place 0, .remove 0] ∧
        ∀ step ∈ run.1, SourceKept step.1 step.2 := by decide +kernel
  have hrun := (Machine.Run.init (m := workspaces fun _ => ⟨.empty, 0⟩) rfl).trace hs
  rw [List.nil_append] at hrun
  exact ⟨steps, s, hrun, hcalls, moves_lose_nothing hrun hkept⟩

/-- The file's path in its workspace. -/
def innerFile : VfsPath := pathA

/-- The move removes the second write, and its destination has the first. -/
theorem move_loses_write : ¬ ∀ s, (workspaces fun _ => ⟨.empty, 0⟩).Reaches s →
    NothingLost (fun _ => ⟨.empty, 0⟩) s := by
  intro h
  obtain ⟨s, hs, hlength, hcommits⟩ : ∃ s ∈ (workspaces fun _ => ⟨.empty, 0⟩).exec { records := fun _ => ⟨.empty, 0⟩ }
      writeDuringMove, (s.commits.drop 3).length = 1 ∧ ∀ commit ∈ s.commits.drop 3,
        commit.call = .remove 0 ∧ (manifestFile commit.head innerFile).isNone ∧
        (fileAfter (fun _ => ⟨.empty, 0⟩) (s.commits.take 3) commit.workspace innerFile).map (·.blobRef) =
          some "blob-2" ∧
        (match commit.update with | .remove .. => true | _ => false) = true ∧
        ∀ placed ∈ s.commits.take 3, placed.call = .place 0 →
          (match placed.update with | .placeFile _ _ file _ => file.blobRef | _ => "") = "blob-1" := by
    decide +kernel
  have hreach := Machine.exec_reaches (m := workspaces fun _ => ⟨.empty, 0⟩) rfl hs
  obtain ⟨commit, hcommit⟩ := List.length_eq_one_iff.mp hlength
  have hsplit : s.commits = s.commits.take 3 ++ commit :: [] := by
    rw [← hcommit, List.take_append_drop]
  obtain ⟨hcall, hgone, hfile, hremove, hplaced⟩ :=
    hcommits commit (by rw [hcommit]; exact List.mem_cons_self)
  obtain ⟨file, hfile, hblob⟩ := Option.map_eq_some_iff.mp hfile
  have htaken := (h s hreach).taken _ _ _ hsplit innerFile file hfile (by
    rw [Option.isNone_iff_eq_none.mp hgone]
    exact Option.some_ne_none file |>.symm)
  cases hupdate : commit.update with
  | remove path vfsPath options =>
    unfold TakesAlong at htaken
    rw [hupdate] at htaken
    obtain ⟨-, placed, hmem, hid, requestPath, destination, options, hplace, -⟩ := htaken 0 hcall
    have hother := hplaced placed hmem hid
    rw [hplace] at hother
    have hother : file.blobRef = "blob-1" := hother
    rw [hblob] at hother
    exact absurd hother (by decide)
  | _ =>
    rw [hupdate] at hremove
    cases hremove

end Lightspeed.Files
