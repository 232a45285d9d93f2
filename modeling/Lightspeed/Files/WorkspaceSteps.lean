import Lightspeed.Files.Workspace

/-!
# What a step of the workspaces can do

Only a publication changes a record, and it is one call's, over the head which that call read. Every
other step moves one call or one move on.
-/

namespace Lightspeed.Files

open Lib

variable {s t : Workspaces} {input : WorkspaceInput}

/-- Where a call may go on to without a publication: it reads again, it fails, or it has updated the
current head. -/
inductive GoesOn (s : Workspaces) (workspace : VfsWorkspaceId) (update : WorkspaceUpdate) :
    CallStage → Prop
  | reading (attempts : Nat) : GoesOn s workspace update (.reading attempts)
  | failed (error : FsError) : GoesOn s workspace update (.done (.error error))
  | updated (attempts : Nat) {manifest : VfsSnapshotManifest}
      (happly : update.apply (s.records workspace).value = .ok manifest) :
      GoesOn s workspace update (.committing attempts (s.records workspace) manifest)

/-- A call that has not ended. -/
def CallStage.Waits : CallStage → Prop
  | .done _ => False
  | _ => True

/-- The state after a publication. -/
def Workspaces.publish (s : Workspaces) (id : CallId) (workspace : VfsWorkspaceId)
    (update : WorkspaceUpdate) (manifest : VfsSnapshotManifest) : Workspaces :=
  { s.setCall id (.running workspace update (.done (.ok ()))) with
    records := Function.update s.records workspace ((s.records workspace).change manifest)
    commits := s.commits ++ [⟨id, workspace, update, manifest⟩] }

inductive WorkspaceStep (s : Workspaces) : WorkspaceInput → Workspaces → Prop
  | idle {input : WorkspaceInput} : WorkspaceStep s input s
  | starts {input : WorkspaceInput} {id : CallId} {workspace : VfsWorkspaceId}
      (request : WorkspaceRequest) (hnew : s.calls id = none)
      (hid : (∃ client, id = .client client) ∨ ∃ move, id = .place move ∧ s.moves move = none) :
      WorkspaceStep s input (s.start id workspace request)
  | refuses {input : WorkspaceInput} {move : Nat} {error : FsError} (hnew : s.calls (.place move) = none)
      (hmove : s.moves move = none) : WorkspaceStep s input (s.setCall (.place move) (.refused error))
  | prepares {input : WorkspaceInput} {target : WorkspaceCaptureTarget}
      (hcurrent : target.current = s.records target.workspace)
      (hprepare : prepareVfsCapture target.current.value target.path target.vfsPath target.replace =
        .ok target.manifest) :
      WorkspaceStep s input { s with targets := s.targets ++ [target] }
  | captures {input : WorkspaceInput} {id : Nat} {target : WorkspaceCaptureTarget} {entry : VfsEntry}
      {stage : CallStage} (hnew : s.calls (.client id) = none) (htarget : target ∈ s.targets)
      (hstage : (∃ error, stage = .done (.error error)) ∨ ∃ manifest,
        liftVfs (replaceManifestEntry target.manifest target.vfsPath entry) target.path = .ok manifest ∧
          stage = .committing 0 target.current manifest) :
      WorkspaceStep s input (s.setCall (.client id) (.running target.workspace
        (.capture target.path target.vfsPath target.replace entry) stage))
  | goesOn {input : WorkspaceInput} {id : CallId} {workspace : VfsWorkspaceId} {update : WorkspaceUpdate}
      {stage next : CallStage} (hcall : s.calls id = some (.running workspace update stage))
      (hwaits : stage.Waits) (hnext : GoesOn s workspace update next) :
      WorkspaceStep s input (s.setCall id (.running workspace update next))
  | publishes {id : CallId} {workspace : VfsWorkspaceId} {update : WorkspaceUpdate} {attempts : Nat}
      {current : VfsWorkspaceRecord} {manifest : VfsSnapshotManifest}
      (hcall : s.calls id = some (.running workspace update (.committing attempts current manifest)))
      (hvalid : manifest.validate = .ok ())
      (hrevision : (s.records workspace).revision = current.revision) :
      WorkspaceStep s (.commitHead id) (s.publish id workspace update manifest)
  | moves {input : WorkspaceInput} {id : Nat} {move : WorkspaceMove} (hnew : s.calls (.place id) = none)
      (hmove : s.moves id = none) (hstage : move.stage = .exporting) :
      WorkspaceStep s input (s.setMove id move)
  | ends {input : WorkspaceInput} {id : Nat} {move : WorkspaceMove} {result : Except FsError Unit}
      (hmove : s.moves id = some move)
      (hended : ∀ file, move.stage = .removing file → s.result (.remove id) ≠ none) :
      WorkspaceStep s input (s.setMove id { move with stage := .done result })
  | places {input : WorkspaceInput} {id : Nat} {move : WorkspaceMove} {file : VfsFile}
      (hmove : s.moves id = some move) (hstage : move.stage = .exporting)
      (hfile : selectedEntry (s.records move.source.workspace).value move.source.innerPath =
        .ok (.file file)) :
      WorkspaceStep s input
        ((s.setMove id { move with stage := .placing file }).start (.place id)
          move.destination.workspace (.placeFile move.destination.innerPath file move.options))
  | removes {input : WorkspaceInput} {id : Nat} {move : WorkspaceMove} {file : VfsFile}
      (hmove : s.moves id = some move) (hstage : move.stage = .placing file)
      (hplaced : s.result (.place id) = some (.ok ())) :
      WorkspaceStep s input
        ((s.setMove id { move with stage := .removing file }).start (.remove id)
          move.source.workspace (.remove move.source.innerPath .file))

theorem setCall_cases {id other : CallId} {call found : WorkspaceCall}
    (h : (s.setCall id call).calls other = some found) :
    (other = id ∧ found = call) ∨ (other ≠ id ∧ s.calls other = some found) := by
  unfold Workspaces.setCall at h
  dsimp only at h
  by_cases hsame : other = id
  · subst hsame
    rw [Function.update_self] at h
    exact .inl ⟨rfl, (Option.some.inj h).symm⟩
  · rw [Function.update_of_ne hsame] at h
    exact .inr ⟨hsame, h⟩

theorem setMove_cases {id other : Nat} {move found : WorkspaceMove}
    (h : (s.setMove id move).moves other = some found) :
    (other = id ∧ found = move) ∨ (other ≠ id ∧ s.moves other = some found) := by
  unfold Workspaces.setMove at h
  dsimp only at h
  by_cases hsame : other = id
  · subst hsame
    rw [Function.update_self] at h
    exact .inl ⟨rfl, (Option.some.inj h).symm⟩
  · rw [Function.update_of_ne hsame] at h
    exact .inr ⟨hsame, h⟩

/-- A head that is read is the record's. -/
theorem readRecord_eq_ok {workspace : VfsWorkspaceId} {current : VfsWorkspaceRecord}
    (h : s.readRecord workspace = .ok current) : current = s.records workspace := by
  unfold Workspaces.readRecord at h
  obtain ⟨-, -, hcurrent⟩ := bind_eq_ok.mp h
  exact (Except.ok.inj hcurrent).symm

theorem step_workspaceStep (h : s.step input = some t) : WorkspaceStep s input t := by
  cases input with
  | call id workspace request =>
    unfold Workspaces.step at h
    dsimp only at h
    split_ifs at h with hnew
    obtain rfl := Option.some.inj h
    exact .starts request hnew (.inl ⟨id, rfl⟩)
  | prepareCapture workspace path replace =>
    unfold Workspaces.step at h
    dsimp only at h
    split at h
    next error _ =>
      obtain rfl := Option.some.inj h
      exact .idle
    next target htarget =>
      obtain rfl := Option.some.inj h
      obtain ⟨current, hcurrent, htarget⟩ := bind_eq_ok.mp htarget
      obtain ⟨vfsPath, -, htarget⟩ := bind_eq_ok.mp htarget
      obtain ⟨manifest, hprepare, htarget⟩ := bind_eq_ok.mp htarget
      obtain rfl := Except.ok.inj htarget
      exact .prepares (readRecord_eq_ok hcurrent) hprepare
  | commitCapture id target entry =>
    unfold Workspaces.step at h
    dsimp only at h
    split at h
    next target hnew htarget =>
      have hmem := List.mem_of_getElem? htarget
      split at h
      next error _ =>
        obtain rfl := Option.some.inj h
        exact .captures hnew hmem (.inl ⟨error, rfl⟩)
      next manifest hmanifest =>
        obtain rfl := Option.some.inj h
        exact .captures hnew hmem (.inr ⟨manifest, hmanifest, rfl⟩)
    · cases h
  | readHead id =>
    unfold Workspaces.step at h
    dsimp only at h
    split at h
    next workspace update attempts hcall =>
      obtain rfl := Option.some.inj h
      unfold Workspaces.readHead
      split
      next error _ => exact .goesOn hcall trivial (.failed error)
      next current hcurrent =>
        obtain rfl := readRecord_eq_ok hcurrent
        split
        next error _ => exact .goesOn hcall trivial (.failed error)
        next manifest happly => exact .goesOn hcall trivial (.updated _ happly)
    · cases h
  | commitHead id =>
    unfold Workspaces.step at h
    dsimp only at h
    split at h
    next workspace update attempts current manifest hcall =>
      obtain rfl := Option.some.inj h
      unfold Workspaces.commitHead
      split
      next error _ => exact .goesOn hcall trivial (.failed _)
      next hvalid =>
        split_ifs with hrevision hattempts
        · exact .publishes hcall hvalid hrevision
        · exact .goesOn hcall trivial (.failed _)
        · exact .goesOn hcall trivial (.reading attempts)
    · cases h
  | failCall id error =>
    unfold Workspaces.step at h
    dsimp only at h
    split at h
    next hcall =>
      obtain rfl := Option.some.inj h
      exact .goesOn hcall trivial (.failed error)
    next hcall =>
      obtain rfl := Option.some.inj h
      exact .goesOn hcall trivial (.failed error)
    · cases h
  | rename id attachments source destination options =>
    unfold Workspaces.step at h
    dsimp only at h
    split_ifs at h with hused
    obtain ⟨hmove, hnew⟩ := not_or.mp hused
    rw [ne_eq, not_not] at hmove hnew
    split at h
    next error _ =>
      obtain rfl := Option.some.inj h
      exact .refuses hnew hmove
    next start finish _ =>
      split_ifs at h with hsame
      · obtain rfl := Option.some.inj h
        exact .starts _ hnew (.inr ⟨id, rfl, hmove⟩)
      · obtain rfl := Option.some.inj h
        exact .moves hnew hmove rfl
  | exportSource id =>
    unfold Workspaces.step at h
    dsimp only at h
    split at h
    next move hmove =>
      split at h
      next hstage =>
        obtain rfl := Option.some.inj h
        have hnotRemoving : ∀ file, move.stage = .removing file → s.result (.remove id) ≠ none := by
          intro file hremoving
          rw [hstage] at hremoving
          cases hremoving
        unfold Workspaces.exportSource
        dsimp only
        split
        · exact .ends hmove hnotRemoving
        · exact .ends hmove hnotRemoving
        next file hfile =>
          obtain ⟨current, hcurrent, hfile⟩ := bind_eq_ok.mp hfile
          obtain rfl := readRecord_eq_ok hcurrent
          exact .places hmove hstage hfile
      · cases h
    · cases h
  | failExport id error =>
    unfold Workspaces.step at h
    dsimp only at h
    split at h
    next move hmove =>
      split at h
      next hstage =>
        obtain rfl := Option.some.inj h
        refine .ends hmove fun file hremoving => ?_
        rw [hstage] at hremoving
        cases hremoving
      · cases h
    · cases h
  | advance id =>
    unfold Workspaces.step at h
    obtain ⟨move, hmove, h⟩ := Option.bind_eq_some_iff.mp h
    unfold Workspaces.advance at h
    split at h
    next file hstage =>
      obtain ⟨result, hresult, rfl⟩ := Option.map_eq_some_iff.mp h
      cases result with
      | error error =>
        refine .ends hmove fun other hremoving => ?_
        rw [hstage] at hremoving
        cases hremoving
      | ok _ => exact .removes hmove hstage hresult
    next file hstage =>
      obtain ⟨result, hresult, rfl⟩ := Option.map_eq_some_iff.mp h
      refine .ends hmove fun _ _ => ?_
      rw [hresult]
      exact Option.some_ne_none result
    · cases h

end Lightspeed.Files
