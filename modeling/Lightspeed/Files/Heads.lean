import Lightspeed.Files.WorkspaceSteps
import Lightspeed.Lib.Lists

/-!
# The heads of a workspace

Whatever clients do, a workspace's heads are a sequence in which every call that succeeds stands once, as
its update of the head just before it. A call that publishes does so at the revision that it read, and
no other head has that revision.
-/

namespace Lightspeed.Files

open Lib

variable {base : VfsWorkspaceId → VfsWorkspaceRecord} {s t : Workspaces} {input : WorkspaceInput}
  {id : CallId} {call : WorkspaceCall} {workspace : VfsWorkspaceId} {commits : List WorkspaceCommit}
  {commit : WorkspaceCommit}

/-! ## Calls and moves -/

/-- A move's calls are made one after the other. -/
structure MovesInOrder (s : Workspaces) : Prop where
  unmoved : ∀ id, s.moves id = none → s.calls (.remove id) = none
  exporting : ∀ id move, s.moves id = some move → move.stage = .exporting →
    s.calls (.place id) = none ∧ s.calls (.remove id) = none
  placing : ∀ id move file, s.moves id = some move → move.stage = .placing file →
    s.calls (.remove id) = none

/-- A call that no move still waits to make. -/
def CallAllowed (s : Workspaces) : CallId → Prop
  | .client _ => True
  | .place move => ∀ record, s.moves move = some record → record.stage ≠ .exporting
  | .remove move => ∃ record file, s.moves move = some record ∧ record.stage = .removing file

/-- Such a call, and one that goes on, leave what moves still wait to call. -/
theorem MovesInOrder.setCall (hs : MovesInOrder s) (hid : s.calls id ≠ none ∨ CallAllowed s id) :
    MovesInOrder (s.setCall id call) := by
  have hkept : ∀ other, s.calls other = none → ¬ CallAllowed s other →
      (s.setCall id call).calls other = none := by
    intro other hnone hwaits
    unfold Workspaces.setCall
    dsimp only
    rw [Function.update_of_ne, hnone]
    rintro rfl
    exact hid.elim (fun hold => hold hnone) hwaits
  refine ⟨fun move hmove => ?_, fun move record hmove hstage => ?_,
    fun move record file hmove hstage => ?_⟩
  · refine hkept _ (hs.unmoved move hmove) ?_
    rintro ⟨record, file, hrecord, -⟩
    have hmove : s.moves move = none := hmove
    rw [hmove] at hrecord
    cases hrecord
  · have hmove : s.moves move = some record := hmove
    obtain ⟨hplace, hremove⟩ := hs.exporting move record hmove hstage
    refine ⟨hkept _ hplace fun hallowed => hallowed record hmove hstage, hkept _ hremove ?_⟩
    rintro ⟨other, file, hother, hremoving⟩
    rw [hmove] at hother
    obtain rfl := Option.some.inj hother
    rw [hstage] at hremoving
    cases hremoving
  · have hmove : s.moves move = some record := hmove
    refine hkept _ (hs.placing move record file hmove hstage) ?_
    rintro ⟨other, file', hother, hremoving⟩
    rw [hmove] at hother
    obtain rfl := Option.some.inj hother
    rw [hstage] at hremoving
    cases hremoving

/-- A move goes on to a stage that its calls allow. -/
theorem MovesInOrder.setMove {id : Nat} {move : WorkspaceMove} (hs : MovesInOrder s)
    (hexporting : move.stage = .exporting → s.calls (.place id) = none ∧ s.calls (.remove id) = none)
    (hplacing : ∀ file, move.stage = .placing file → s.calls (.remove id) = none) :
    MovesInOrder (s.setMove id move) := by
  refine ⟨fun other hnone => ?_, fun other record hother hstage => ?_,
    fun other record file hother hstage => ?_⟩
  · refine hs.unmoved other ?_
    unfold Workspaces.setMove at hnone
    dsimp only at hnone
    by_cases hsame : other = id
    · subst hsame
      rw [Function.update_self] at hnone
      cases hnone
    · rwa [Function.update_of_ne hsame] at hnone
  · rcases setMove_cases hother with ⟨rfl, rfl⟩ | ⟨-, hold⟩
    · exact hexporting hstage
    · exact hs.exporting other record hold hstage
  · rcases setMove_cases hother with ⟨rfl, rfl⟩ | ⟨-, hold⟩
    · exact hplacing file hstage
    · exact hs.placing other record file hold hstage

/-- A call that is started is refused, or is about to read. -/
theorem start_cases (s : Workspaces) (id : CallId) (workspace : VfsWorkspaceId)
    (request : WorkspaceRequest) :
    (∃ error, s.start id workspace request = s.setCall id (.refused error)) ∨
      ∃ update, request.update = .ok update ∧
        s.start id workspace request =
          s.setCall id (.running workspace update (.reading headUpdateAttempts)) := by
  unfold Workspaces.start
  cases request.update with
  | error error => exact .inl ⟨error, rfl⟩
  | ok update => exact .inr ⟨update, rfl, rfl⟩

theorem MovesInOrder.start {request : WorkspaceRequest} (hs : MovesInOrder s)
    (hid : CallAllowed s id) : MovesInOrder (s.start id workspace request) := by
  rcases start_cases s id workspace request with ⟨error, hstart⟩ | ⟨update, -, hstart⟩
  · rw [hstart]
    exact hs.setCall (.inr hid)
  · rw [hstart]
    exact hs.setCall (.inr hid)

theorem setMove_moves (s : Workspaces) (id : Nat) (move : WorkspaceMove) :
    (s.setMove id move).moves id = some move := Function.update_self ..

theorem movesInOrder_step (hs : MovesInOrder s) (h : s.step input = some t) : MovesInOrder t := by
  cases step_workspaceStep h with
  | idle => exact hs
  | starts request hnew hid =>
    rcases hid with ⟨client, rfl⟩ | ⟨move, rfl, hmove⟩
    · exact hs.start trivial
    · refine hs.start fun record hrecord => ?_
      rw [hmove] at hrecord
      cases hrecord
  | refuses hnew hmove =>
    refine hs.setCall (.inr fun record hrecord => ?_)
    rw [hmove] at hrecord
    cases hrecord
  | prepares => exact ⟨hs.unmoved, hs.exporting, hs.placing⟩
  | captures => exact hs.setCall (.inr trivial)
  | goesOn hcall =>
    refine hs.setCall (.inl ?_)
    rw [hcall]
    exact Option.some_ne_none _
  | @publishes id workspace update _ _ _ hcall =>
    have hkept : MovesInOrder (s.setCall id (.running workspace update (.done (.ok ())))) := by
      refine hs.setCall (.inl ?_)
      rw [hcall]
      exact Option.some_ne_none _
    exact ⟨hkept.unmoved, hkept.exporting, hkept.placing⟩
  | moves hnew hmove hstage =>
    refine hs.setMove (fun _ => ⟨hnew, hs.unmoved _ hmove⟩) fun file hplacing => ?_
    rw [hstage] at hplacing
    cases hplacing
  | ends hmove hended =>
    refine hs.setMove (fun hstage => ?_) fun _ hstage => ?_
    · cases hstage
    · cases hstage
  | places hmove hstage hfile =>
    obtain ⟨-, hremove⟩ := hs.exporting _ _ hmove hstage
    refine (hs.setMove (fun hstage => ?_) fun _ _ => hremove).start ?_
    · cases hstage
    · intro record hrecord hexporting
      rw [setMove_moves] at hrecord
      obtain rfl := Option.some.inj hrecord
      cases hexporting
  | removes hmove hstage hplaced =>
    refine (hs.setMove (fun hstage => ?_) fun _ hstage => ?_).start ?_
    · cases hstage
    · cases hstage
    · exact ⟨_, _, setMove_moves _ _ _, rfl⟩

theorem reachable_movesInOrder (h : (workspaces base).Reaches s) : MovesInOrder s := by
  refine h.invariant ?_ fun s input t _ hs hstep => movesInOrder_step hs hstep
  rintro s rfl
  exact ⟨fun _ _ => rfl, fun _ _ _ _ => ⟨rfl, rfl⟩, fun _ _ _ _ _ => rfl⟩

/-! ## Publications -/

/-- What was published to one workspace, in order. -/
def commitsTo (workspace : VfsWorkspaceId) (commits : List WorkspaceCommit) : List WorkspaceCommit :=
  commits.filter fun commit => commit.workspace == workspace

/-- The heads that were published to one workspace. -/
def headsOf (workspace : VfsWorkspaceId) (commits : List WorkspaceCommit) : List VfsSnapshotManifest :=
  (commitsTo workspace commits).map (·.head)

theorem commitsTo_concat_self (commits : List WorkspaceCommit) (commit : WorkspaceCommit) :
    commitsTo commit.workspace (commits ++ [commit]) = commitsTo commit.workspace commits ++ [commit] := by
  unfold commitsTo
  rw [List.filter_append, List.filter_cons_of_pos (by simp), List.filter_nil]

theorem commitsTo_concat_other (h : commit.workspace ≠ workspace) :
    commitsTo workspace (commits ++ [commit]) = commitsTo workspace commits := by
  unfold commitsTo
  rw [List.filter_append, List.filter_cons_of_neg (by simpa using h), List.filter_nil,
    List.append_nil]

/-- What was seen of a workspace stays seen. -/
theorem seenIn_concat {current : VfsWorkspaceRecord}
    (h : current.SeenIn (base workspace) (headsOf workspace commits)) :
    current.SeenIn (base workspace) (headsOf workspace (commits ++ [commit])) := by
  unfold headsOf at h ⊢
  by_cases hsame : commit.workspace = workspace
  · subst hsame
    rw [commitsTo_concat_self, List.map_append]
    exact h.concat
  · rw [commitsTo_concat_other hsame]
    exact h

/-- What the calls and the captures know of the heads, and the heads of the calls. -/
structure HeadsInv (base : VfsWorkspaceId → VfsWorkspaceRecord) (s : Workspaces) : Prop where
  head : ∀ workspace, s.records workspace = (base workspace).after (headsOf workspace s.commits)
  /-- A call that is about to publish has updated a head that it saw. -/
  committing : ∀ id workspace update attempts current manifest,
    s.calls id = some (.running workspace update (.committing attempts current manifest)) →
      current.SeenIn (base workspace) (headsOf workspace s.commits) ∧
        update.apply current.value = .ok manifest
  /-- A capture is prepared on a head that it saw. -/
  target : ∀ target ∈ s.targets,
    target.current.SeenIn (base target.workspace) (headsOf target.workspace s.commits) ∧
      prepareVfsCapture target.current.value target.path target.vfsPath target.replace =
        .ok target.manifest
  committed : ∀ commit ∈ s.commits,
    s.calls commit.call = some (.running commit.workspace commit.update (.done (.ok ())))
  succeeded : ∀ id workspace update,
    s.calls id = some (.running workspace update (.done (.ok ()))) →
      ∃ commit ∈ s.commits, commit.call = id ∧ commit.workspace = workspace ∧ commit.update = update
  once : (s.commits.map (·.call)).Nodup
  applied : ∀ before commit after, s.commits = before ++ commit :: after →
    commit.update.apply ((base commit.workspace).after (headsOf commit.workspace before)).value =
      .ok commit.head

/-- A call that has not succeeded goes on, without success. -/
theorem HeadsInv.setCall (hs : HeadsInv base s)
    (hold : ∀ workspace update, s.calls id ≠ some (.running workspace update (.done (.ok ()))))
    (hnew : ∀ workspace update, call ≠ .running workspace update (.done (.ok ())))
    (hcommitting : ∀ workspace update attempts current manifest,
      call = .running workspace update (.committing attempts current manifest) →
        current.SeenIn (base workspace) (headsOf workspace s.commits) ∧
          update.apply current.value = .ok manifest) : HeadsInv base (s.setCall id call) := by
  refine ⟨hs.head, fun other workspace update attempts current manifest hother => ?_, hs.target,
    fun commit hcommit => ?_, fun other workspace update hother => ?_, hs.once, hs.applied⟩
  · rcases setCall_cases hother with ⟨-, hfound⟩ | ⟨-, hfound⟩
    · exact hcommitting _ _ _ _ _ hfound.symm
    · exact hs.committing _ _ _ _ _ _ hfound
  · have hdone := hs.committed commit hcommit
    unfold Workspaces.setCall
    dsimp only
    rw [Function.update_of_ne, hdone]
    intro hsame
    rw [hsame] at hdone
    exact hold _ _ hdone
  · rcases setCall_cases hother with ⟨-, hfound⟩ | ⟨-, hfound⟩
    · exact absurd hfound.symm (hnew _ _)
    · exact hs.succeeded _ _ _ hfound

/-- A move's stage is nothing to the heads. -/
theorem HeadsInv.setMove (hs : HeadsInv base s) (id : Nat) (move : WorkspaceMove) :
    HeadsInv base (s.setMove id move) :=
  ⟨hs.head, hs.committing, hs.target, hs.committed, hs.succeeded, hs.once, hs.applied⟩

theorem HeadsInv.start {request : WorkspaceRequest} (hs : HeadsInv base s)
    (hnew : s.calls id = none) : HeadsInv base (s.start id workspace request) := by
  have hold : ∀ workspace update, s.calls id ≠ some (.running workspace update (.done (.ok ()))) := by
    intro workspace update hcall
    rw [hnew] at hcall
    cases hcall
  rcases start_cases s id workspace request with ⟨error, hstart⟩ | ⟨update, -, hstart⟩
  · rw [hstart]
    exact hs.setCall hold (fun _ _ h => (nomatch h)) fun _ _ _ _ _ h => (nomatch h)
  · rw [hstart]
    exact hs.setCall hold (fun _ _ h => (nomatch h)) fun _ _ _ _ _ h => (nomatch h)

/-- A waiting call may go on. -/
theorem HeadsInv.goesOn {update : WorkspaceUpdate} {stage next : CallStage} (hs : HeadsInv base s)
    (hcall : s.calls id = some (.running workspace update stage)) (hwaits : stage.Waits)
    (hnext : GoesOn s workspace update next) :
    HeadsInv base (s.setCall id (.running workspace update next)) := by
  refine hs.setCall (fun other update' hdone => ?_) (fun other update' hdone => ?_)
    fun other update' attempts current manifest hcommitting => ?_
  · rw [hcall] at hdone
    cases hdone
    exact hwaits
  · cases hdone
    cases hnext
  · cases hcommitting
    cases hnext with
    | updated _ happly =>
      refine ⟨?_, happly⟩
      rw [hs.head]
      exact Versioned.seenIn_after

theorem HeadsInv.publish {update : WorkspaceUpdate} {attempts : Nat} {current : VfsWorkspaceRecord}
    {manifest : VfsSnapshotManifest} (hs : HeadsInv base s)
    (hcall : s.calls id = some (.running workspace update (.committing attempts current manifest)))
    (hrevision : (s.records workspace).revision = current.revision) :
    HeadsInv base (s.publish id workspace update manifest) := by
  obtain ⟨hseen, happly⟩ := hs.committing _ _ _ _ _ _ hcall
  have hcurrent : current = s.records workspace := by
    rw [hs.head]
    refine hseen.eq_after ?_
    rw [← hs.head]
    exact hrevision.symm
  set commit : WorkspaceCommit := ⟨id, workspace, update, manifest⟩ with hcommit
  have hfresh : id ∉ s.commits.map (·.call) := by
    intro hmem
    obtain ⟨old, hold, hsame⟩ := List.mem_map.mp hmem
    have hdone := hs.committed old hold
    have hsame : old.call = id := hsame
    rw [hsame, hcall] at hdone
    cases hdone
  refine ⟨fun other => ?_, fun other workspace' update' attempts' current' manifest' hother => ?_,
    fun target htarget => ?_, fun old hold => ?_, fun other workspace' update' hother => ?_, ?_,
    fun before old after hsplit => ?_⟩
  · unfold Workspaces.publish headsOf
    dsimp only
    by_cases hsame : workspace = other
    · subst hsame
      rw [Function.update_self, commitsTo_concat_self s.commits commit, List.map_append, hs.head]
      exact Versioned.after_concat.symm
    · rw [Function.update_of_ne (Ne.symm hsame), commitsTo_concat_other hsame]
      exact hs.head other
  · rcases setCall_cases hother with ⟨-, hfound⟩ | ⟨-, hfound⟩
    · cases hfound
    · obtain ⟨hseen', happly'⟩ := hs.committing _ _ _ _ _ _ hfound
      exact ⟨seenIn_concat hseen', happly'⟩
  · obtain ⟨hseen', hprepare⟩ := hs.target target htarget
    exact ⟨seenIn_concat hseen', hprepare⟩
  · unfold Workspaces.publish Workspaces.setCall
    dsimp only
    rcases List.mem_append.mp hold with hold | hnew
    · rw [Function.update_of_ne, hs.committed old hold]
      intro hsame
      exact hfresh (List.mem_map.mpr ⟨old, hold, hsame⟩)
    · obtain rfl := List.mem_singleton.mp hnew
      exact Function.update_self ..
  · rcases setCall_cases hother with ⟨rfl, hfound⟩ | ⟨-, hfound⟩
    · cases hfound
      exact ⟨commit, List.mem_append_right _ List.mem_cons_self, rfl, rfl, rfl⟩
    · obtain ⟨old, hold, hcommitted⟩ := hs.succeeded _ _ _ hfound
      exact ⟨old, List.mem_append_left _ hold, hcommitted⟩
  · unfold Workspaces.publish
    dsimp only
    rw [List.map_append]
    refine List.nodup_append.mpr ⟨hs.once, List.nodup_singleton _, ?_⟩
    rintro other hother _ hnew rfl
    obtain rfl := List.mem_singleton.mp hnew
    exact hfresh hother
  · rcases snoc_eq_append_cons.mp hsplit with ⟨rest, -, hcommits⟩ | ⟨-, rfl, rfl⟩
    · exact hs.applied before old rest hcommits
    · rw [hcurrent, hs.head] at happly
      exact happly

/-- A capture's manifest is its update of the head that the capture was prepared on. -/
theorem capture_apply {target : WorkspaceCaptureTarget} {entry : VfsEntry}
    {manifest : VfsSnapshotManifest}
    (hprepare : prepareVfsCapture target.current.value target.path target.vfsPath target.replace =
      .ok target.manifest)
    (hreplace : liftVfs (replaceManifestEntry target.manifest target.vfsPath entry) target.path =
      .ok manifest) :
    (WorkspaceUpdate.capture target.path target.vfsPath target.replace entry).apply
      target.current.value = .ok manifest := by
  unfold WorkspaceUpdate.apply
  dsimp only
  rw [hprepare]
  exact hreplace

theorem headsInv_step (hmoves : MovesInOrder s) (hs : HeadsInv base s) (h : s.step input = some t) :
    HeadsInv base t := by
  cases step_workspaceStep h with
  | idle => exact hs
  | starts request hnew hid => exact hs.start hnew
  | refuses hnew hmove =>
    refine hs.setCall (fun _ _ hdone => ?_) (fun _ _ h => (nomatch h)) fun _ _ _ _ _ h => (nomatch h)
    rw [hnew] at hdone
    cases hdone
  | @prepares _ target hcurrent hprepare =>
    refine ⟨hs.head, hs.committing, fun other hother => ?_, hs.committed, hs.succeeded, hs.once,
      hs.applied⟩
    rcases List.mem_append.mp hother with hold | hnew
    · exact hs.target other hold
    · obtain rfl := List.mem_singleton.mp hnew
      refine ⟨?_, hprepare⟩
      rw [hcurrent, hs.head]
      exact Versioned.seenIn_after
  | @captures _ client target entry stage hnew htarget hstage =>
    obtain ⟨hseen, hprepare⟩ := hs.target target htarget
    refine hs.setCall (fun _ _ hdone => ?_) (fun _ _ hdone => ?_) fun _ _ _ _ _ hcommitting => ?_
    · rw [hnew] at hdone
      cases hdone
    · cases hdone
      rcases hstage with ⟨error, hstage⟩ | ⟨manifest, -, hstage⟩
      · cases hstage
      · cases hstage
    · cases hcommitting
      rcases hstage with ⟨error, hstage⟩ | ⟨manifest, hreplace, hstage⟩
      · cases hstage
      · cases hstage
        exact ⟨hseen, capture_apply hprepare hreplace⟩
  | goesOn hcall hwaits hnext => exact hs.goesOn hcall hwaits hnext
  | publishes hcall hvalid hrevision => exact hs.publish hcall hrevision
  | moves | ends => exact hs.setMove _ _
  | places hmove hstage => exact (hs.setMove _ _).start (hmoves.exporting _ _ hmove hstage).1
  | removes hmove hstage => exact (hs.setMove _ _).start (hmoves.placing _ _ _ hmove hstage)

theorem reachable_headsInv (h : (workspaces base).Reaches s) : HeadsInv base s := by
  refine h.invariant ?_ fun s input t hreach hs hstep =>
    headsInv_step (reachable_movesInOrder hreach) hs hstep
  rintro s rfl
  exact ⟨fun _ => rfl, fun _ _ _ _ _ _ h => (nomatch h), fun _ h => (nomatch h),
    fun _ h => (nomatch h), fun _ _ _ h => (nomatch h), List.nodup_nil,
    fun before _ _ h => absurd (congrArg List.length h) (by simp)⟩

/-! ## One workspace -/

/-- A part of what was published to one workspace is what was published to it of some part. -/
theorem commitsTo_split {before after : List WorkspaceCommit}
    (h : commitsTo workspace commits = before ++ commit :: after) :
    commit.workspace = workspace ∧
      ∃ front back, commits = front ++ commit :: back ∧ commitsTo workspace front = before := by
  unfold commitsTo at h
  obtain ⟨front, rest, rfl, hfront, hrest⟩ := List.filter_eq_append_iff.mp h
  obtain ⟨skipped, back, rfl, hskipped, hcommit, -⟩ := List.filter_eq_cons_iff.mp hrest
  refine ⟨by simpa using hcommit, front ++ skipped, back, by rw [List.append_assoc], ?_⟩
  unfold commitsTo
  rw [List.filter_append, hfront, List.filter_eq_nil_iff.mpr hskipped, List.append_nil]

/-- The heads of a workspace are those of its calls that succeeded, one after the other. -/
structure Linearized (base : VfsWorkspaceId → VfsWorkspaceRecord) (s : Workspaces)
    (workspace : VfsWorkspaceId) : Prop where
  head : s.records workspace = (base workspace).after (headsOf workspace s.commits)
  /-- Each head is its call's update of the head just before. -/
  applied : ∀ before commit after, commitsTo workspace s.commits = before ++ commit :: after →
    commit.update.apply ((base workspace).after (before.map (·.head))).value = .ok commit.head
  once : ((commitsTo workspace s.commits).map (·.call)).Nodup
  succeeded : ∀ id update, s.calls id = some (.running workspace update (.done (.ok ()))) ↔
    ∃ commit ∈ commitsTo workspace s.commits, commit.call = id ∧ commit.update = update
  failed : ∀ id update error, s.calls id = some (.running workspace update (.done (.error error))) →
    id ∉ (commitsTo workspace s.commits).map (·.call)
  /-- A conditional write finds the version that it asks for. -/
  matched : ∀ before commit after, commitsTo workspace s.commits = before ++ commit :: after →
    ∀ path vfsPath blobRef sizeBytes options version,
      commit.update = .writeFileWith path vfsPath blobRef sizeBytes options →
      options.ifMatch = some version →
      (manifestFile ((base workspace).after (before.map (·.head))).value vfsPath).map (·.blobRef) =
        some version

/-- Commits to a workspace are linearizable. -/
theorem workspace_commits_linearized (h : (workspaces base).Reaches s) (workspace : VfsWorkspaceId) :
    Linearized base s workspace := by
  have hs := reachable_headsInv h
  have happlied : ∀ before commit after,
      commitsTo workspace s.commits = before ++ commit :: after →
      commit.update.apply ((base workspace).after (before.map (·.head))).value = .ok commit.head := by
    intro before commit after hsplit
    obtain ⟨rfl, front, back, hcommits, rfl⟩ := commitsTo_split hsplit
    exact hs.applied front commit back hcommits
  refine ⟨hs.head workspace, happlied, hs.once.sublist (List.filter_sublist.map _),
    fun id update => ⟨fun hdone => ?_, ?_⟩, fun id update error hfailed hmem => ?_,
    fun before commit after hsplit path vfsPath blobRef sizeBytes options version hupdate hmatch => ?_⟩
  · obtain ⟨commit, hcommit, hid, hworkspace, hupdate⟩ := hs.succeeded _ _ _ hdone
    exact ⟨commit, List.mem_filter.mpr ⟨hcommit, by simpa using hworkspace⟩, hid, hupdate⟩
  · rintro ⟨commit, hcommit, rfl, rfl⟩
    obtain ⟨hmem, hworkspace⟩ := List.mem_filter.mp hcommit
    rw [hs.committed commit hmem, eq_of_beq hworkspace]
  · obtain ⟨commit, hcommit, rfl⟩ := List.mem_map.mp hmem
    have hdone := hs.committed commit (List.mem_filter.mp hcommit).1
    rw [hfailed] at hdone
    cases hdone
  · have happly := happlied before commit after hsplit
    rw [hupdate] at happly
    unfold WorkspaceUpdate.apply at happly
    obtain ⟨_, hversion, -⟩ := bind_eq_ok.mp happly
    exact require_eq_ok.mp hversion version hmatch

/-- A file of a workspace. -/
def fileNamed (name : String) : FsPath := .ofSegments true [name]

/-- Two writes that read the same head, of which the second starts over; a capture that a write
overtakes; and a write with a version that is gone. -/
def busyWorkspace : List WorkspaceInput :=
  [.call 0 "w" (.writeFileWith (fileNamed "a") "blob-a" 1 {}),
    .call 1 "w" (.writeFileWith (fileNamed "b") "blob-b" 1 {}),
    .readHead (.client 0), .readHead (.client 1), .commitHead (.client 0),
    .prepareCapture "w" (fileNamed "c") false,
    .commitHead (.client 1), .readHead (.client 1), .commitHead (.client 1),
    .commitCapture 2 0 (.file { blobRef := "blob-c", sizeBytes := 1 }), .commitHead (.client 2),
    .call 3 "w" (.writeFileWith (fileNamed "a") "blob-d" 1 { ifMatch := some "blob-b" }),
    .readHead (.client 3)]

/-- The two writes succeed, and the other calls do not. -/
theorem workspace_commits_linearized_busy : ∃ s,
    (workspaces fun _ => ⟨.empty, 0⟩).Reaches s ∧
      s.commits.map (·.call) = [.client 0, .client 1] ∧ Linearized (fun _ => ⟨.empty, 0⟩) s "w" := by
  obtain ⟨s, hs, hcalls⟩ : ∃ s ∈ (workspaces fun _ => ⟨.empty, 0⟩).exec { records := fun _ => ⟨.empty, 0⟩ }
      busyWorkspace, s.commits.map (·.call) = [.client 0, .client 1] := by decide +kernel
  have hreach := Machine.exec_reaches (m := workspaces fun _ => ⟨.empty, 0⟩) rfl hs
  exact ⟨s, hreach, hcalls, workspace_commits_linearized hreach "w"⟩

end Lightspeed.Files
