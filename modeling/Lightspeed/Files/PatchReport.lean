import Lightspeed.Files.PatchCommit
import Mathlib.Data.List.Count

/-!
# Reports of patches

The summary names what landed: each path that was written or moved to, while its file is there, and each path that a
removal took. It names a path once as long as no step puts a file where the summary names one already; a move takes
its source's entry along.
-/

namespace Lightspeed.Files

open Lib

section Summaries

variable {Path : Type} [DecidableEq Path] {source destination path : Path} {list : List Path}
  {changes : List (PathChange Path)} {done : List (PatchStep Path)}

/-! ## Renamed entries -/

theorem count_renameFirst_of_ne (hsource : path ≠ source) (hdestination : path ≠ destination) :
    (renameFirst source destination list).count path = list.count path := by
  induction list with
  | nil => rfl
  | cons entry rest ih =>
    rw [renameFirst]
    split_ifs with hentry
    · rw [List.count_cons_of_ne hdestination.symm, List.count_cons_of_ne (hentry ▸ hsource.symm)]
    · rw [List.count_cons, List.count_cons, ih]

theorem count_renameFirst_source (hne : source ≠ destination) :
    (renameFirst source destination list).count source = list.count source - 1 := by
  induction list with
  | nil => rfl
  | cons entry rest ih =>
    rw [renameFirst]
    split_ifs with hentry
    · rw [hentry, List.count_cons_of_ne hne.symm, List.count_cons_self]
      omega
    · rw [List.count_cons_of_ne hentry, List.count_cons_of_ne hentry, ih]

theorem count_renameFirst_destination (hne : source ≠ destination) :
    (renameFirst source destination list).count destination = list.count destination + min 1 (list.count source) := by
  induction list with
  | nil => rfl
  | cons entry rest ih =>
    rw [renameFirst]
    split_ifs with hentry
    · rw [hentry, List.count_cons_self, List.count_cons_self, List.count_cons_of_ne hne]
      omega
    · rw [List.count_cons, List.count_cons, List.count_cons_of_ne hentry, ih]
      omega

theorem mem_renameFirst (h : path ∈ renameFirst source destination list) : path = destination ∨ path ∈ list := by
  induction list with
  | nil => cases h
  | cons entry rest ih =>
    rw [renameFirst] at h
    split_ifs at h with hentry
    · rcases List.mem_cons.mp h with rfl | h
      · exact Or.inl rfl
      · exact Or.inr (List.mem_cons_of_mem _ h)
    · rcases List.mem_cons.mp h with rfl | h
      · exact Or.inr List.mem_cons_self
      · exact (ih h).imp_right (List.mem_cons_of_mem _)

theorem renameFirst_mem_of_ne (hne : path ≠ source) (h : path ∈ list) : path ∈ renameFirst source destination list := by
  induction list with
  | nil => cases h
  | cons entry rest ih =>
    rw [renameFirst]
    rcases List.mem_cons.mp h with rfl | h
    · rw [if_neg hne]
      exact List.mem_cons_self
    · split_ifs with hentry
      · exact List.mem_cons_of_mem _ h
      · exact List.mem_cons_of_mem _ (ih h)

theorem destination_mem_renameFirst (h : source ∈ list) : destination ∈ renameFirst source destination list := by
  induction list with
  | nil => cases h
  | cons entry rest ih =>
    rw [renameFirst]
    split_ifs with hentry
    · exact List.mem_cons_self
    · rcases List.mem_cons.mp h with rfl | h
      · exact absurd rfl hentry
      · exact List.mem_cons_of_mem _ (ih h)

/-! ## What a summary names -/

namespace ApplyPatchSummary

variable {summary : ApplyPatchSummary Path} {planned : PlannedWrite Path}

/-- The paths that are told as written. -/
def landed (summary : ApplyPatchSummary Path) : List Path := summary.added ++ summary.modified

omit [DecidableEq Path] in
theorem mem_landed : path ∈ summary.landed ↔ path ∈ summary.added ∨ path ∈ summary.modified := List.mem_append

theorem count_landed_write : (summary.record (.write planned)).landed.count path =
    summary.landed.count path + if planned.path = path then 1 else 0 := by
  unfold record landed
  dsimp only
  split_ifs with hadded hpath hpath
  all_goals simp [hpath]
  all_goals omega

theorem mem_landed_write : path ∈ (summary.record (.write planned)).landed ↔
    path = planned.path ∨ path ∈ summary.landed := by
  rw [← List.count_pos_iff, ← List.count_pos_iff, count_landed_write]
  split_ifs with hpath
  · simp [hpath]
  · simp [Ne.symm hpath]

theorem deleted_record_write : (summary.record (.write planned)).deleted = summary.deleted := by
  unfold record
  dsimp only
  split_ifs <;> rfl

end ApplyPatchSummary

open ApplyPatchSummary

theorem summaryOf_concat (done : List (PatchStep Path)) (step : PatchStep Path) :
    summaryOf (done ++ [step]) = (summaryOf done).record step := by
  unfold summaryOf
  rw [List.foldl_append, List.foldl_cons, List.foldl_nil]

/-- What is live is told. -/
theorem landed_of_live (hmoves : MovesLive (changesOf done)) (h : path ∈ livePaths (changesOf done)) :
    path ∈ (summaryOf done).landed := by
  induction done using List.reverseRecOn generalizing path with
  | nil => cases h
  | append_singleton done step ih =>
    rw [changesOf_concat] at hmoves h
    rw [livePaths_concat] at h
    rw [summaryOf_concat]
    have hearlier : ∀ path, path ∈ livePaths (changesOf done) → path ∈ (summaryOf done).landed := fun path =>
      ih (movesLive_left hmoves)
    cases step with
    | write planned =>
      rw [mem_landed_write]
      exact (List.mem_cons.mp h).imp_right (hearlier path)
    | move source destination =>
      rw [mem_landed]
      rcases List.mem_cons.mp h with rfl | h
      · have hsource : source ∈ livePaths (changesOf done) := hmoves (changesOf done) source _ [] rfl
        exact (mem_landed.mp (hearlier source hsource)).imp destination_mem_renameFirst destination_mem_renameFirst
      · obtain ⟨hlive, hne⟩ := List.mem_filter.mp h
        have hne : path ≠ source := by simpa using hne
        exact (mem_landed.mp (hearlier path hlive)).imp (renameFirst_mem_of_ne hne) (renameFirst_mem_of_ne hne)
    | delete removed => exact hearlier path (List.mem_filter.mp h).1

/-- The path that a removal took. -/
def PatchStep.deletes : PatchStep Path → Option Path
  | .delete path => some path
  | _ => none

/-- What the removals took is told, in their order. -/
theorem deleted_summaryOf (done : List (PatchStep Path)) :
    (summaryOf done).deleted = done.filterMap PatchStep.deletes := by
  induction done using List.reverseRecOn with
  | nil => rfl
  | append_singleton done step ih =>
    rw [summaryOf_concat, List.filterMap_append, ← ih]
    cases step with
    | write planned =>
      rw [deleted_record_write]
      exact (List.append_nil _).symm
    | move source destination => exact (List.append_nil _).symm
    | delete removed => rfl

/-! ## Paths that are named once -/

/-- The paths that the summary names, when none of them has two entries. -/
def followNames (named : List Path) : PathChange Path → List Path
  | .written path | .removed path => path :: named
  | .moved source destination => destination :: named.filter (· ≠ source)

def namedPaths (changes : List (PathChange Path)) : List Path := changes.foldl followNames []

theorem namedPaths_concat (changes : List (PathChange Path)) (change : PathChange Path) :
    namedPaths (changes ++ [change]) = followNames (namedPaths changes) change := by
  unfold namedPaths
  rw [List.foldl_append, List.foldl_cons, List.foldl_nil]

/-- No change puts a file where an earlier one is named: at a path that was written, moved to or removed, and not
moved away since. -/
def Fresh (changes : List (PathChange Path)) : Prop :=
  ∀ before change after path, changes = before ++ change :: after → change.puts = some path → path ∉ namedPaths before

theorem fresh_left {more : List (PathChange Path)} (h : Fresh (changes ++ more)) : Fresh changes := by
  intro before change after path heq
  apply h before change (after ++ more) path
  rw [heq, List.append_assoc, List.cons_append]

/-- Every entry of a summary is a name, and what is live has one entry. -/
structure NamedOnce (summary : ApplyPatchSummary Path) (named live : List Path) : Prop where
  landed : ∀ path ∈ summary.landed, path ∈ named
  deleted : ∀ path ∈ summary.deleted, path ∈ named
  once : ∀ path ∈ live, summary.landed.count path = 1
  kept : ∀ path ∈ live, path ∉ summary.deleted

namespace NamedOnce

variable {summary : ApplyPatchSummary Path} {named live : List Path}

theorem live_named (h : NamedOnce summary named live) (hlive : path ∈ live) : path ∈ named := by
  have hcount := h.once path hlive
  exact h.landed path (List.count_pos_iff.mp (by omega))

theorem write (h : NamedOnce summary named live) {planned : PlannedWrite Path} (hfresh : planned.path ∉ named) :
    NamedOnce (summary.record (.write planned)) (planned.path :: named) (planned.path :: live) := by
  have hnone : summary.landed.count planned.path = 0 :=
    List.count_eq_zero.mpr fun hmem => hfresh (h.landed _ hmem)
  constructor
  · intro path hpath
    exact List.mem_cons.mpr ((mem_landed_write.mp hpath).imp_right (h.landed path))
  · intro path hpath
    rw [deleted_record_write] at hpath
    exact List.mem_cons_of_mem _ (h.deleted path hpath)
  · intro path hpath
    rw [count_landed_write]
    rcases List.mem_cons.mp hpath with rfl | hpath
    · rw [hnone, if_pos rfl]
    · have hne : planned.path ≠ path := fun heq => hfresh (heq ▸ h.live_named hpath)
      rw [h.once path hpath, if_neg hne]
  · intro path hpath
    rw [deleted_record_write]
    rcases List.mem_cons.mp hpath with rfl | hpath
    · exact fun hmem => hfresh (h.deleted _ hmem)
    · exact h.kept path hpath

theorem move (h : NamedOnce summary named live) (hsource : source ∈ live) (hfresh : destination ∉ named) :
    NamedOnce (summary.record (.move source destination)) (destination :: named.filter (· ≠ source))
      (destination :: live.filter (· ≠ source)) := by
  have hne : source ≠ destination := fun heq => hfresh (heq ▸ h.live_named hsource)
  have honce : summary.added.count source + summary.modified.count source = 1 := by
    rw [← List.count_append]
    exact h.once source hsource
  have hnone : summary.added.count destination + summary.modified.count destination = 0 := by
    rw [← List.count_append]
    exact List.count_eq_zero.mpr fun hmem => hfresh (h.landed _ hmem)
  have hcount : ∀ path, (summary.record (.move source destination)).landed.count path =
      (renameFirst source destination summary.added).count path +
        (renameFirst source destination summary.modified).count path := fun path => List.count_append
  constructor
  · intro path hpath
    by_cases hdestination : path = destination
    · rw [hdestination]
      exact List.mem_cons_self
    · have hleft : path ≠ source := by
        rintro rfl
        have hpos := List.count_pos_iff.mpr hpath
        rw [hcount, count_renameFirst_source hne, count_renameFirst_source hne] at hpos
        omega
      have hbefore : path ∈ summary.landed := mem_landed.mpr ((mem_landed.mp hpath).imp
        (fun hmem => (mem_renameFirst hmem).resolve_left hdestination)
        (fun hmem => (mem_renameFirst hmem).resolve_left hdestination))
      exact List.mem_cons_of_mem _ (List.mem_filter.mpr ⟨h.landed path hbefore, by simpa using hleft⟩)
  · intro path hpath
    have hleft : path ≠ source := by
      rintro rfl
      exact h.kept path hsource hpath
    exact List.mem_cons_of_mem _ (List.mem_filter.mpr ⟨h.deleted path hpath, by simpa using hleft⟩)
  · intro path hpath
    rw [hcount]
    rcases List.mem_cons.mp hpath with rfl | hpath
    · rw [count_renameFirst_destination hne, count_renameFirst_destination hne]
      omega
    · obtain ⟨hlive, hleft⟩ := List.mem_filter.mp hpath
      have hleft : path ≠ source := by simpa using hleft
      have hother : path ≠ destination := fun heq => hfresh (heq ▸ h.live_named hlive)
      rw [count_renameFirst_of_ne hleft hother, count_renameFirst_of_ne hleft hother, ← List.count_append]
      exact h.once path hlive
  · intro path hpath
    rcases List.mem_cons.mp hpath with rfl | hpath
    · exact fun hmem => hfresh (h.deleted _ hmem)
    · exact h.kept path (List.mem_filter.mp hpath).1

theorem delete (h : NamedOnce summary named live) :
    NamedOnce (summary.record (.delete path)) (path :: named) (live.filter (· ≠ path)) := by
  constructor
  · exact fun other hother => List.mem_cons_of_mem _ (h.landed other hother)
  · intro other hother
    rcases List.mem_append.mp hother with hother | hother
    · exact List.mem_cons_of_mem _ (h.deleted other hother)
    · rw [List.mem_singleton.mp hother]
      exact List.mem_cons_self
  · exact fun other hother => h.once other (List.mem_filter.mp hother).1
  · intro other hother hmem
    obtain ⟨hlive, hne⟩ := List.mem_filter.mp hother
    rcases List.mem_append.mp hmem with hmem | hmem
    · exact h.kept other hlive hmem
    · simp [List.mem_singleton.mp hmem] at hne

end NamedOnce

theorem namedOnce (hmoves : MovesLive (changesOf done)) (hfresh : Fresh (changesOf done)) :
    NamedOnce (summaryOf done) (namedPaths (changesOf done)) (livePaths (changesOf done)) := by
  induction done using List.reverseRecOn with
  | nil =>
    exact ⟨fun _ h => (nomatch h), fun _ h => (nomatch h), fun _ h => (nomatch h), fun _ h => (nomatch h)⟩
  | append_singleton done step ih =>
    rw [changesOf_concat] at hmoves hfresh ⊢
    rw [summaryOf_concat, namedPaths_concat, livePaths_concat]
    have hdone := ih (movesLive_left hmoves) (fresh_left hfresh)
    cases step with
    | write planned => exact hdone.write (hfresh (changesOf done) _ [] planned.path rfl rfl)
    | move source destination =>
      have hsource : source ∈ livePaths (changesOf done) := hmoves (changesOf done) source destination [] rfl
      exact hdone.move hsource (hfresh (changesOf done) _ [] destination rfl rfl)
    | delete removed => exact hdone.delete

/-! ## Something landed -/

omit [DecidableEq Path] in
theorem isEmpty_of_mem {summary : ApplyPatchSummary Path} (h : path ∈ summary.landed ∨ path ∈ summary.deleted) :
    summary.isEmpty = false := by
  unfold ApplyPatchSummary.isEmpty
  rw [mem_landed] at h
  rcases h with (h | h) | h <;> simp [List.ne_nil_of_mem h]

/-- The first step of a plan is no move, so that the summary says something once a step has run. -/
theorem isEmpty_summaryOf (hmoves : MovesLive (changesOf done)) : (summaryOf done).isEmpty = done.isEmpty := by
  rcases List.eq_nil_or_concat done with rfl | ⟨earlier, step, rfl⟩
  · rfl
  · rw [List.concat_eq_append] at hmoves ⊢
    have hsome : (earlier ++ [step]).isEmpty = false := by simp
    rw [hsome]
    cases step with
    | write planned =>
      have hlive : planned.path ∈ livePaths (changesOf (earlier ++ [.write planned])) := by
        rw [changesOf_concat, livePaths_concat]
        exact List.mem_cons_self
      exact isEmpty_of_mem (Or.inl (landed_of_live hmoves hlive))
    | move source destination =>
      have hlive : destination ∈ livePaths (changesOf (earlier ++ [.move source destination])) := by
        rw [changesOf_concat, livePaths_concat]
        exact List.mem_cons_self
      exact isEmpty_of_mem (Or.inl (landed_of_live hmoves hlive))
    | delete removed =>
      have hdeleted : removed ∈ (summaryOf (earlier ++ [.delete removed])).deleted := by
        rw [deleted_summaryOf]
        simp [PatchStep.deletes]
      exact isEmpty_of_mem (Or.inr hdeleted)

/-! ## Reports -/

/-- What a summary says of the steps that were made: each path that was written or moved to, and neither removed nor
moved away since, is told as written, once and not as deleted unless a step put a file where one was named; what the
removals took is told as deleted, in their order. -/
structure Reports (done : List (PatchStep Path)) (summary : ApplyPatchSummary Path) : Prop where
  landed : ∀ path ∈ livePaths (changesOf done), path ∈ summary.landed
  once : Fresh (changesOf done) → ∀ path ∈ livePaths (changesOf done),
    summary.landed.count path = 1 ∧ path ∉ summary.deleted
  deleted : summary.deleted = done.filterMap PatchStep.deletes

theorem reports (hmoves : MovesLive (changesOf done)) : Reports done (summaryOf done) := by
  refine ⟨fun path => landed_of_live hmoves, fun hfresh path hlive => ?_, deleted_summaryOf done⟩
  have honce := namedOnce hmoves hfresh
  exact ⟨honce.once path hlive, honce.kept path hlive⟩

end Summaries

/-- The commit of a plan runs its steps in order until one fails. Its summary reports the steps that ran to completion,
and what they put somewhere is there exactly while it is live. With no failure the summary is returned. A failure of
the first step is that failure, and a failure after it has the summary and the steps that did not run to completion,
in order; it leaves every path that the failed step does not name. -/
theorem patch_reports {Path World : Type} [DecidableEq Path] [EnginePath Path] (fs : FileSystem Path World)
    (hasFile : World → Path → Prop) (hfs : Faithful fs hasFile) (cwd : Option Path) (maxFileReadBytes : Option Nat)
    (hunks : List Hunk) (before planned : World) (plan : PatchPlan Path)
    (hplan : runOn (planHunks fs cwd maxFileReadBytes hunks) before = (.ok plan, planned)) (start : World) :
    ∃ done rest summary world, plan.steps = done ++ rest ∧ Completed fs start done summary world ∧
      Reports done summary ∧
      (∀ path, Put (changesOf done) path → (hasFile world path ↔ path ∈ livePaths (changesOf done))) ∧
      (rest = [] ∧ runOn (commitSteps fs plan.steps) start = (.ok summary, world) ∨
        ∃ step later source left, rest = step :: later ∧
          runOn (commitStep fs step summary) world = (.error source, left) ∧
          runOn (commitSteps fs plan.steps) start =
            (.error (if done.isEmpty then .filesystem source
              else .patchPartiallyApplied summary step.target (rest.map PatchStep.describe) source), left) ∧
          ∀ path, ¬ step.change.Names path → (hasFile left path ↔ hasFile world path)) := by
  have hmoves : MovesLive (changesOf plan.steps) := (planHunks_planned hplan).moves
  rcases commitStepsFrom_run Completed.nil plan.steps with ⟨final, after, hdone, hrun⟩ |
    ⟨done, step, later, reached, middle, source, left, hsteps, hdone, hfailed, hrun⟩
  · rw [List.nil_append] at hdone
    have hreports := reports hmoves
    rw [← hdone.summary] at hreports
    refine ⟨plan.steps, [], final, after, (List.append_nil _).symm, hdone, hreports, ?_, Or.inl ⟨rfl, hrun⟩⟩
    exact fun path hput => hdone.files hfs hmoves path hput
  · rw [List.nil_append] at hdone
    have hleft : MovesLive (changesOf done) := by
      rw [hsteps, changesOf, List.map_append] at hmoves
      exact movesLive_left hmoves
    have hreports := reports hleft
    have hempty := isEmpty_summaryOf hleft
    rw [← hdone.summary] at hreports hempty
    refine ⟨done, step :: later, reached, middle, hsteps, hdone, hreports, fun path hput => hdone.files hfs hleft path hput,
      Or.inr ⟨step, later, source, left, rfl, hfailed, ?_, fun path hother => ?_⟩⟩
    · rw [← hempty]
      exact hrun
    · exact calls_error hfs (commitStep_error hfailed) path hother

/-! ## Files in memory -/

/-- The files of a filesystem in memory, whose directories are made as they are needed. -/
abbrev MemoryFiles := List (FsPath × ByteArray)

def MemoryFiles.has (files : MemoryFiles) (path : FsPath) : Bool := files.any fun file => file.1 = path

def MemoryFiles.without (files : MemoryFiles) (path : FsPath) : MemoryFiles := files.filter fun file => file.1 ≠ path

/-- The contents of a file. -/
def MemoryFiles.read (path : FsPath) (files : MemoryFiles) : Except FsError ByteArray :=
  orError ((files.find? fun file => file.1 = path).map Prod.snd) (.notFound path)

def memoryFs : FileSystem FsPath MemoryFiles where
  resolveInputPath cwd value := do
    let path ← (FsPath.new value).mapError .invalidPath
    return match cwd with
      | none => path
      | some cwd => cwd.joinPath path
  getMetadata path := do
    let _ ← reading (MemoryFiles.read path)
    return { isDirectory := false, isFile := true }
  readFileVersioned path := do
    let contents ← reading (MemoryFiles.read path)
    return (contents, none)
  createDirectory _ _ := pure ()
  writeFileWith path contents _ := changing fun files => (path, contents) :: files.without path
  remove path _ := do
    let _ ← reading (MemoryFiles.read path)
    changing fun files => files.without path
  rename source destination _ := do
    let contents ← reading (MemoryFiles.read source)
    changing fun files => (destination, contents) :: (files.without source).without destination
  utf8Error _ := "invalid utf-8 sequence"

theorem has_without {files : MemoryFiles} {path other : FsPath} :
    (files.without path).has other = true ↔ other ≠ path ∧ files.has other = true := by
  unfold MemoryFiles.has MemoryFiles.without
  simp only [List.any_filter, List.any_eq_true, Bool.and_eq_true, decide_eq_true_eq]
  grind

theorem has_cons {files : MemoryFiles} {path other : FsPath} {contents : ByteArray} :
    MemoryFiles.has ((path, contents) :: files) other = true ↔ other = path ∨ files.has other = true := by
  unfold MemoryFiles.has
  rw [List.any_cons, Bool.or_eq_true, decide_eq_true_eq, eq_comm]

theorem changed_error {α : Type} {read : MemoryFiles → Except FsError α} {change : α → MemoryFiles → MemoryFiles}
    {files after : MemoryFiles} {error : FsError}
    (h : runOn (reading read >>= fun found => changing (change found)) files = (.error error, after)) :
    after = files := by
  rcases runOn_bind_eq_error.mp h with hread | ⟨found, middle, -, h⟩
  · exact (congrArg Prod.snd hread).symm
  · cases h

theorem memoryFs_faithful : Faithful memoryFs fun files path => files.has path = true := by
  constructor
  · rintro path recursive world result after h other
    cases h
    exact Iff.rfl
  · rintro path contents options world after h other
    cases h
    rw [has_cons, has_without]
    tauto
  · rintro path contents options world error after h
    cases h
  · rintro source destination options world after - h other
    obtain ⟨contents, middle, hread, h⟩ := runOn_bind_eq_ok.mp h
    obtain ⟨-, rfl⟩ := Prod.mk.inj hread
    cases h
    rw [has_cons, has_without, has_without]
    tauto
  · rintro source destination options world error after h other - -
    rw [changed_error h]
  · rintro path options world after h other
    obtain ⟨contents, middle, hread, h⟩ := runOn_bind_eq_ok.mp h
    obtain ⟨-, rfl⟩ := Prod.mk.inj hread
    cases h
    exact has_without
  · rintro path options world error after h other -
    rw [changed_error h]

def memoryPath (name : String) : FsPath := .ofSegments true [name]

/-- A file is moved over one that is there. -/
def movingHunks : List Hunk :=
  [.updateFile "/old" (some "/taken") [{ oldLines := ["line"], newLines := ["line2"] }]]

/-- A file is added, deleted and added again. -/
def addingHunks : List Hunk := [.addFile "/new" "one", .deleteFile "/new", .addFile "/new" "two"]

def movingFiles : MemoryFiles := [(memoryPath "old", "line\n".toUTF8), (memoryPath "taken", "other\n".toUTF8)]

/-- A file is added and another one deleted. -/
def deletingHunks : List Hunk := [.addFile "/new" "one", .deleteFile "/old"]

def deletingPlan : PatchPlan FsPath where
  steps := [.write ⟨memoryPath "new", "one", none, true⟩, .delete (memoryPath "old")]
  writes := [(memoryPath "new", 0)]
  removed := [memoryPath "old"]

/-- The file to delete is gone when the plan is committed. -/
theorem patch_reports_deleting :
    (runOn (commitSteps memoryFs deletingPlan.steps) []).1 = .error (.patchPartiallyApplied
      { added := [memoryPath "new"] } (memoryPath "old") ["delete /old"] (.notFound (memoryPath "old"))) ∧
    ∃ done rest summary world, deletingPlan.steps = done ++ rest ∧ Completed memoryFs [] done summary world ∧
      Reports done summary ∧
      (∀ path, Put (changesOf done) path → (world.has path = true ↔ path ∈ livePaths (changesOf done))) ∧
      (rest = [] ∧ runOn (commitSteps memoryFs deletingPlan.steps) [] = (.ok summary, world) ∨
        ∃ step later source left, rest = step :: later ∧
          runOn (commitStep memoryFs step summary) world = (.error source, left) ∧
          runOn (commitSteps memoryFs deletingPlan.steps) [] =
            (.error (if done.isEmpty then .filesystem source
              else .patchPartiallyApplied summary step.target (rest.map PatchStep.describe) source), left) ∧
          ∀ path, ¬ step.change.Names path → (left.has path = true ↔ world.has path = true)) := by
  have hplan : runOn (planHunks memoryFs none none deletingHunks) movingFiles = (.ok deletingPlan, movingFiles) := by
    decide +kernel
  exact ⟨by decide +kernel, patch_reports memoryFs _ memoryFs_faithful none none deletingHunks movingFiles movingFiles
    deletingPlan hplan []⟩

/-- What a move takes away is not told as deleted, and what is added again is told twice. -/
theorem report_not_exact :
    (movingFiles.has (memoryPath "old") = true ∧
      match runOn (applyHunks memoryFs none none movingHunks) movingFiles with
      | (result, files) =>
        result = .ok { modified := [memoryPath "taken"] } ∧ files.has (memoryPath "old") = false) ∧
    match runOn (applyHunks memoryFs none none addingHunks) [] with
    | (result, files) =>
      result = .ok { added := [memoryPath "new", memoryPath "new"], deleted := [memoryPath "new"] } ∧
      files.has (memoryPath "new") = true := by
  decide +kernel

end Lightspeed.Files
