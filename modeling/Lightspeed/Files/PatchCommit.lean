import Lightspeed.Files.PatchPlan

/-!
# Commits of patches

The steps of a plan run in order, and a summary says what landed. A write or a removal adds its path to the summary,
and a move renames the first entry of its source in each list. A failure with nothing applied is that failure, and
after that it says what landed and which steps did not.
-/

namespace Lightspeed.Files

open Lib

/-! ## Steps -/

section Commit

variable {Path World : Type} [DecidableEq Path] [EnginePath Path] {start world : World}
  {changes : List (PathChange Path)}

open EnginePath

def createParentDirectories (fs : FileSystem Path World) (path : Path) : InPlace (FsErrorOf Path) World Unit :=
  match parent path with
  | some above => if isRoot above then pure () else fs.createDirectory above true
  | none => pure ()

/-- The first entry of the source becomes the destination. -/
def renameFirst (source destination : Path) : List Path → List Path
  | [] => []
  | entry :: rest => if entry = source then destination :: rest else entry :: renameFirst source destination rest

namespace ApplyPatchSummary

def isEmpty (summary : ApplyPatchSummary Path) : Bool :=
  summary.added.isEmpty && summary.modified.isEmpty && summary.deleted.isEmpty

/-- What a step that was made adds to the summary. -/
def record (summary : ApplyPatchSummary Path) : PatchStep Path → ApplyPatchSummary Path
  | .write planned =>
    if planned.added then { summary with added := summary.added ++ [planned.path] }
    else { summary with modified := summary.modified ++ [planned.path] }
  | .move source destination =>
    { summary with
      added := renameFirst source destination summary.added
      modified := renameFirst source destination summary.modified }
  | .delete path => { summary with deleted := summary.deleted ++ [path] }

end ApplyPatchSummary

/-- Only a file that is added may need directories. -/
def prepareWrite (fs : FileSystem Path World) (planned : PlannedWrite Path) : InPlace (FsErrorOf Path) World Unit :=
  if planned.added then createParentDirectories fs planned.path else pure ()

/-- The calls that a step makes. -/
def PatchStep.calls (fs : FileSystem Path World) : PatchStep Path → InPlace (FsErrorOf Path) World Unit
  | .write planned => do
    prepareWrite fs planned
    fs.writeFileWith planned.path planned.contents.toUTF8 { ifMatch := planned.ifMatch }
  | .move source destination => do
    createParentDirectories fs destination
    fs.rename source destination { overwrite := true }
  | .delete path => fs.remove path .file

def commitStep (fs : FileSystem Path World) (step : PatchStep Path) (summary : ApplyPatchSummary Path) :
    InPlace (FsErrorOf Path) World (ApplyPatchSummary Path) := do
  step.calls fs
  return summary.record step

/-- What a failure is told as. -/
def commitError (summary : ApplyPatchSummary Path) (step : PatchStep Path) (later : List (PatchStep Path))
    (source : FsErrorOf Path) : ToolError Path :=
  if summary.isEmpty then .filesystem source
  else .patchPartiallyApplied summary step.target ((step :: later).map PatchStep.describe) source

def commitStepsFrom (fs : FileSystem Path World) (summary : ApplyPatchSummary Path) :
    List (PatchStep Path) → InPlace (ToolError Path) World (ApplyPatchSummary Path)
  | [] => pure summary
  | step :: later => ExceptT.mk fun world =>
    match runOn (commitStep fs step summary) world with
    | (.ok summary, after) => runOn (commitStepsFrom fs summary later) after
    | (.error source, after) => (.error (commitError summary step later source), after)

def commitSteps (fs : FileSystem Path World) (steps : List (PatchStep Path)) :
    InPlace (ToolError Path) World (ApplyPatchSummary Path) :=
  commitStepsFrom fs {} steps

def applyHunks (fs : FileSystem Path World) (cwd : Option Path) (maxFileReadBytes : Option Nat) (hunks : List Hunk) :
    InPlace (ToolError Path) World (ApplyPatchSummary Path) :=
  if hunks.isEmpty then throw (.invalidRequest "No files were modified.")
  else do
    let plan ← planHunks fs cwd maxFileReadBytes hunks
    commitSteps fs plan.steps

end Commit

/-! ## Files that are there -/

/-- A filesystem that does what its calls say. A call that fails may leave the paths that it names in any state, and
no other. -/
structure Faithful {Path World : Type} (fs : FileSystem Path World) (hasFile : World → Path → Prop) : Prop where
  createDirectory : ∀ path recursive world result after,
    runOn (fs.createDirectory path recursive) world = (result, after) → ∀ other, hasFile after other ↔ hasFile world other
  write_ok : ∀ path contents options world after,
    runOn (fs.writeFileWith path contents options) world = (.ok (), after) →
      ∀ other, hasFile after other ↔ other = path ∨ hasFile world other
  write_error : ∀ path contents options world error after,
    runOn (fs.writeFileWith path contents options) world = (.error error, after) →
      ∀ other, other ≠ path → (hasFile after other ↔ hasFile world other)
  rename_ok : ∀ source destination options world after, hasFile world source →
    runOn (fs.rename source destination options) world = (.ok (), after) →
      ∀ other, hasFile after other ↔ other = destination ∨ other ≠ source ∧ hasFile world other
  rename_error : ∀ source destination options world error after,
    runOn (fs.rename source destination options) world = (.error error, after) →
      ∀ other, other ≠ source → other ≠ destination → (hasFile after other ↔ hasFile world other)
  remove_ok : ∀ path options world after, runOn (fs.remove path options) world = (.ok (), after) →
    ∀ other, hasFile after other ↔ other ≠ path ∧ hasFile world other
  remove_error : ∀ path options world error after, runOn (fs.remove path options) world = (.error error, after) →
    ∀ other, other ≠ path → (hasFile after other ↔ hasFile world other)

namespace PathChange

variable {Path : Type}

/-- The paths that a change names. -/
def Names : PathChange Path → Path → Prop
  | .written path, other | .removed path, other => other = path
  | .moved source destination, other => other = source ∨ other = destination

/-- Where a change puts a file. -/
def puts : PathChange Path → Option Path
  | .written path | .moved _ path => some path
  | .removed _ => none

/-- The files that are there after a change. -/
def Leaves (there : Path → Prop) : PathChange Path → Path → Prop
  | .written path, other => other = path ∨ there other
  | .moved source destination, other => other = destination ∨ other ≠ source ∧ there other
  | .removed path, other => other ≠ path ∧ there other

end PathChange

section Steps

variable {Path World : Type} [EnginePath Path] {fs : FileSystem Path World}
  {hasFile : World → Path → Prop} {step : PatchStep Path} {summary recorded : ApplyPatchSummary Path}
  {world after : World} {source : FsErrorOf Path} {path : Path}

theorem createParentDirectories_files (hfs : Faithful fs hasFile) {result : Except (FsErrorOf Path) Unit}
    (h : runOn (createParentDirectories fs path) world = (result, after)) (other : Path) :
    hasFile after other ↔ hasFile world other := by
  unfold createParentDirectories at h
  split at h
  next above habove =>
    split_ifs at h with hroot
    · cases h
      exact Iff.rfl
    · exact hfs.createDirectory above true world result after h other
  next =>
    cases h
    exact Iff.rfl

theorem prepareWrite_files (hfs : Faithful fs hasFile) {planned : PlannedWrite Path}
    {result : Except (FsErrorOf Path) Unit} (h : runOn (prepareWrite fs planned) world = (result, after)) (other : Path) :
    hasFile after other ↔ hasFile world other := by
  unfold prepareWrite at h
  split_ifs at h with hadded
  · exact createParentDirectories_files hfs h other
  · cases h
    exact Iff.rfl

/-- A step that was made leaves what its change does. -/
theorem calls_ok (hfs : Faithful fs hasFile) (h : runOn (step.calls fs) world = (.ok (), after))
    (hsource : ∀ source destination, step = .move source destination → hasFile world source) (other : Path) :
    hasFile after other ↔ step.change.Leaves (hasFile world) other := by
  cases step with
  | write planned =>
    obtain ⟨_, middle, hprepared, hwritten⟩ := runOn_bind_eq_ok.mp h
    rw [hfs.write_ok _ _ _ _ _ hwritten other, prepareWrite_files hfs hprepared other]
    rfl
  | move source destination =>
    obtain ⟨_, middle, hprepared, hmoved⟩ := runOn_bind_eq_ok.mp h
    have hthere : hasFile middle source :=
      (createParentDirectories_files hfs hprepared source).mpr (hsource source destination rfl)
    rw [hfs.rename_ok _ _ _ _ _ hthere hmoved other, createParentDirectories_files hfs hprepared other]
    rfl
  | delete path => exact hfs.remove_ok _ _ _ _ h other

/-- A step that failed leaves the paths that it does not name. -/
theorem calls_error (hfs : Faithful fs hasFile) (h : runOn (step.calls fs) world = (.error source, after))
    (other : Path) (hother : ¬ step.change.Names other) : hasFile after other ↔ hasFile world other := by
  cases step with
  | write planned =>
    rcases runOn_bind_eq_error.mp h with hprepared | ⟨_, middle, hprepared, hwritten⟩
    · exact prepareWrite_files hfs hprepared other
    · rw [hfs.write_error _ _ _ _ _ _ hwritten other hother, prepareWrite_files hfs hprepared other]
  | move source destination =>
    obtain ⟨hsource, hdestination⟩ := not_or.mp hother
    rcases runOn_bind_eq_error.mp h with hprepared | ⟨_, middle, hprepared, hmoved⟩
    · exact createParentDirectories_files hfs hprepared other
    · rw [hfs.rename_error _ _ _ _ _ _ hmoved other hsource hdestination,
        createParentDirectories_files hfs hprepared other]
  | delete path => exact hfs.remove_error _ _ _ _ _ h other hother

variable [DecidableEq Path]

theorem commitStep_ok (h : runOn (commitStep fs step summary) world = (.ok recorded, after)) :
    runOn (step.calls fs) world = (.ok (), after) ∧ recorded = summary.record step := by
  obtain ⟨_, middle, hcalls, hrecorded⟩ := runOn_bind_eq_ok.mp h
  cases hrecorded
  exact ⟨hcalls, rfl⟩

theorem commitStep_error (h : runOn (commitStep fs step summary) world = (.error source, after)) :
    runOn (step.calls fs) world = (.error source, after) := by
  rcases runOn_bind_eq_error.mp h with hcalls | ⟨_, middle, -, hrecorded⟩
  · exact hcalls
  · cases hrecorded

end Steps

/-! ## Runs -/

section Runs

variable {Path World : Type} [DecidableEq Path] [EnginePath Path] {fs : FileSystem Path World}
  {hasFile : World → Path → Prop}

/-- Steps that ran to completion from a start, with the summary and the world behind them. -/
inductive Completed (fs : FileSystem Path World) (start : World) :
    List (PatchStep Path) → ApplyPatchSummary Path → World → Prop
  | nil : Completed fs start [] {} start
  | snoc {done : List (PatchStep Path)} {summary recorded : ApplyPatchSummary Path} {world after : World}
      {step : PatchStep Path} (hdone : Completed fs start done summary world)
      (hstep : runOn (commitStep fs step summary) world = (.ok recorded, after)) :
      Completed fs start (done ++ [step]) recorded after

/-- The run of steps behind some that were completed: all of them complete, or one of them fails. -/
theorem commitStepsFrom_run {done : List (PatchStep Path)} {summary : ApplyPatchSummary Path}
    (hdone : Completed fs start done summary world) (steps : List (PatchStep Path)) :
    (∃ final after, Completed fs start (done ++ steps) final after ∧
      runOn (commitStepsFrom fs summary steps) world = (.ok final, after)) ∨
    ∃ more step later reached middle source left, steps = more ++ step :: later ∧
      Completed fs start (done ++ more) reached middle ∧
      runOn (commitStep fs step reached) middle = (.error source, left) ∧
      runOn (commitStepsFrom fs summary steps) world = (.error (commitError reached step later source), left) := by
  induction steps generalizing done summary world with
  | nil =>
    rw [List.append_nil]
    exact Or.inl ⟨summary, world, hdone, rfl⟩
  | cons step later ih =>
    have hstart : runOn (commitStepsFrom fs summary (step :: later)) world =
        match runOn (commitStep fs step summary) world with
        | (.ok summary, after) => runOn (commitStepsFrom fs summary later) after
        | (.error source, after) => (.error (commitError summary step later source), after) := rfl
    rcases hstep : runOn (commitStep fs step summary) world with ⟨source | recorded, after⟩
    · rw [hstep] at hstart
      exact Or.inr ⟨[], step, later, summary, world, source, after, rfl, by rwa [List.append_nil], hstep, hstart⟩
    · rw [hstep] at hstart
      rw [hstart]
      rcases ih (hdone.snoc hstep) with ⟨final, last, hfinal, hrun⟩ | ⟨more, failed, rest, reached, middle, source,
        left, rfl, hreached, hfailed, hrun⟩
      · exact Or.inl ⟨final, last, by simpa using hfinal, hrun⟩
      · exact Or.inr ⟨step :: more, failed, rest, reached, middle, source, left, rfl, by simpa using hreached, hfailed,
          hrun⟩

/-- The summary of steps that were completed. -/
def summaryOf (done : List (PatchStep Path)) : ApplyPatchSummary Path := done.foldl ApplyPatchSummary.record {}

theorem Completed.summary {done : List (PatchStep Path)} {summary : ApplyPatchSummary Path}
    (h : Completed fs start done summary world) : summary = summaryOf done := by
  induction h with
  | nil => rfl
  | snoc _ hstep ih =>
    rw [(commitStep_ok hstep).2, ih]
    unfold summaryOf
    rw [List.foldl_append, List.foldl_cons, List.foldl_nil]

def changesOf (steps : List (PatchStep Path)) : List (PathChange Path) := steps.map PatchStep.change

/-- A change of the steps put a file at the path. -/
def Put (changes : List (PathChange Path)) (path : Path) : Prop := ∃ change ∈ changes, change.puts = some path

omit [DecidableEq Path] [EnginePath Path] in
theorem put_concat {change : PathChange Path} {path : Path} :
    Put (changes ++ [change]) path ↔ Put changes path ∨ change.puts = some path := by
  unfold Put
  simp only [List.mem_append, List.mem_singleton, or_and_right, exists_or, exists_eq_left]

omit [DecidableEq Path] [EnginePath Path] in
theorem changesOf_concat (done : List (PatchStep Path)) (step : PatchStep Path) :
    changesOf (done ++ [step]) = changesOf done ++ [step.change] := by
  unfold changesOf
  rw [List.map_append, List.map_cons, List.map_nil]

omit [EnginePath Path] in
theorem movesLive_left {more : List (PathChange Path)} (h : MovesLive (changes ++ more)) :
    MovesLive changes := by
  intro before source destination after heq
  apply h before source destination (after ++ more)
  rw [heq, List.append_assoc, List.cons_append]

omit [EnginePath Path] in
/-- What is live was put there. -/
theorem put_of_live {path : Path} (h : path ∈ livePaths changes) : Put changes path := by
  induction changes using List.reverseRecOn with
  | nil => cases h
  | append_singleton changes change ih =>
    rw [livePaths_concat] at h
    rw [put_concat]
    cases change with
    | written written =>
      rcases List.mem_cons.mp h with rfl | h
      · exact Or.inr rfl
      · exact Or.inl (ih h)
    | moved source destination =>
      rcases List.mem_cons.mp h with rfl | h
      · exact Or.inr rfl
      · exact Or.inl (ih (List.mem_filter.mp h).1)
    | removed removed => exact Or.inl (ih (List.mem_filter.mp h).1)

/-- What the steps put somewhere is there exactly while it was not removed or moved away since. -/
theorem Completed.files (hfs : Faithful fs hasFile) {done : List (PatchStep Path)}
    {summary : ApplyPatchSummary Path} (h : Completed fs start done summary world)
    (hmoves : MovesLive (changesOf done)) (path : Path) (hput : Put (changesOf done) path) :
    hasFile world path ↔ path ∈ livePaths (changesOf done) := by
  induction h generalizing path with
  | nil =>
    obtain ⟨change, hchange, -⟩ := hput
    cases hchange
  | @snoc done summary recorded world after step hdone hstep ih =>
    rw [changesOf_concat] at hmoves hput ⊢
    rw [livePaths_concat]
    have hearlier : ∀ path, Put (changesOf done) path → (hasFile world path ↔ path ∈ livePaths (changesOf done)) :=
      ih (movesLive_left hmoves)
    have hsource : ∀ source destination, step = .move source destination → hasFile world source := by
      rintro source destination rfl
      have hlive : source ∈ livePaths (changesOf done) := hmoves (changesOf done) source destination [] rfl
      exact (hearlier source (put_of_live hlive)).mpr hlive
    rw [calls_ok hfs (commitStep_ok hstep).1 hsource path]
    rcases put_concat.mp hput with hput | hput
    · have hbefore := hearlier path hput
      cases step with
      | write planned => simp [PatchStep.change, PathChange.Leaves, follow, hbefore]
      | move source destination | delete removed =>
        simp [PatchStep.change, PathChange.Leaves, follow, hbefore, and_comm]
    · cases step with
      | write planned | move source destination =>
        obtain rfl := Option.some.inj hput
        simp [PatchStep.change, PathChange.Leaves, follow]
      | delete removed => cases hput

end Runs

end Lightspeed.Files
