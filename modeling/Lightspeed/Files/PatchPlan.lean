import Lightspeed.Files.Contents
import Lightspeed.Files.Path
import Lightspeed.Lib.InPlace
import Lightspeed.Lib.Lists

/-!
# Plans of patches

A patch is planned before anything is written. Each hunk becomes steps behind those of the hunks before it, which it
sees through the plan: a file that was written already is written once more by changing its step, and one that is
moved takes its step along.
-/

namespace Lightspeed.Files

open Lib

/-! ## Filesystems -/

/-- What is asked of paths: their texts, which of them are roots, and the one above each, which is nearer to a
root. -/
class EnginePath (Path : Type) where
  asStr : Path → String
  isRoot : Path → Bool
  parent : Path → Option Path
  depth : Path → Nat
  depth_parent : ∀ path above, parent path = some above → depth above < depth path

theorem length_pushSegment (absolute : Bool) (segments : List String) (segment : String) :
    (pushSegment absolute segments segment).length ≤ segments.length + 1 := by
  unfold pushSegment
  have hdropped : segments.dropLast.length ≤ segments.length := by simp
  have hpushed : ∀ name, (segments ++ [name]).length = segments.length + 1 := fun name => by simp
  repeat' split
  all_goals grind

theorem length_normalizeSegments (absolute : Bool) (raw : List String) :
    (normalizeSegments absolute raw).length ≤ raw.length := by
  have hfold : ∀ segments : List String,
      (raw.foldl (pushSegment absolute) segments).length ≤ segments.length + raw.length := by
    induction raw with
    | nil => exact fun segments => Nat.le_refl _
    | cons segment rest ih =>
      intro segments
      have hpushed := length_pushSegment absolute segments segment
      have hrest := ih (pushSegment absolute segments segment)
      rw [List.foldl_cons, List.length_cons]
      omega
  have hall := hfold []
  rw [List.length_nil, Nat.zero_add] at hall
  exact hall

instance : EnginePath FsPath where
  asStr := FsPath.asStr
  isRoot := FsPath.isRoot
  parent := FsPath.parent
  depth path := path.segments.length
  depth_parent path above h := by
    unfold FsPath.parent at h
    split_ifs at h with hroot
    obtain rfl := Option.some.inj h
    have hne : path.segments ≠ [] := by simpa [FsPath.isRoot] using hroot
    have hpos : 0 < path.segments.length := List.length_pos_iff.mpr hne
    have hlength := length_normalizeSegments path.absolute path.segments.dropLast
    rw [List.length_dropLast] at hlength
    show (normalizeSegments path.absolute path.segments.dropLast).length < path.segments.length
    omega

structure FileMetadata where
  isDirectory : Bool
  isFile : Bool

/-- A filesystem, whose calls may fail and may change the world outside. -/
structure FileSystem (Path World : Type) where
  resolveInputPath : Option Path → String → Except (FsErrorOf Path) Path
  getMetadata : Path → InPlace (FsErrorOf Path) World FileMetadata
  readFileVersioned : Path → InPlace (FsErrorOf Path) World (ByteArray × Option FsVersion)
  createDirectory : Path → (recursive : Bool) → InPlace (FsErrorOf Path) World Unit
  writeFileWith : Path → ByteArray → WriteOptions → InPlace (FsErrorOf Path) World Unit
  remove : Path → RemoveOptions → InPlace (FsErrorOf Path) World Unit
  rename : Path → Path → RenameOptions → InPlace (FsErrorOf Path) World Unit
  /-- What is said of bytes that are no text. -/
  utf8Error : ByteArray → String

structure ApplyPatchSummary (Path : Type) where
  added : List Path := []
  modified : List Path := []
  deleted : List Path := []
  deriving DecidableEq

inductive ToolError (Path : Type) where
  | filesystem (error : FsErrorOf Path)
  | invalidRequest (message : String)
  | patchPartiallyApplied (applied : ApplyPatchSummary Path) (failedPath : Path) (notApplied : List String)
    (source : FsErrorOf Path)
  /-- The call ends without an answer. -/
  | panicked
  deriving DecidableEq

section Plans

variable {Path World : Type} [DecidableEq Path] [EnginePath Path]

open EnginePath

def ofFs {α : Type} (call : InPlace (FsErrorOf Path) World α) : InPlace (ToolError Path) World α :=
  calling .filesystem (runOn call)

/-! ## Hunks and steps -/

inductive Hunk where
  | addFile (path contents : String)
  | deleteFile (path : String)
  | updateFile (path : String) (movePath : Option String) (chunks : List UpdateFileChunk)

structure PlannedWrite (Path : Type) where
  path : Path
  contents : String
  /-- The version of the file that the text was derived from. -/
  ifMatch : Option FsVersion
  added : Bool
  deriving DecidableEq

/-- One change of the filesystem. -/
inductive PatchStep (Path : Type) where
  | write (write : PlannedWrite Path)
  | move (source destination : Path)
  | delete (path : Path)
  deriving DecidableEq

def PatchStep.target : PatchStep Path → Path
  | .write planned => planned.path
  | .delete path => path
  | .move _ destination => destination

def PatchStep.describe : PatchStep Path → String
  | .write planned => (if planned.added then "add " else "update ") ++ asStr planned.path
  | .move source destination => "move " ++ asStr source ++ " to " ++ asStr destination
  | .delete path => "delete " ++ asStr path

structure PatchPlan (Path : Type) where
  steps : List (PatchStep Path) := []
  /-- The index of the step that holds a path's text. -/
  writes : List (Path × Nat) := []
  /-- What was deleted or moved away. -/
  removed : List Path := []
  deriving DecidableEq

/-- What a path holds once the steps have run. -/
inductive PlannedKind where
  | file
  | directory
  | unknown

/-! ## Planning -/

namespace PatchPlan

def writeIndex (plan : PatchPlan Path) (path : Path) : Option Nat :=
  (plan.writes.find? fun written => written.1 = path).map Prod.snd

def forget (writes : List (Path × Nat)) (path : Path) : List (Path × Nat) :=
  writes.filter fun written => written.1 ≠ path

/-- The text of a path with one slash at its end. -/
def prefixBelow (path : Path) : List Char :=
  ((asStr path).toList.reverse.dropWhile (· == '/')).reverse ++ ['/']

def kind (plan : PatchPlan Path) (fs : FileSystem Path World) (path : Path) :
    InPlace (ToolError Path) World PlannedKind :=
  if (plan.writeIndex path).isSome then pure .file
  else if plan.writes.any fun written => (prefixBelow path).isPrefixOf (asStr written.1).toList then pure .directory
  else if path ∈ plan.removed then pure .unknown
  else ExceptT.mk fun world =>
    match runOn (fs.getMetadata path) world with
    | (.ok metadata, after) =>
      (.ok (if metadata.isDirectory then .directory else if metadata.isFile then .file else .unknown), after)
    | (.error _, after) => (.ok .unknown, after)

/-- The paths above, from the nearest on, up to a root. -/
def ancestorsWithin : Nat → Option Path → List Path
  | bound + 1, some current => if isRoot current then [] else current :: ancestorsWithin bound (parent current)
  | _, _ => []

def ancestors (path : Path) : List Path := ancestorsWithin (depth path) (parent path)

def checkAncestors (plan : PatchPlan Path) (fs : FileSystem Path World) (path : Path) :
    List Path → InPlace (ToolError Path) World Unit
  | [] => pure ()
  | current :: rest => do
    match ← plan.kind fs current with
    | .file =>
      throw (.filesystem (.invalidInput (asStr path ++ " cannot be created: " ++ asStr current ++ " is a file")))
    | .directory => pure ()
    | .unknown => checkAncestors plan fs path rest

/-- Refuses a target that no write can reach. -/
def checkFileTarget (plan : PatchPlan Path) (fs : FileSystem Path World) (path : Path) :
    InPlace (ToolError Path) World Unit := do
  match ← plan.kind fs path with
  | .directory => throw (.filesystem (.invalidInput ("path is a directory: " ++ asStr path)))
  | _ => plan.checkAncestors fs path (ancestors path)

/-- The write at an index, which is that of a write. -/
def writeAt (plan : PatchPlan Path) (index : Nat) : Except (ToolError Path) (PlannedWrite Path) :=
  match plan.steps[index]? with
  | some (.write planned) => .ok planned
  | _ => .error .panicked

def setWrite (plan : PatchPlan Path) (index : Nat) (write : PlannedWrite Path) : PatchPlan Path :=
  { plan with steps := plan.steps.set index (.write write) }

def pushWrite (plan : PatchPlan Path) (write : PlannedWrite Path) : PatchPlan Path :=
  { plan with
    steps := plan.steps ++ [.write write]
    writes := (write.path, plan.steps.length) :: forget plan.writes write.path }

def planAdd (plan : PatchPlan Path) (path : Path) (contents : String) : Except (ToolError Path) (PatchPlan Path) :=
  let plan := { plan with removed := plan.removed.filter (· ≠ path) }
  match plan.writeIndex path with
  | some index => do
    let write ← plan.writeAt index
    return plan.setWrite index { write with contents, ifMatch := none, added := true }
  | none => .ok (plan.pushWrite { path, contents, ifMatch := none, added := true })

def derive (contents : String) (path : Path) (chunks : List UpdateFileChunk) : Except (ToolError Path) String :=
  match deriveNewContents contents (asStr path) chunks with
  | .error message => .error (.invalidRequest message)
  | .ok none => .error .panicked
  | .ok (some contents) => .ok contents

def readFileText (fs : FileSystem Path World) (maxFileReadBytes : Option Nat) (path : Path) :
    InPlace (ToolError Path) World (String × Option FsVersion) := do
  let (bytes, version) ← ofFs (fs.readFileVersioned path)
  if maxFileReadBytes.any (· < bytes.size) then
    throw (.invalidRequest ("apply_patch read " ++ toString bytes.size ++ " bytes from " ++ asStr path ++
      ", exceeding max_file_read_bytes=" ++ toString (maxFileReadBytes.getD 0)))
  else
    match String.fromUTF8? bytes with
    | some text => pure (text, version)
    | none => throw (.filesystem (.invalidData (fs.utf8Error bytes)))

def planUpdate (plan : PatchPlan Path) (fs : FileSystem Path World) (maxFileReadBytes : Option Nat) (path : Path)
    (chunks : List UpdateFileChunk) : InPlace (ToolError Path) World (PatchPlan Path) :=
  match plan.writeIndex path with
  | some index => do
    let write ← ofResult (plan.writeAt index)
    let contents ← ofResult (derive write.contents path chunks)
    return plan.setWrite index { write with contents }
  | none =>
    if path ∈ plan.removed then throw (.filesystem (.notFound path))
    else do
      let (original, version) ← readFileText fs maxFileReadBytes path
      let contents ← ofResult (derive original path chunks)
      return plan.pushWrite { path, contents, ifMatch := version, added := false }

/-- A move takes the write along, since the rename carries its text there. -/
def planMove (plan : PatchPlan Path) (source destination : Path) : PatchPlan Path where
  steps := plan.steps ++ [.move source destination]
  writes :=
    match plan.writeIndex source with
    | some index => (destination, index) :: forget (forget plan.writes source) destination
    | none => plan.writes
  removed := source :: plan.removed.filter (· ≠ destination)

def ensureFileNotDirectory (fs : FileSystem Path World) (path : Path) : InPlace (ToolError Path) World Unit := do
  let metadata ← ofFs (fs.getMetadata path)
  if metadata.isDirectory then throw (.filesystem (.invalidInput ("path is a directory: " ++ asStr path)))
  else pure ()

/-- A file that the plan has written is one. -/
def checkDeletable (plan : PatchPlan Path) (fs : FileSystem Path World) (path : Path) :
    InPlace (ToolError Path) World Unit :=
  if (plan.writeIndex path).isSome then pure () else ensureFileNotDirectory fs path

def planDelete (plan : PatchPlan Path) (fs : FileSystem Path World) (path : Path) :
    InPlace (ToolError Path) World (PatchPlan Path) :=
  if path ∈ plan.removed then throw (.filesystem (.notFound path))
  else do
    plan.checkDeletable fs path
    return {
      steps := plan.steps ++ [.delete path]
      writes := forget plan.writes path
      removed := path :: plan.removed }

end PatchPlan

def resolvePatchPath (fs : FileSystem Path World) (cwd : Option Path) (path : String) :
    InPlace (ToolError Path) World Path :=
  ofFs (ofResult (fs.resolveInputPath cwd path))

def planHunk (fs : FileSystem Path World) (cwd : Option Path) (maxFileReadBytes : Option Nat) (plan : PatchPlan Path) :
    Hunk → InPlace (ToolError Path) World (PatchPlan Path)
  | .addFile path contents => do
    let path ← resolvePatchPath fs cwd path
    plan.checkFileTarget fs path
    ofResult (plan.planAdd path contents)
  | .deleteFile path => do
    let path ← resolvePatchPath fs cwd path
    plan.planDelete fs path
  | .updateFile path movePath chunks => do
    let path ← resolvePatchPath fs cwd path
    let updated ← plan.planUpdate fs maxFileReadBytes path chunks
    match movePath with
    | none => return updated
    | some movePath => do
      let destination ← resolvePatchPath fs cwd movePath
      if destination = path then return updated
      else do
        updated.checkFileTarget fs destination
        return updated.planMove path destination

/-- Plans every hunk, with no writes. -/
def planHunks (fs : FileSystem Path World) (cwd : Option Path) (maxFileReadBytes : Option Nat) (hunks : List Hunk) :
    InPlace (ToolError Path) World (PatchPlan Path) :=
  hunks.foldlM (planHunk fs cwd maxFileReadBytes) {}

end Plans

/-! ## The paths above -/

section Above

variable {Path : Type} [EnginePath Path]

open EnginePath

theorem ancestorsWithin_enough (bound bound' : Nat) (above : Option Path)
    (h : ∀ current, above = some current → depth current < bound ∧ depth current < bound') :
    PatchPlan.ancestorsWithin bound above = PatchPlan.ancestorsWithin bound' above := by
  induction bound generalizing bound' above with
  | zero =>
    cases above with
    | none => cases bound' <;> rfl
    | some current => exact absurd (h current rfl).1 (Nat.not_lt_zero _)
  | succ bound ih =>
    cases above with
    | none => cases bound' <;> rfl
    | some current =>
      obtain ⟨hbound, hbound'⟩ := h current rfl
      cases bound' with
      | zero => exact absurd hbound' (Nat.not_lt_zero _)
      | succ bound' =>
        rw [PatchPlan.ancestorsWithin, PatchPlan.ancestorsWithin, ih bound' (parent current)]
        intro next hnext
        have hnearer := depth_parent current next hnext
        omega

/-- The paths above a path go on with those above its parent. -/
theorem ancestors_eq {path above : Path} (h : parent path = some above) :
    PatchPlan.ancestors path = if isRoot above then [] else above :: PatchPlan.ancestors above := by
  have hdepth := depth_parent path above h
  obtain ⟨bound, hbound⟩ := Nat.exists_eq_succ_of_ne_zero (Nat.ne_zero_of_lt hdepth)
  unfold PatchPlan.ancestors
  rw [hbound, h, PatchPlan.ancestorsWithin, ancestorsWithin_enough bound (depth above)]
  intro next hnext
  have hnearer := depth_parent above next hnext
  omega

end Above

/-! ## What the steps change -/

section Changes

variable {Path World : Type} [DecidableEq Path]

/-- What a step does to the paths. -/
inductive PathChange (Path : Type) where
  | written (path : Path)
  | moved (source destination : Path)
  | removed (path : Path)

def PatchStep.change : PatchStep Path → PathChange Path
  | .write planned => .written planned.path
  | .move source destination => .moved source destination
  | .delete path => .removed path

def PatchPlan.changes (plan : PatchPlan Path) : List (PathChange Path) := plan.steps.map PatchStep.change

/-- The paths that were written, or moved to, and are still there. -/
def follow (live : List Path) : PathChange Path → List Path
  | .written path => path :: live
  | .moved source destination => destination :: live.filter (· ≠ source)
  | .removed path => live.filter (· ≠ path)

def livePaths (changes : List (PathChange Path)) : List Path := changes.foldl follow []

theorem livePaths_concat (changes : List (PathChange Path)) (change : PathChange Path) :
    livePaths (changes ++ [change]) = follow (livePaths changes) change := by
  unfold livePaths
  rw [List.foldl_append, List.foldl_cons, List.foldl_nil]

/-- Only what was written is moved. -/
def MovesLive (changes : List (PathChange Path)) : Prop :=
  ∀ before source destination after, changes = before ++ .moved source destination :: after → source ∈ livePaths before

theorem movesLive_concat {changes : List (PathChange Path)} {change : PathChange Path} (h : MovesLive changes)
    (hchange : ∀ source destination, change = .moved source destination → source ∈ livePaths changes) :
    MovesLive (changes ++ [change]) := by
  intro before source destination after heq
  rcases snoc_eq_append_cons.mp heq with ⟨rest, rfl, hchanges⟩ | ⟨rfl, hmoved, rfl⟩
  · exact h before source destination rest hchanges
  · exact hchange source destination hmoved.symm

/-- What holds of a plan in every moment of planning. -/
structure Planned (plan : PatchPlan Path) : Prop where
  moves : MovesLive plan.changes
  writes : ∀ written ∈ plan.writes, written.1 ∈ livePaths plan.changes

variable {plan planned : PatchPlan Path} {path : Path}

theorem mem_of_writeIndex {index : Nat} (h : plan.writeIndex path = some index) :
    ∃ written ∈ plan.writes, written.1 = path := by
  obtain ⟨written, hwritten, -⟩ := Option.map_eq_some_iff.mp h
  exact ⟨written, List.mem_of_find?_eq_some hwritten, by simpa using List.find?_some hwritten⟩

theorem Planned.setWrite (h : Planned plan) {index : Nat} {old new : PlannedWrite Path}
    (hold : plan.writeAt index = .ok old) (hpath : new.path = old.path) : Planned (plan.setWrite index new) := by
  have hchanges : (plan.setWrite index new).changes = plan.changes := by
    unfold PatchPlan.writeAt at hold
    split at hold
    next planned hplanned =>
      obtain rfl := Except.ok.inj hold
      obtain ⟨hindex, hstep⟩ := List.getElem?_eq_some_iff.mp hplanned
      have hmapped : index < (plan.steps.map PatchStep.change).length := by simpa using hindex
      have hchange : PatchStep.change (.write new) = (plan.steps.map PatchStep.change)[index] := by
        rw [List.getElem_map, hstep, PatchStep.change, PatchStep.change, hpath]
      unfold PatchPlan.changes PatchPlan.setWrite
      rw [List.map_set, hchange, List.set_getElem_self]
    next => cases hold
  exact ⟨hchanges ▸ h.moves, hchanges ▸ h.writes⟩

omit [DecidableEq Path] in
theorem changes_concat (step : PatchStep Path) (h : planned.steps = plan.steps ++ [step]) :
    planned.changes = plan.changes ++ [step.change] := by
  unfold PatchPlan.changes
  rw [h, List.map_append, List.map_cons, List.map_nil]

theorem mem_forget {writes : List (Path × Nat)} {written : Path × Nat} :
    written ∈ PatchPlan.forget writes path ↔ written ∈ writes ∧ written.1 ≠ path := by
  unfold PatchPlan.forget
  rw [List.mem_filter, decide_eq_true_eq]

theorem Planned.pushWrite (h : Planned plan) (write : PlannedWrite Path) : Planned (plan.pushWrite write) := by
  have hchanges : (plan.pushWrite write).changes = plan.changes ++ [.written write.path] :=
    changes_concat (.write write) rfl
  constructor
  · rw [hchanges]
    exact movesLive_concat h.moves fun source destination hmoved => (nomatch hmoved)
  · intro written hwritten
    rw [hchanges, livePaths_concat]
    rcases List.mem_cons.mp hwritten with rfl | hwritten
    · exact List.mem_cons_self
    · exact List.mem_cons_of_mem _ (h.writes written (mem_forget.mp hwritten).1)

theorem Planned.planAdd (h : Planned plan) {contents : String} (hplan : plan.planAdd path contents = .ok planned) :
    Planned planned := by
  have hkept : Planned { plan with removed := plan.removed.filter (· ≠ path) } := ⟨h.moves, h.writes⟩
  unfold PatchPlan.planAdd at hplan
  dsimp only at hplan
  split at hplan
  next index hindex =>
    obtain ⟨write, hwrite, hplan⟩ := bind_eq_ok.mp hplan
    obtain rfl := Except.ok.inj hplan
    exact hkept.setWrite hwrite rfl
  next =>
    obtain rfl := Except.ok.inj hplan
    exact hkept.pushWrite _

/-- A move of what was written. -/
theorem Planned.planMove (h : Planned plan) {source destination : Path} {index : Nat}
    (hindex : plan.writeIndex source = some index) : Planned (plan.planMove source destination) := by
  have hchanges : (plan.planMove source destination).changes = plan.changes ++ [.moved source destination] :=
    changes_concat (.move source destination) rfl
  constructor
  · rw [hchanges]
    apply movesLive_concat h.moves
    rintro source destination hmoved
    cases hmoved
    obtain ⟨written, hwritten, rfl⟩ := mem_of_writeIndex hindex
    exact h.writes written hwritten
  · intro written hwritten
    rw [hchanges, livePaths_concat]
    unfold PatchPlan.planMove at hwritten
    rw [hindex] at hwritten
    rcases List.mem_cons.mp hwritten with rfl | hwritten
    · exact List.mem_cons_self
    · obtain ⟨hwritten, hsource⟩ := mem_forget.mp (mem_forget.mp hwritten).1
      exact List.mem_cons_of_mem _ (List.mem_filter.mpr ⟨h.writes written hwritten, by simpa using hsource⟩)

section Calls

variable [EnginePath Path] {fs : FileSystem Path World} {cwd : Option Path} {maxFileReadBytes : Option Nat}
  {start stop : World}

theorem Planned.planDelete (h : Planned plan) (hplan : runOn (plan.planDelete fs path) start = (.ok planned, stop)) :
    Planned planned := by
  have hdeleted : ∀ deleted : PatchPlan Path, deleted.steps = plan.steps ++ [.delete path] →
      deleted.writes = PatchPlan.forget plan.writes path → Planned deleted := by
    intro deleted hsteps hwrites
    have hchanges : deleted.changes = plan.changes ++ [.removed path] := changes_concat (.delete path) hsteps
    constructor
    · rw [hchanges]
      exact movesLive_concat h.moves fun source destination hmoved => (nomatch hmoved)
    · intro written hwritten
      rw [hwrites] at hwritten
      obtain ⟨hwritten, hne⟩ := mem_forget.mp hwritten
      rw [hchanges, livePaths_concat]
      exact List.mem_filter.mpr ⟨h.writes written hwritten, by simpa using hne⟩
  unfold PatchPlan.planDelete at hplan
  split_ifs at hplan with hremoved
  · cases hplan
  · obtain ⟨_, middle, -, hplan⟩ := runOn_bind_eq_ok.mp hplan
    cases hplan
    exact hdeleted _ rfl rfl

/-- An update keeps its path's text in the plan. -/
theorem Planned.planUpdate (h : Planned plan) {chunks : List UpdateFileChunk}
    (hplan : runOn (plan.planUpdate fs maxFileReadBytes path chunks) start = (.ok planned, stop)) :
    Planned planned ∧ ∃ index, planned.writeIndex path = some index := by
  unfold PatchPlan.planUpdate at hplan
  split at hplan
  next index hindex =>
    obtain ⟨write, middle, hwrite, hplan⟩ := runOn_bind_eq_ok.mp hplan
    obtain ⟨contents, last, -, hplan⟩ := runOn_bind_eq_ok.mp hplan
    cases hplan
    exact ⟨h.setWrite (congrArg Prod.fst hwrite) rfl, index, hindex⟩
  next =>
    split_ifs at hplan with hremoved
    · cases hplan
    · obtain ⟨⟨original, version⟩, middle, -, hplan⟩ := runOn_bind_eq_ok.mp hplan
      obtain ⟨contents, last, -, hplan⟩ := runOn_bind_eq_ok.mp hplan
      cases hplan
      exact ⟨h.pushWrite _, plan.steps.length, by simp [PatchPlan.writeIndex, PatchPlan.pushWrite]⟩

theorem Planned.planHunk (h : Planned plan) {hunk : Hunk}
    (hplan : runOn (planHunk fs cwd maxFileReadBytes plan hunk) start = (.ok planned, stop)) : Planned planned := by
  cases hunk with
  | addFile path contents =>
    obtain ⟨path, first, -, hplan⟩ := runOn_bind_eq_ok.mp hplan
    obtain ⟨_, second, -, hplan⟩ := runOn_bind_eq_ok.mp hplan
    exact h.planAdd (congrArg Prod.fst hplan)
  | deleteFile path =>
    obtain ⟨path, first, -, hplan⟩ := runOn_bind_eq_ok.mp hplan
    exact h.planDelete hplan
  | updateFile path movePath chunks =>
    obtain ⟨path, first, -, hplan⟩ := runOn_bind_eq_ok.mp hplan
    obtain ⟨updated, second, hrun, hplan⟩ := runOn_bind_eq_ok.mp hplan
    obtain ⟨hupdated, index, hindex⟩ := h.planUpdate hrun
    cases movePath with
    | none =>
      cases hplan
      exact hupdated
    | some movePath =>
      obtain ⟨destination, third, -, hplan⟩ := runOn_bind_eq_ok.mp hplan
      split_ifs at hplan with hsame
      · cases hplan
        exact hupdated
      · obtain ⟨_, last, -, hplan⟩ := runOn_bind_eq_ok.mp hplan
        cases hplan
        exact hupdated.planMove hindex

/-- A plan of hunks moves only what it has written. -/
theorem planHunks_planned {hunks : List Hunk}
    (hplan : runOn (planHunks fs cwd maxFileReadBytes hunks) start = (.ok planned, stop)) : Planned planned := by
  have hempty : Planned ({} : PatchPlan Path) := by
    constructor
    · intro before source destination after heq
      cases before <;> cases heq
    · exact fun written hwritten => (nomatch hwritten)
  exact runOn_foldlM_preserves (fun hunk _ plan _ planned _ hplan hrun => hplan.planHunk hrun) hempty hplan

end Calls

end Changes

end Lightspeed.Files
