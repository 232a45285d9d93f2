import Lightspeed.Lib.Split
import Mathlib.Data.List.Basic
import Mathlib.Data.String.Basic

/-!
# Paths of files

A filesystem path is absolute or relative, and normalized: no segment is empty or a dot, and parents are
resolved as far as they can be. A path of the versioned filesystem is a list of components below its
root.
-/

namespace Lightspeed.Files

open Lib


variable {absolute : Bool} {segments : List String}
/-! ## Filesystem paths -/

inductive FsPathError where
  | empty
  | nulByte
  | nonUnixSeparator (path : String)
  deriving DecidableEq

/-- Takes one segment behind the ones that are normalized. -/
def pushSegment (absolute : Bool) (segments : List String) (segment : String) : List String :=
  if segment = "" ∨ segment = "." then segments
  else if segment = ".." then
    match segments.getLast? with
    | some last =>
      if last ≠ ".." then segments.dropLast
      else if absolute then segments
      else segments ++ [".."]
    | none => if absolute then segments else segments ++ [".."]
  else segments ++ [segment]

def normalizeSegments (absolute : Bool) (raw : List String) : List String :=
  raw.foldl (pushSegment absolute) []

/-- A path that is not a remote environment's. -/
structure FsPath where
  absolute : Bool
  segments : List String
  /-- The segments are normalized. -/
  normal : normalizeSegments absolute segments = segments
  deriving DecidableEq

/-- The segments of a normalized path: for a relative one some parents come first, and the rest are
names. -/
def SegmentsNormal (absolute : Bool) (segments : List String) : Prop :=
  ∃ parents names, segments = List.replicate parents ".." ++ names ∧
    (absolute = true → parents = 0) ∧ ∀ name ∈ names, name ≠ "" ∧ name ≠ "." ∧ name ≠ ".."

theorem segmentsNormal_nil (absolute : Bool) : SegmentsNormal absolute [] :=
  ⟨0, [], rfl, fun _ => rfl, fun _ h => (nomatch h)⟩

/-- A name is taken as it is. -/
theorem pushSegment_name {name : String} (h : name ≠ "" ∧ name ≠ "." ∧ name ≠ "..") :
    pushSegment absolute segments name = segments ++ [name] := by
  unfold pushSegment
  rw [if_neg (not_or.mpr ⟨h.1, h.2.1⟩), if_neg h.2.2]

/-- A parent is kept behind other parents of a relative path. -/
theorem pushSegment_parents (parents : Nat) :
    pushSegment false (List.replicate parents "..") ".." = List.replicate (parents + 1) ".." := by
  cases parents with
  | zero => rfl
  | succ parents =>
    have hlast : (List.replicate (parents + 1) "..").getLast? = some ".." := by
      rw [List.replicate_succ', List.getLast?_concat]
    unfold pushSegment
    rw [hlast]
    exact List.replicate_succ'.symm

/-- One more segment behind normalized ones. -/
theorem segmentsNormal_push (h : SegmentsNormal absolute segments) (segment : String) :
    SegmentsNormal absolute (pushSegment absolute segments segment) := by
  obtain ⟨parents, names, rfl, habsolute, hnames⟩ := h
  by_cases hskip : segment = "" ∨ segment = "."
  · unfold pushSegment
    rw [if_pos hskip]
    exact ⟨parents, names, rfl, habsolute, hnames⟩
  by_cases hparent : segment = ".."
  · subst hparent
    rcases List.eq_nil_or_concat names with rfl | ⟨front, last, rfl⟩
    · -- Only parents so far: one more, or none when there is nothing above.
      rw [List.append_nil]
      cases absolute with
      | true =>
        rw [habsolute rfl]
        exact segmentsNormal_nil true
      | false =>
        rw [pushSegment_parents]
        exact ⟨parents + 1, [], (List.append_nil _).symm, fun h => (nomatch h),
          fun _ h => (nomatch h)⟩
    · -- The last name goes.
      have hlast := (hnames last (by simp)).2.2
      unfold pushSegment
      rw [if_neg hskip, if_pos rfl, List.concat_eq_append, ← List.append_assoc,
        List.getLast?_concat]
      dsimp only
      rw [if_pos hlast, List.dropLast_concat]
      exact ⟨parents, front, rfl, habsolute, fun name hname => hnames name (by simp [hname])⟩
  · have hname : segment ≠ "" ∧ segment ≠ "." ∧ segment ≠ ".." :=
      ⟨fun h => hskip (.inl h), fun h => hskip (.inr h), hparent⟩
    rw [pushSegment_name hname]
    refine ⟨parents, names ++ [segment], List.append_assoc _ _ _, habsolute, ?_⟩
    intro name hmem
    rcases List.mem_append.mp hmem with hold | hnew
    · exact hnames name hold
    · obtain rfl := List.mem_singleton.mp hnew
      exact hname

theorem segmentsNormal_normalize (absolute : Bool) (raw : List String) :
    SegmentsNormal absolute (normalizeSegments absolute raw) := by
  have hfold : ∀ segments, SegmentsNormal absolute segments →
      SegmentsNormal absolute (raw.foldl (pushSegment absolute) segments) := by
    induction raw with
    | nil => exact fun _ h => h
    | cons segment rest ih => exact fun segments h => ih _ (segmentsNormal_push h segment)
  exact hfold [] (segmentsNormal_nil absolute)

/-- Names are taken as they are. -/
theorem foldl_pushSegment_names {names : List String}
    (h : ∀ name ∈ names, name ≠ "" ∧ name ≠ "." ∧ name ≠ "..") (segments : List String) :
    names.foldl (pushSegment absolute) segments = segments ++ names := by
  induction names generalizing segments with
  | nil => rw [List.foldl_nil, List.append_nil]
  | cons name rest ih =>
    obtain ⟨hname, hrest⟩ := List.forall_mem_cons.mp h
    rw [List.foldl_cons, pushSegment_name hname, ih hrest, List.append_assoc,
      List.singleton_append]

/-- Parents of a relative path are kept. -/
theorem foldl_pushSegment_parents (parents : Nat) :
    (List.replicate parents "..").foldl (pushSegment false) [] = List.replicate parents ".." := by
  induction parents with
  | zero => rfl
  | succ parents ih =>
    rw [List.replicate_succ', List.foldl_append, ih, List.foldl_cons, List.foldl_nil,
      pushSegment_parents, List.replicate_succ']

theorem normalizeSegments_of_normal (h : SegmentsNormal absolute segments) :
    normalizeSegments absolute segments = segments := by
  obtain ⟨parents, names, rfl, habsolute, hnames⟩ := h
  unfold normalizeSegments
  rw [List.foldl_append, foldl_pushSegment_names hnames]
  cases absolute with
  | true => rw [habsolute rfl]; rfl
  | false => rw [foldl_pushSegment_parents]

theorem FsPath.segmentsNormal (path : FsPath) : SegmentsNormal path.absolute path.segments := by
  rw [← path.normal]
  exact segmentsNormal_normalize path.absolute path.segments

namespace FsPath

/-- A path of segments that are to be normalized. -/
def ofSegments (absolute : Bool) (raw : List String) : FsPath :=
  ⟨absolute, normalizeSegments absolute raw,
    normalizeSegments_of_normal (segmentsNormal_normalize absolute raw)⟩

/-- Parses a path. -/
def new (path : String) : Except FsPathError FsPath :=
  if path = "" then .error .empty
  else if '\x00' ∈ path.toList then .error .nulByte
  else if '\\' ∈ path.toList then .error (.nonUnixSeparator path)
  else
    .ok (ofSegments (path.toList.head? == some '/')
      ((path.toList.splitOn '/').map String.ofList))

def root : FsPath := ⟨true, [], rfl⟩

/-- The path as a text. -/
def asStr (path : FsPath) : String :=
  if path.absolute then "/" ++ "/".intercalate path.segments
  else if path.segments.isEmpty then "."
  else "/".intercalate path.segments

/-- The root, or the directory that relative paths start from. -/
def isRoot (path : FsPath) : Bool := path.segments.isEmpty

def hasUnresolvedParent (path : FsPath) : Bool := path.segments.any (· == "..")

/-- A path behind another. -/
def joinPath (base path : FsPath) : FsPath :=
  if path.absolute then path
  else if path.segments.isEmpty then base
  else ofSegments base.absolute (base.segments ++ path.segments)

def parent (path : FsPath) : Option FsPath :=
  if path.isRoot then none else some (ofSegments path.absolute path.segments.dropLast)

end FsPath

/-! ## Failures -/

/-- `FsError`, whatever the paths are. -/
inductive FsErrorOf (Path : Type) where
  | invalidPath (error : FsPathError)
  | notFound (path : Path)
  | alreadyExists (path : Path)
  | conflict (path : Path)
  | permissionDenied (path : Path)
  | unavailable (path : Path) (message : String)
  | unsupported (message : String)
  | invalidInput (message : String)
  | invalidData (message : String)
  | failed (message : String)
  deriving DecidableEq

abbrev FsError := FsErrorOf FsPath

/-- The version of a file's contents. -/
abbrev FsVersion := String

structure RemoveOptions where
  recursive : Bool
  force : Bool

/-- Removes a file. -/
def RemoveOptions.file : RemoveOptions := ⟨false, false⟩

structure RenameOptions where
  /-- An existing destination file is replaced. -/
  overwrite : Bool := false

structure WriteOptions where
  /-- The file is written only while it has this version. -/
  ifMatch : Option FsVersion := none

/-! ## Paths of the versioned filesystem -/

inductive VfsPathError where
  | empty
  | containsNul (path : String)
  | invalidComponent (path component : String)
  deriving DecidableEq

/-- The components of a path below the root. -/
structure VfsPath where
  components : List String
  /-- No component is empty, a dot or two. -/
  valid : ∀ component ∈ components, component ≠ "" ∧ component ≠ "." ∧ component ≠ ".."
  deriving DecidableEq

namespace VfsPath

def root : VfsPath := ⟨[], fun _ h => (nomatch h)⟩

def isRoot (path : VfsPath) : Bool := path.components.isEmpty

def asStr (path : VfsPath) : String := "/" ++ "/".intercalate path.components

def depth (path : VfsPath) : Nat := path.components.length

/-- The path is the base, or below it. -/
def startsWith (path base : VfsPath) : Bool := base.components.isPrefixOf path.components

/-- The path of the first components. -/
def take (path : VfsPath) (n : Nat) : VfsPath :=
  ⟨path.components.take n, fun c hc => path.valid c (List.mem_of_mem_take hc)⟩

def drop (path : VfsPath) (n : Nat) : VfsPath :=
  ⟨path.components.drop n, fun c hc => path.valid c (List.mem_of_mem_drop hc)⟩

/-- What stands behind a leading slash. -/
def stripSlash : List Char → List Char
  | '/' :: rest => rest
  | chars => chars

/-- A path is read from text: a slash may lead, and no component is empty, a dot or two. -/
def parse (value : String) : Except VfsPathError VfsPath :=
  if value = "" then .error .empty
  else if '\x00' ∈ value.toList then .error (.containsNul value)
  else if value = "/" then .ok root
  else
    let trimmed := stripSlash value.toList
    if trimmed.isEmpty then .error (.invalidComponent value "")
    else
      let components := (trimmed.splitOn '/').map String.ofList
      if h : ∀ component ∈ components, component ≠ "" ∧ component ≠ "." ∧ component ≠ ".." then
        .ok ⟨components, h⟩
      else
        .error (.invalidComponent value
          ((components.find? fun component => component = "" ∨ component = "." ∨ component = "..").getD ""))

/-- The components of a path that was read have no slash and no zero byte in them. -/
theorem chars_of_parse {value : String} {path : VfsPath} (h : parse value = .ok path) :
    ∀ component ∈ path.components, '/' ∉ component.toList ∧ '\x00' ∉ component.toList := by
  unfold parse at h
  split_ifs at h with hempty hnul hroot
  · obtain rfl := Except.ok.inj h
    exact fun component hcomponent => (nomatch hcomponent)
  · have hsubset : stripSlash value.toList ⊆ value.toList := by
      unfold stripSlash
      split
      · rename_i rest hvalue
        rw [hvalue]
        exact List.subset_cons_self '/' rest
      · exact List.Subset.refl _
    dsimp only at h
    split_ifs at h with hblank hvalid
    obtain rfl := Except.ok.inj h
    intro component hcomponent
    obtain ⟨part, hpart, rfl⟩ := List.mem_map.mp hcomponent
    rw [String.toList_ofList]
    exact ⟨not_mem_of_mem_splitOn hpart, fun hmem => hnul (hsubset (subset_of_mem_splitOn hpart hmem))⟩

end VfsPath

/-- The segments of a path without parents are valid components. -/
theorem components_valid {path : FsPath} (h : path.hasUnresolvedParent = false) :
    ∀ component ∈ path.segments, component ≠ "" ∧ component ≠ "." ∧ component ≠ ".." := by
  obtain ⟨parents, names, hsegments, -, hnames⟩ := path.segmentsNormal
  have hnone : parents = 0 := by
    by_contra hparents
    obtain ⟨more, rfl⟩ := Nat.exists_eq_succ_of_ne_zero hparents
    have hmem : ".." ∈ path.segments := by rw [hsegments]; simp [List.replicate_succ]
    have hany : path.hasUnresolvedParent = true := List.any_eq_true.mpr ⟨"..", hmem, by decide⟩
    rw [h] at hany
    cases hany
  rw [hsegments, hnone]
  simpa using hnames

/-- A path from the root of the versioned filesystem: a relative one starts there too. -/
def fsPathToVfsPath (path : FsPath) : Except FsError VfsPath :=
  if h : path.hasUnresolvedParent = false then .ok ⟨path.segments, components_valid h⟩
  else .error (.invalidInput ("vfs path cannot contain unresolved parent components: " ++ path.asStr))

def vfsPathToFsPath (path : VfsPath) : FsPath := .ofSegments true path.components

end Lightspeed.Files
