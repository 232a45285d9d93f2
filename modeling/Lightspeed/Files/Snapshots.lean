import Lightspeed.Files.FileTree
import Lightspeed.Files.Insertion
import Mathlib.Data.List.Pairwise
import Mathlib.Data.List.Sort

/-!
# Snapshots of inline files

A snapshot is made of files that are given with their bytes. They are checked as a whole before anything is stored:
against the limits, and by putting them into an empty tree. Then their blobs are stored and they are put into the
tree of the manifest, which stands for these files whatever their order.
-/

namespace Lightspeed.Files

open Lib

/-! ## Requests -/

/-- A file with its bytes, at a path that was read from text. -/
structure InlineFile where
  path : VfsPath
  bytes : List UInt8
  mediaType : Option String := none
  executable : Bool := false
  parsed : path.Parsed

structure VfsSnapshotLimits where
  maxFiles : UInt64 := 10000
  maxTotalBytes : UInt64 := 512 * 1024 * 1024
  maxSingleFileBytes : UInt64 := 128 * 1024 * 1024
  maxDepth : UInt64 := 64

structure CreateInlineSnapshotRequest where
  files : List InlineFile
  limits : VfsSnapshotLimits := {}

/-- The reference of no bytes. -/
def BlobRef.default : BlobRef := "sha256:e3b0c44298fc1c149afbf4c8996fb92427ae41e4649b934ca495991b7852b855"

namespace InlineFile

def sizeBytes (file : InlineFile) : Nat := file.bytes.length

/-- The file in a manifest, once its bytes have a reference. -/
def staged (file : InlineFile) (blobRef : BlobRef) : VfsPath × VfsFile :=
  (file.path, { blobRef, sizeBytes := file.sizeBytes, mediaType := file.mediaType, executable := file.executable })

end InlineFile

/-! ## Validation -/

/-- Checks a file, behind the paths that were seen and the bytes that were counted. -/
def validateInlineFile (limits : VfsSnapshotLimits) (checked : List VfsPath × Nat) (file : InlineFile) :
    Except VfsError (List VfsPath × Nat) := do
  require (file.path.isRoot = false) .rootFile
  require (file.path ∉ checked.1) (.duplicatePath file.path)
  require (file.path.depth ≤ limits.maxDepth.toNat)
    (.limitExceeded "depth" file.path.depth limits.maxDepth.toNat)
  require (file.sizeBytes ≤ limits.maxSingleFileBytes.toNat)
    (.limitExceeded "single_file_bytes" file.sizeBytes limits.maxSingleFileBytes.toNat)
  require (checked.2 + file.sizeBytes < 2 ^ 64)
    (.limitExceeded "total_bytes" (2 ^ 64 - 1) limits.maxTotalBytes.toNat)
  require (checked.2 + file.sizeBytes ≤ limits.maxTotalBytes.toNat)
    (.limitExceeded "total_bytes" (checked.2 + file.sizeBytes) limits.maxTotalBytes.toNat)
  return (file.path :: checked.1, checked.2 + file.sizeBytes)

def validateInlineFiles (files : List InlineFile) (limits : VfsSnapshotLimits) : Except VfsError Unit := do
  require (files.length ≤ limits.maxFiles.toNat) (.limitExceeded "files" files.length limits.maxFiles.toNat)
  let _ ← files.foldlM (validateInlineFile limits) ([], 0)
  let _ ← insertFiles [] (files.map fun file => file.staged .default)

/-! ## Snapshots -/

/-- A store of blobs, which names them by their bytes. Its calls change the world outside, whether they fail or not. -/
structure BlobStore (World : Type) where
  fromBytes : List UInt8 → BlobRef
  putBytes : List UInt8 → World → Except BlobStoreError BlobRef × World
  putMany : List (List UInt8) → World → Except BlobStoreError (List BlobRef) × World
  /-- One reference a blob, in the order of the blobs. -/
  putMany_refs : ∀ blobs world refs, (putMany blobs world).1 = .ok refs → refs = blobs.map fromBytes

/-- An edge from a blob to one that it has the reference of. -/
structure BlobEdge where
  parent : BlobRef
  child : BlobRef
  edgeKind : String := "contains"

/-- A store of edges. -/
structure BlobGraphStore (World : Type) where
  recordBlobEdges : List BlobEdge → World → Except BlobStoreError Unit × World

structure CreateVfsSnapshotResult where
  snapshotRef : BlobRef
  manifest : VfsSnapshotManifest

section Create

variable {World : Type}

/-- A call of a store. -/
def storeCall {α : Type} (call : World → Except BlobStoreError α × World) : InPlace VfsError World α :=
  calling .blobStore call

mutual

def entryBlobRefs : VfsEntry → List BlobRef
  | .file file => [file.blobRef]
  | .directory entries => directoryBlobRefs entries

def directoryBlobRefs : List (String × VfsEntry) → List BlobRef
  | [] => []
  | (_, entry) :: rest => entryBlobRefs entry ++ directoryBlobRefs rest

end

/-- Every blob that a manifest names, in order and once. -/
def manifestBlobRefs (manifest : VfsSnapshotManifest) : List BlobRef :=
  (directoryBlobRefs manifest.root).dedup.mergeSort

def recordContainsEdges (blobGraph : Option (BlobGraphStore World)) (parent : BlobRef) (children : List BlobRef) :
    InPlace VfsError World Unit :=
  match blobGraph with
  | none => pure ()
  | some blobGraph =>
    let edges := (children.filter (· ≠ parent)).map fun child => { parent, child : BlobEdge }
    if edges.isEmpty then pure () else storeCall (blobGraph.recordBlobEdges edges)

/-- Puts a file into a manifest and counts it. -/
def stageFile (manifest : VfsSnapshotManifest) (file : VfsPath × VfsFile) : Except VfsError VfsSnapshotManifest := do
  let root ← insertFile manifest.root file.1 file.2
  return { manifest with
    root
    totals := ⟨(manifest.totals.files + 1) % 2 ^ 64, (manifest.totals.bytes + file.2.sizeBytes) % 2 ^ 64⟩ }

/-- The bytes of a manifest that validates. -/
def encodeSnapshotManifest (toVec : VfsSnapshotManifest → List UInt8) (manifest : VfsSnapshotManifest) :
    Except VfsError (List UInt8) := do
  manifest.validate
  return toVec manifest

/-- Stores every file and then the manifest. -/
def createInlineSnapshot (toVec : VfsSnapshotManifest → List UInt8) (blobs : BlobStore World)
    (blobGraph : Option (BlobGraphStore World)) (request : CreateInlineSnapshotRequest) :
    InPlace VfsError World CreateVfsSnapshotResult := do
  ofResult (validateInlineFiles request.files request.limits)
  let blobRefs ← storeCall (blobs.putMany (request.files.map InlineFile.bytes))
  let manifest ← ofResult ((request.files.zipWith InlineFile.staged blobRefs).foldlM stageFile .empty)
  let manifestBytes ← ofResult (encodeSnapshotManifest toVec manifest)
  let snapshotRef ← storeCall (blobs.putBytes manifestBytes)
  recordContainsEdges blobGraph snapshotRef (manifestBlobRefs manifest)
  return { snapshotRef, manifest }

end Create

/-! ## What is accepted -/

/-- One path leads through the other. -/
def ProperAncestor (ancestor path : VfsPath) : Prop :=
  ancestor ≠ path ∧ ancestor.components <+: path.components

/-- Files that a snapshot can be made of. -/
structure Acceptable (files : List InlineFile) (limits : VfsSnapshotLimits) : Prop where
  notRoot : ∀ file ∈ files, file.path.isRoot = false
  distinct : files.Pairwise fun a b => a.path ≠ b.path
  noAncestor : ∀ a ∈ files, ∀ b ∈ files, ¬ ProperAncestor a.path b.path
  count : files.length ≤ limits.maxFiles.toNat
  depth : ∀ file ∈ files, file.path.depth ≤ limits.maxDepth.toNat
  single : ∀ file ∈ files, file.sizeBytes ≤ limits.maxSingleFileBytes.toNat
  total : (files.map InlineFile.sizeBytes).sum ≤ limits.maxTotalBytes.toNat

variable {files other : List InlineFile} {limits : VfsSnapshotLimits} {file : InlineFile} {path : VfsPath}

/-- What is checked of each file by itself. -/
def WithinLimits (limits : VfsSnapshotLimits) (file : InlineFile) : Prop :=
  file.path.isRoot = false ∧ file.path.depth ≤ limits.maxDepth.toNat ∧
    file.sizeBytes ≤ limits.maxSingleFileBytes.toNat

theorem validateInlineFile_eq_ok {checked after : List VfsPath × Nat} :
    validateInlineFile limits checked file = .ok after ↔
      WithinLimits limits file ∧ file.path ∉ checked.1 ∧
        checked.2 + file.sizeBytes ≤ limits.maxTotalBytes.toNat ∧
        after = (file.path :: checked.1, checked.2 + file.sizeBytes) := by
  have hlimit : limits.maxTotalBytes.toNat < 2 ^ 64 := limits.maxTotalBytes.toNat_lt
  unfold validateInlineFile WithinLimits
  simp only [bind_eq_ok, require_eq_ok, exists_unit, pure_eq_ok]
  grind

/-- The check of all files, behind some that were checked. -/
theorem foldlM_validateInlineFile {checked : List VfsPath × Nat} (htotal : checked.2 ≤ limits.maxTotalBytes.toNat) :
    (∃ after, files.foldlM (validateInlineFile limits) checked = .ok after) ↔
      (∀ file ∈ files, WithinLimits limits file ∧ file.path ∉ checked.1) ∧
        files.Pairwise (fun a b => a.path ≠ b.path) ∧
        checked.2 + (files.map InlineFile.sizeBytes).sum ≤ limits.maxTotalBytes.toNat := by
  induction files generalizing checked with
  | nil => simp [htotal, pure, Except.pure]
  | cons first rest ih =>
    simp only [foldlM_cons_eq_ok, validateInlineFile_eq_ok, List.forall_mem_cons, List.pairwise_cons, List.map_cons,
      List.sum_cons]
    constructor
    · rintro ⟨after, middle, ⟨hfirst, hseen, hsum, rfl⟩, hrest⟩
      obtain ⟨hall, hdistinct, hrest⟩ := (ih hsum).mp ⟨after, hrest⟩
      refine ⟨⟨⟨hfirst, hseen⟩, fun file hfile => ?_⟩, ⟨fun file hfile heq => ?_, hdistinct⟩, ?_⟩
      · exact ⟨(hall file hfile).1, fun hmem => (hall file hfile).2 (List.mem_cons_of_mem _ hmem)⟩
      · exact (hall file hfile).2 (List.mem_cons.mpr (Or.inl heq.symm))
      · rwa [Nat.add_assoc] at hrest
    · rintro ⟨⟨⟨hfirst, hseen⟩, hall⟩, ⟨hne, hdistinct⟩, hsum⟩
      have hmiddle : checked.2 + first.sizeBytes ≤ limits.maxTotalBytes.toNat := by omega
      have hrest : ∀ file ∈ rest, WithinLimits limits file ∧ file.path ∉ first.path :: checked.1 := by
        intro file hfile
        refine ⟨(hall file hfile).1, fun hmem => ?_⟩
        rcases List.mem_cons.mp hmem with heq | hmem
        · exact hne file hfile heq.symm
        · exact (hall file hfile).2 hmem
      have hafter : ∃ after, rest.foldlM (validateInlineFile limits)
          (first.path :: checked.1, checked.2 + first.sizeBytes) = .ok after :=
        (ih hmiddle).mpr ⟨hrest, hdistinct, by rwa [Nat.add_assoc]⟩
      obtain ⟨after, hafter⟩ := hafter
      exact ⟨after, _, ⟨hfirst, hseen, hmiddle, rfl⟩, hafter⟩

/-- Paths that are distinct, with none above another, are apart. -/
theorem pairwise_apart_iff :
    files.Pairwise (fun a b => Apart a.path.components b.path.components) ↔
      files.Pairwise (fun a b => a.path ≠ b.path) ∧ ∀ a ∈ files, ∀ b ∈ files, ¬ ProperAncestor a.path b.path := by
  constructor
  · intro h
    have hne : ∀ {a b : InlineFile}, Apart a.path.components b.path.components → a.path ≠ b.path := by
      intro a b hapart heq
      rw [heq] at hapart
      exact hapart.1 (List.prefix_refl _)
    refine ⟨h.imp hne, ?_⟩
    rintro a ha b hb ⟨hne, hprefix⟩
    have hab : a ≠ b := fun heq => hne (heq ▸ rfl)
    have hsymm : Std.Symm fun a b : InlineFile => Apart a.path.components b.path.components :=
      ⟨fun _ _ hapart => hapart.symm⟩
    exact (h.forall ha hb hab).1 hprefix
  · rintro ⟨hdistinct, hancestor⟩
    apply hdistinct.imp_of_mem
    intro a b ha hb hne
    exact ⟨fun hprefix => hancestor a ha b hb ⟨hne, hprefix⟩, fun hprefix => hancestor b hb a ha ⟨hne.symm, hprefix⟩⟩

theorem isRoot_eq_false : path.isRoot = false ↔ path.components ≠ [] := by
  unfold VfsPath.isRoot
  cases path.components <;> simp

/-- Files go into an empty tree exactly when their paths are distinct, none is the root and none is above another,
whatever their references are. -/
theorem insertFiles_staged (refOf : InlineFile → BlobRef) :
    (∃ made, insertFiles [] (files.map fun file => file.staged (refOf file)) = .ok made) ↔
      (∀ file ∈ files, file.path.isRoot = false) ∧ files.Pairwise (fun a b => a.path ≠ b.path) ∧
        ∀ a ∈ files, ∀ b ∈ files, ¬ ProperAncestor a.path b.path := by
  have hclear : ∀ components, Clear [] components := by
    intro components sought there hthere
    cases sought <;> cases hthere
  rw [insertFiles_eq_ok grown_nil, List.forall_mem_map, List.pairwise_map]
  have hroot : ∀ file : InlineFile, ((file.staged (refOf file)).1.components ≠ [] ∧
      Clear [] (file.staged (refOf file)).1.components) ↔ file.path.isRoot = false := fun file => by
    rw [isRoot_eq_false]
    exact and_iff_left (hclear _)
  simp only [hroot]
  exact and_congr_right fun _ => pairwise_apart_iff

/-- The files that are accepted. -/
theorem validateInlineFiles_eq_ok : validateInlineFiles files limits = .ok () ↔ Acceptable files limits := by
  have hchecks : (∃ after, files.foldlM (validateInlineFile limits) ([], 0) = .ok after) ↔ _ :=
    foldlM_validateInlineFile (Nat.zero_le _)
  have hinserted : (∃ made, insertFiles [] (files.map fun file => file.staged .default) = .ok made) ↔ _ :=
    insertFiles_staged fun _ => .default
  have hvalidate : validateInlineFiles files limits = .ok () ↔ files.length ≤ limits.maxFiles.toNat ∧
      (∃ after, files.foldlM (validateInlineFile limits) ([], 0) = .ok after) ∧
      ∃ made, insertFiles [] (files.map fun file => file.staged .default) = .ok made := by
    unfold validateInlineFiles
    simp only [bind_eq_ok, require_eq_ok, exists_unit, pure_eq_ok, and_true, ← exists_and_right]
  rw [hvalidate, hchecks, hinserted]
  constructor
  · rintro ⟨hcount, ⟨hall, hdistinct, htotal⟩, hroot, -, hancestor⟩
    rw [Nat.zero_add] at htotal
    exact ⟨hroot, hdistinct, hancestor, hcount, fun file hfile => (hall file hfile).1.2.1,
      fun file hfile => (hall file hfile).1.2.2, htotal⟩
  · intro h
    refine ⟨h.count, ⟨fun file hfile => ⟨?_, List.not_mem_nil⟩, h.distinct, ?_⟩, h.notRoot, h.distinct, h.noAncestor⟩
    · exact ⟨h.notRoot file hfile, h.depth file hfile, h.single file hfile⟩
    · rw [Nat.zero_add]
      exact h.total

/-! ## What is made -/

section Made

variable {World : Type} {toVec : VfsSnapshotManifest → List UInt8} {blobs : BlobStore World}
  {blobGraph : Option (BlobGraphStore World)} {world after : World} {manifest : VfsSnapshotManifest}
  {made : VfsDirectory} {staged : List (VfsPath × VfsFile)} {refOf : InlineFile → BlobRef}

/-- The files and the bytes of what is staged. -/
def stagedSize (staged : List (VfsPath × VfsFile)) : VfsTotals :=
  ⟨staged.length, (staged.map fun put => put.2.sizeBytes).sum⟩

theorem stagedSize_cons {first : VfsPath × VfsFile} :
    stagedSize (first :: staged) = VfsTotals.plus ⟨1, first.2.sizeBytes⟩ (stagedSize staged) := by
  unfold stagedSize VfsTotals.plus
  rw [List.length_cons, List.map_cons, List.sum_cons, Nat.add_comm]

/-- Files that go into the tree of a manifest go into the manifest, and are counted while the numbers fit. -/
theorem foldlM_stageFile (h : insertFiles manifest.root staged = .ok made)
    (hfits : (manifest.totals.plus (stagedSize staged)).Fits) :
    staged.foldlM stageFile manifest =
      .ok { manifest with root := made, totals := manifest.totals.plus (stagedSize staged) } := by
  induction staged generalizing manifest with
  | nil =>
    obtain rfl := Except.ok.inj h
    rfl
  | cons first rest ih =>
    obtain ⟨middle, hfirst, hrest⟩ := foldlM_cons_eq_ok.mp h
    rw [stagedSize_cons, ← VfsTotals.plus_assoc] at hfits ⊢
    have hstage : stageFile manifest first =
        .ok { manifest with root := middle, totals := manifest.totals.plus ⟨1, first.2.sizeBytes⟩ } := by
      have hfiles : (manifest.totals.files + 1) % 2 ^ 64 = manifest.totals.files + 1 := Nat.mod_eq_of_lt hfits.left.1
      have hbytes : (manifest.totals.bytes + first.2.sizeBytes) % 2 ^ 64 = manifest.totals.bytes + first.2.sizeBytes :=
        Nat.mod_eq_of_lt hfits.left.2
      unfold stageFile
      rw [hfirst, ok_bind, hfiles, hbytes]
      rfl
    rw [List.foldlM_cons, hstage, ok_bind]
    exact ih hrest hfits

/-- The manifest of a tree. -/
def manifestOf (root : VfsDirectory) : VfsSnapshotManifest := { root, totals := directorySize root }

/-- What files weigh that go into a tree. -/
theorem size_insertFiles (h : insertFiles [] staged = .ok made) : directorySize made = stagedSize staged := by
  unfold directorySize stagedSize
  rw [weight_insertFiles grown_nil h, weight_insertFiles grown_nil h]
  simp [directoryWeight]

/-- Files that are accepted make a manifest that validates. -/
theorem exists_manifest (h : Acceptable files limits) (refOf : InlineFile → BlobRef) :
    ∃ made, insertFiles [] (files.map fun file => file.staged (refOf file)) = .ok made ∧
      (files.map fun file => file.staged (refOf file)).foldlM stageFile .empty = .ok (manifestOf made) ∧
      (manifestOf made).validate = .ok () := by
  obtain ⟨made, hmade⟩ := (insertFiles_staged refOf).mpr ⟨h.notRoot, h.distinct, h.noAncestor⟩
  have hsize := size_insertFiles hmade
  have hfits : (directorySize made).Fits := by
    rw [hsize]
    constructor
    · have hcount : files.length < 2 ^ 64 := lt_of_le_of_lt h.count limits.maxFiles.toNat_lt
      simpa [stagedSize] using hcount
    · have htotal : (files.map InlineFile.sizeBytes).sum < 2 ^ 64 :=
        lt_of_le_of_lt h.total limits.maxTotalBytes.toNat_lt
      simpa [stagedSize, InlineFile.staged, Function.comp_def] using htotal
  have hnames : EntryAll NamesValid (.directory made) := by
    refine insertFiles_preserves (P := fun root => EntryAll NamesValid (.directory root)) ?_ ?_ hmade
    · intro put hput root inserted hinserted hroot
      obtain ⟨file, -, rfl⟩ := List.mem_map.mp hput
      exact names_insertFile file.parsed.names hroot hinserted
    · exact ⟨by simp [NamesValid], trivial⟩
  refine ⟨made, hmade, ?_, validate_of_fits rfl hnames rfl hfits⟩
  have hempty : VfsSnapshotManifest.empty.totals.plus (directorySize made) = directorySize made := VfsTotals.zero_plus
  rw [hsize] at hempty hfits
  rw [foldlM_stageFile hmade (hempty.symm ▸ hfits), hempty, ← hsize]
  rfl

/-! ## What is stored -/

/-- A call of the stores failed. -/
def StoreFailed (blobs : BlobStore World) (blobGraph : Option (BlobGraphStore World)) (failure : BlobStoreError) :
    Prop :=
  (∃ contents world, (blobs.putMany contents world).1 = .error failure) ∨
    (∃ bytes world, (blobs.putBytes bytes world).1 = .error failure) ∨
    ∃ graph edges world, blobGraph = some graph ∧ (graph.recordBlobEdges edges world).1 = .error failure

theorem storeCall_ok {α : Type} {call : World → Except BlobStoreError α × World} {value : α}
    (h : (call world).1 = .ok value) : runOn (storeCall call) world = (.ok value, (call world).2) :=
  runOn_calling_ok (Prod.ext h rfl)

theorem storeCall_error {α : Type} {call : World → Except BlobStoreError α × World} {failure : BlobStoreError}
    (h : (call world).1 = .error failure) :
    runOn (storeCall call) world = (.error (.blobStore failure), (call world).2) :=
  runOn_calling_error (Prod.ext h rfl)

theorem recordContainsEdges_run (parent : BlobRef) (children : List BlobRef) (world : World) :
    (∃ failure after, StoreFailed blobs blobGraph failure ∧
      runOn (recordContainsEdges blobGraph parent children) world = (.error (.blobStore failure), after)) ∨
    ∃ after, runOn (recordContainsEdges blobGraph parent children) world = (.ok (), after) := by
  unfold recordContainsEdges
  cases blobGraph with
  | none => exact Or.inr ⟨world, rfl⟩
  | some graph =>
    dsimp only
    split_ifs with hempty
    · exact Or.inr ⟨world, rfl⟩
    · cases hcall : (graph.recordBlobEdges _ world).1 with
      | error failure =>
        exact Or.inl ⟨failure, _, Or.inr (Or.inr ⟨graph, _, world, rfl, hcall⟩), storeCall_error hcall⟩
      | ok _ => exact Or.inr ⟨_, storeCall_ok hcall⟩

/-- A request that is refused stores nothing. -/
theorem createInlineSnapshot_refused {e : VfsError} (h : validateInlineFiles files limits = .error e) :
    runOn (createInlineSnapshot toVec blobs blobGraph ⟨files, limits⟩) world = (.error e, world) :=
  ofResult_bind_error h

/-- A request that is accepted makes its manifest, or a store fails. -/
theorem createInlineSnapshot_run (h : Acceptable files limits) :
    (∃ failure after, StoreFailed blobs blobGraph failure ∧
      runOn (createInlineSnapshot toVec blobs blobGraph ⟨files, limits⟩) world = (.error (.blobStore failure), after)) ∨
    ∃ made snapshotRef after,
      insertFiles [] (files.map fun file => file.staged (blobs.fromBytes file.bytes)) = .ok made ∧
      (manifestOf made).validate = .ok () ∧
      runOn (createInlineSnapshot toVec blobs blobGraph ⟨files, limits⟩) world =
        (.ok ⟨snapshotRef, manifestOf made⟩, after) := by
  obtain ⟨made, hmade, hmanifest, hvalid⟩ := exists_manifest h fun file => blobs.fromBytes file.bytes
  unfold createInlineSnapshot
  rw [ofResult_bind_ok (validateInlineFiles_eq_ok.mpr h)]
  cases hmany : (blobs.putMany (files.map InlineFile.bytes) world).1 with
  | error failure =>
    exact Or.inl ⟨failure, _, Or.inl ⟨_, world, hmany⟩, runOn_bind_error (storeCall_error hmany)⟩
  | ok refs =>
    have hstaged : files.zipWith InlineFile.staged refs =
        files.map fun file => file.staged (blobs.fromBytes file.bytes) := by
      rw [blobs.putMany_refs _ world refs hmany]
      simp [List.zipWith_map_right]
    have hencoded : encodeSnapshotManifest toVec (manifestOf made) = .ok (toVec (manifestOf made)) := by
      unfold encodeSnapshotManifest
      rw [hvalid, ok_bind]
      rfl
    rw [runOn_bind_ok (storeCall_ok hmany), ofResult_bind_ok (hstaged ▸ hmanifest), ofResult_bind_ok hencoded]
    generalize (blobs.putMany (files.map InlineFile.bytes) world).2 = stored
    cases hput : (blobs.putBytes (toVec (manifestOf made)) stored).1 with
    | error failure =>
      exact Or.inl ⟨failure, _, Or.inr (Or.inl ⟨_, stored, hput⟩), runOn_bind_error (storeCall_error hput)⟩
    | ok snapshotRef =>
      rw [runOn_bind_ok (storeCall_ok hput)]
      rcases recordContainsEdges_run snapshotRef (manifestBlobRefs (manifestOf made)) _ with
        ⟨failure, after, hfailed, hedges⟩ | ⟨after, hedges⟩
      · exact Or.inl ⟨failure, after, hfailed, runOn_bind_error hedges⟩
      · exact Or.inr ⟨made, snapshotRef, after, hmade, hvalid, runOn_bind_ok hedges⟩

/-! ## Snapshots of files that are accepted -/

/-- A manifest has these files at their paths, their bytes by reference, and no others, and only the directories
above them. -/
structure Contains (fromBytes : List UInt8 → BlobRef) (files : List InlineFile) (manifest : VfsSnapshotManifest) :
    Prop where
  filesAt : ∀ path file, manifestFile manifest path = some file ↔
    ∃ given ∈ files, given.path = path ∧ (given.staged (fromBytes given.bytes)).2 = file
  directoriesAt : ∀ path, (∃ found, lookupSnapshotPath manifest path = .ok (.directory found)) ↔
    path = .root ∨ ∃ given ∈ files, ProperAncestor path given.path

theorem fileAt_staged {components : List String} {found : VfsFile}
    (h : insertFiles [] (files.map fun file => file.staged (refOf file)) = .ok made) :
    fileAt made components = some found ↔
      ∃ given ∈ files, given.path.components = components ∧ (given.staged (refOf given)).2 = found := by
  have hnone : fileAt [] components ≠ some found := by cases components <;> simp [fileAt, VfsDirectory.entry]
  rw [fileAt_insertFiles grown_nil h, or_iff_left hnone]
  simp only [List.mem_map, exists_exists_and_eq_and]
  rfl

theorem contains_made {fromBytes : List UInt8 → BlobRef}
    (h : insertFiles [] (files.map fun file => file.staged (fromBytes file.bytes)) = .ok made) :
    Contains fromBytes files (manifestOf made) := by
  have hgrown : Grown made := grown_nil.insertFiles h
  constructor
  · intro path found
    rw [manifestFile_eq, show (manifestOf made).root = made from rfl, fileAt_staged h]
    constructor
    · rintro ⟨given, hgiven, hpath, hfound⟩
      exact ⟨given, hgiven, VfsPath.ext_components hpath, hfound⟩
    · rintro ⟨given, hgiven, rfl, hfound⟩
      exact ⟨given, hgiven, rfl, hfound⟩
  · intro path
    have hroot : path.components = [] ↔ path = .root :=
      ⟨fun hnil => VfsPath.ext_components hnil, fun heq => heq ▸ rfl⟩
    unfold lookupSnapshotPath
    rw [show (manifestOf made).root = made from rfl, lookupEntry_directory hgrown.filled, hroot]
    apply or_congr_right
    constructor
    · rintro ⟨rest, found, hrest, hfound⟩
      obtain ⟨given, hgiven, hpath, -⟩ := (fileAt_staged h).mp hfound
      refine ⟨given, hgiven, ?_, rest, hpath.symm⟩
      rintro rfl
      exact hrest (List.self_eq_append_right.mp hpath)
    · rintro ⟨given, hgiven, hne, rest, hpath⟩
      refine ⟨rest, _, ?_, (fileAt_staged h).mpr ⟨given, hgiven, hpath.symm, rfl⟩⟩
      rintro rfl
      rw [List.append_nil] at hpath
      exact hne (VfsPath.ext_components hpath)

/-- The same files in another order make the same tree. -/
theorem made_perm {other : List InlineFile} {made' : VfsDirectory} (hperm : other.Perm files)
    (h : insertFiles [] (files.map fun file => file.staged (refOf file)) = .ok made)
    (h' : insertFiles [] (other.map fun file => file.staged (refOf file)) = .ok made') : made' = made := by
  have hgrown : Grown made := grown_nil.insertFiles h
  have hgrown' : Grown made' := grown_nil.insertFiles h'
  apply tree_ext hgrown'.sorted hgrown'.filled hgrown.sorted hgrown.filled
  intro sought
  apply Option.ext
  intro found
  rw [fileAt_staged h, fileAt_staged h']
  simp only [hperm.mem_iff]

theorem Acceptable.perm {other : List InlineFile} (h : Acceptable files limits) (hperm : other.Perm files) :
    Acceptable other limits := by
  refine ⟨fun file hfile => h.notRoot file (hperm.mem_iff.mp hfile), ?_, ?_, ?_, ?_, ?_, ?_⟩
  · have hsymm : ∀ {a b : InlineFile}, a.path ≠ b.path → b.path ≠ a.path := fun hne => hne.symm
    exact (hperm.pairwise_iff hsymm).mpr h.distinct
  · exact fun a ha b hb => h.noAncestor a (hperm.mem_iff.mp ha) b (hperm.mem_iff.mp hb)
  · exact hperm.length_eq ▸ h.count
  · exact fun file hfile => h.depth file (hperm.mem_iff.mp hfile)
  · exact fun file hfile => h.single file (hperm.mem_iff.mp hfile)
  · exact (hperm.map InlineFile.sizeBytes).sum_nat ▸ h.total

end Made

end Lightspeed.Files
