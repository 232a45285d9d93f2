import Mathlib.Data.List.Perm.Basic
import Lightspeed.Files.Chunks
import Lightspeed.Lib.Split

/-!
# The contents after a patch

`derive_new_contents` cuts a text into lines, makes the replacements of the chunks, and puts the lines
together again with a newline at the end. The lines of a chunk are marked: a blank for context, a minus for
what goes, a plus for what comes. A context line stands both in the old and in the new lines of its chunk.
It is searched for in passes that are less and less strict, and written as the patch quotes it.
-/

namespace Lightspeed.Files

open Lib

/-! ## Marked lines -/

/-- A line of a chunk, as it is marked. -/
inductive ChunkLine where
  | context (text : String)
  | removed (text : String)
  | added (text : String)
  deriving DecidableEq

namespace ChunkLine

/-- What a line expects to find. -/
def old : ChunkLine → Option String
  | .context text | .removed text => some text
  | .added _ => none

/-- What a line leaves behind. -/
def new : ChunkLine → Option String
  | .context text | .added text => some text
  | .removed _ => none

/-- The mark of a line of a patch, if it is one of a chunk. An empty line is an empty context line. -/
def parse (line : String) : Option ChunkLine :=
  match line.toList with
  | [] => some (.context "")
  | ' ' :: text => some (.context (String.ofList text))
  | '+' :: text => some (.added (String.ofList text))
  | '-' :: text => some (.removed (String.ofList text))
  | _ => none

end ChunkLine

/-- A chunk with its lines marked. -/
structure MarkedChunk where
  changeContext : Option String := none
  lines : List ChunkLine
  isEndOfFile : Bool := false

/-- The chunk of marked lines. -/
def MarkedChunk.toChunk (chunk : MarkedChunk) : UpdateFileChunk where
  changeContext := chunk.changeContext
  oldLines := chunk.lines.filterMap ChunkLine.old
  newLines := chunk.lines.filterMap ChunkLine.new
  isEndOfFile := chunk.isEndOfFile

/-! ## Parsing -/

/-- `ParseError::InvalidHunkError`. -/
structure InvalidHunkError where
  message : String
  lineNumber : Nat

def eofMarker : String := "*** End of File"

def emptyChangeContextMarker : String := "@@"

def changeContextMarker : String := "@@ "

/-- The lines of a chunk up to the first that is none, or to the end of the file; with the number of lines
that were read. -/
def parseChunkLines (lineNumber : Nat) (chunk : UpdateFileChunk) (parsedLines : Nat) :
    List String → Except InvalidHunkError (UpdateFileChunk × Nat)
  | [] => .ok (chunk, parsedLines)
  | line :: rest =>
    if line = eofMarker then
      if parsedLines = 0 then .error ⟨"Update hunk does not contain any lines", lineNumber + 1⟩
      else .ok ({ chunk with isEndOfFile := true }, parsedLines + 1)
    else
      match ChunkLine.parse line with
      | some marked =>
        parseChunkLines lineNumber
          { chunk with
            oldLines := chunk.oldLines ++ marked.old.toList
            newLines := chunk.newLines ++ marked.new.toList } (parsedLines + 1) rest
      | none =>
        if parsedLines = 0 then
          .error ⟨"Unexpected line found in update hunk: '" ++ line ++
            "'. Every line should start with ' ' (context line), '+' (added line), or '-' (removed line)", lineNumber + 1⟩
        else .ok (chunk, parsedLines)

/-- The context of a chunk, and the number of lines that it takes. -/
def parseChangeContext (line : String) (lineNumber : Nat) (allowMissingContext : Bool) :
    Except InvalidHunkError (Option String × Nat) :=
  if line = emptyChangeContextMarker then .ok (none, 1)
  else if changeContextMarker.toList.isPrefixOf line.toList then
    .ok (some (String.ofList (line.toList.drop changeContextMarker.length)), 1)
  else if ¬ allowMissingContext then
    .error ⟨"Expected update hunk to start with a @@ context marker, got: '" ++ line ++ "'", lineNumber⟩
  else .ok (none, 0)

/-- `parse_update_file_chunk`. -/
def parseUpdateFileChunk (lines : List String) (lineNumber : Nat) (allowMissingContext : Bool) :
    Except InvalidHunkError (UpdateFileChunk × Nat) :=
  match lines with
  | [] => .error ⟨"Update hunk does not contain any lines", lineNumber⟩
  | first :: _ => do
    let (changeContext, startIndex) ← parseChangeContext first lineNumber allowMissingContext
    require (startIndex < lines.length) ⟨"Update hunk does not contain any lines", lineNumber + 1⟩
    let (chunk, parsedLines) ← parseChunkLines lineNumber
      { changeContext, oldLines := [], newLines := [] } 0 (lines.drop startIndex)
    .ok (chunk, parsedLines + startIndex)

/-! ## The new contents -/

/-- A text cut at its newlines. -/
def splitLines (text : String) : List String := (text.toList.splitOn '\n').map String.ofList

/-- The lines of a file, without the blank one behind a newline at the end. -/
def fileLines (text : String) : List String := withoutBlankEnd (splitLines text)

/-- `derive_new_contents`. An insertion behind the end of the lines panics. -/
def deriveNewContents (originalContents path : String) (chunks : List UpdateFileChunk) :
    Except String (Option String) :=
  let originalLines := fileLines originalContents
  (computeReplacements originalLines path chunks).map fun replacements =>
    (applyReplacements originalLines replacements).map fun newLines =>
      "\n".intercalate (if newLines.getLast? = some "" then newLines else newLines ++ [""])

/-! ## Texts and lines -/

/-- The text of lines that each end with a newline. -/
def endLines (lines : List String) : String := String.join (lines.map (· ++ "\n"))

section

variable {text path result : String} {lines block new : List String} {chunk : MarkedChunk}
  {chunks : List MarkedChunk} {marked : List ChunkLine} {same : String → String → Bool} {r : Replacement}
  {placed : List Replacement}

theorem intercalate_blank_end (lines : List String) :
    "\n".intercalate (lines ++ [""]) = endLines lines := by
  induction lines with
  | nil => rfl
  | cons line lines ih =>
    rw [List.cons_append, String.intercalate_cons_of_ne_nil (by simp), ih]
    unfold endLines
    rw [List.map_cons, String.join_cons]

theorem intercalate_splitLines (text : String) : "\n".intercalate (splitLines text) = text := by
  apply String.toList_inj.mp
  rw [String.toList_intercalate]
  unfold splitLines
  rw [List.map_map]
  have hid : (String.toList ∘ String.ofList) = id := by
    funext chars
    exact String.toList_ofList
  rw [hid, List.map_id]
  exact List.intercalate_splitOn '\n'

/-- A text is its lines, each with a newline, but for a newline that the last one may lack. -/
theorem endLines_fileLines (text : String) :
    text = endLines (fileLines text) ∨ text ++ "\n" = endLines (fileLines text) := by
  have hjoin := intercalate_splitLines text
  unfold fileLines withoutBlankEnd
  split_ifs with hblank
  · left
    have hsplit : (splitLines text).dropLast ++ [""] = splitLines text :=
      List.dropLast_append_getLast? "" hblank
    rw [← intercalate_blank_end, hsplit, hjoin]
  · right
    have hne : splitLines text ≠ [] := by
      unfold splitLines
      simp [List.splitOn_ne_nil]
    rw [← intercalate_blank_end, String.intercalate_append_of_ne_nil hne (by simp), hjoin]
    simp

/-- No line has a newline in it. -/
theorem not_mem_of_fileLines {line : String} (h : line ∈ fileLines text) : '\n' ∉ line.toList := by
  have hmem : line ∈ splitLines text := by
    unfold fileLines withoutBlankEnd at h
    split_ifs at h
    · exact List.dropLast_subset _ h
    · exact h
  unfold splitLines at hmem
  obtain ⟨part, hpart, rfl⟩ := List.mem_map.mp hmem
  rw [String.toList_ofList]
  exact not_mem_of_mem_splitOn hpart

/-! ## Chunks that are parsed -/

/-- The lines of a chunk under way, and the marks that they were read with. -/
theorem parseChunkLines_eq_ok {lineNumber parsed count : Nat} {start chunk : UpdateFileChunk}
    {patch : List String} (marks : List ChunkLine)
    (hold : start.oldLines = marks.filterMap ChunkLine.old)
    (hnew : start.newLines = marks.filterMap ChunkLine.new)
    (h : parseChunkLines lineNumber start parsed patch = .ok (chunk, count)) :
    ∃ read, (read.map some).IsPrefix (patch.map ChunkLine.parse) ∧
      chunk.changeContext = start.changeContext ∧
      chunk.oldLines = (marks ++ read).filterMap ChunkLine.old ∧
      chunk.newLines = (marks ++ read).filterMap ChunkLine.new := by
  induction patch generalizing start marks parsed with
  | nil =>
    obtain ⟨rfl, -⟩ := Prod.mk.inj (Except.ok.inj h)
    refine ⟨[], List.nil_prefix, rfl, ?_, ?_⟩
    · rw [List.append_nil, hold]
    · rw [List.append_nil, hnew]
  | cons line rest ih =>
    have hstop : chunk.changeContext = start.changeContext → chunk.oldLines = start.oldLines →
        chunk.newLines = start.newLines → ∃ read,
          (read.map some).IsPrefix ((line :: rest).map ChunkLine.parse) ∧
          chunk.changeContext = start.changeContext ∧
          chunk.oldLines = (marks ++ read).filterMap ChunkLine.old ∧
          chunk.newLines = (marks ++ read).filterMap ChunkLine.new := fun hcontext hold' hnew' =>
      ⟨[], List.nil_prefix, hcontext, by rw [List.append_nil, hold', hold],
        by rw [List.append_nil, hnew', hnew]⟩
    rw [parseChunkLines] at h
    by_cases heof : line = eofMarker
    · rw [if_pos heof] at h
      split_ifs at h
      obtain ⟨rfl, -⟩ := Prod.mk.inj (Except.ok.inj h)
      exact hstop rfl rfl rfl
    · rw [if_neg heof] at h
      cases hparse : ChunkLine.parse line with
      | none =>
        rw [hparse] at h
        dsimp only at h
        split_ifs at h
        obtain ⟨rfl, -⟩ := Prod.mk.inj (Except.ok.inj h)
        exact hstop rfl rfl rfl
      | some marked =>
        rw [hparse] at h
        have hold' : start.oldLines ++ marked.old.toList = (marks ++ [marked]).filterMap ChunkLine.old := by
          rw [hold, List.filterMap_append]
          cases marked <;> rfl
        have hnew' : start.newLines ++ marked.new.toList = (marks ++ [marked]).filterMap ChunkLine.new := by
          rw [hnew, List.filterMap_append]
          cases marked <;> rfl
        obtain ⟨read, hread, hcontext, hallOld, hallNew⟩ := ih _ hold' hnew' h
        rw [List.append_assoc, List.singleton_append] at hallOld hallNew
        refine ⟨marked :: read, ?_, hcontext, hallOld, hallNew⟩
        rw [List.map_cons, List.map_cons, hparse]
        exact (List.prefix_cons_inj _).mpr hread

/-- A chunk that is parsed is one of marked lines, which stand in the patch one after another. -/
theorem parseUpdateFileChunk_eq_ok {patch : List String} {lineNumber count : Nat} {allow : Bool}
    {parsed : UpdateFileChunk} (h : parseUpdateFileChunk patch lineNumber allow = .ok (parsed, count)) :
    ∃ chunk : MarkedChunk, parsed = chunk.toChunk ∧
      ∃ start, (chunk.lines.map some).IsPrefix ((patch.drop start).map ChunkLine.parse) := by
  unfold parseUpdateFileChunk at h
  split at h
  · cases h
  · obtain ⟨⟨changeContext, start⟩, -, h⟩ := bind_eq_ok.mp h
    obtain ⟨-, -, h⟩ := bind_eq_ok.mp h
    obtain ⟨⟨chunk, lines⟩, hlines, h⟩ := bind_eq_ok.mp h
    obtain ⟨rfl, -⟩ := Prod.mk.inj (Except.ok.inj h)
    obtain ⟨read, hread, -, hold, hnew⟩ :=
      parseChunkLines_eq_ok [] rfl rfl hlines
    refine ⟨⟨chunk.changeContext, read, chunk.isEndOfFile⟩, ?_, start, hread⟩
    rw [List.nil_append] at hold hnew
    calc chunk = ⟨chunk.changeContext, chunk.oldLines, chunk.newLines, chunk.isEndOfFile⟩ := rfl
      _ = _ := by rw [hold, hnew]; rfl

theorem parseUpdateFileChunk_eq_ok_marked : ∃ chunk : MarkedChunk,
    ⟨some "fn", ["a", "b"], ["a", "c"], false⟩ = chunk.toChunk ∧ ∃ start, (chunk.lines.map some).IsPrefix
      ((["@@ fn", " a", "-b", "+c"].drop start).map ChunkLine.parse) := by
  have hparsed : parseUpdateFileChunk ["@@ fn", " a", "-b", "+c"] 1 false =
      .ok (⟨some "fn", ["a", "b"], ["a", "c"], false⟩, 4) := rfl
  exact parseUpdateFileChunk_eq_ok hparsed

/-! ## What the chunks change -/

/-- Lines of a file beside the marked lines that were found there, and beside what stands there after: a
context line is written as it is quoted. -/
inductive Aligned (same : String → String → Bool) : List ChunkLine → List String → List String → Prop
  | nil : Aligned same [] [] []
  | context {line quoted : String} {marked : List ChunkLine} {block new : List String}
      (hsame : same line quoted = true) (rest : Aligned same marked block new) :
      Aligned same (.context quoted :: marked) (line :: block) (quoted :: new)
  | removed {line quoted : String} {marked : List ChunkLine} {block new : List String}
      (hsame : same line quoted = true) (rest : Aligned same marked block new) :
      Aligned same (.removed quoted :: marked) (line :: block) new
  | added {text : String} {marked : List ChunkLine} {block new : List String}
      (rest : Aligned same marked block new) :
      Aligned same (.added text :: marked) block (text :: new)

/-- What a chunk changes: the lines that its marks expect, or those without its blank last one, when it is
found without it only. -/
inductive Changes (chunk : MarkedChunk) : List String → List String → Prop
  | marked {same : String → String → Bool} {block new : List String} (hsame : same ∈ comparisons)
      (aligned : Aligned same chunk.lines block new) : Changes chunk block new
  | withoutBlankEnd {block old : List String} (hold : chunk.toChunk.oldLines = old ++ [""])
      (taken : Taken block old) : Changes chunk block (withoutBlankEnd chunk.toChunk.newLines)

/-- The lines of a file and of the result, cut at the chunks: what is outside of them is the same. -/
inductive Rewritten : List MarkedChunk → List String → List String → Prop
  | rest (kept : List String) : Rewritten [] kept kept
  | chunk {chunk : MarkedChunk} {chunks : List MarkedChunk} {block new lines result : List String}
      (kept : List String) (changes : Changes chunk block new) (rewritten : Rewritten chunks lines result) :
      Rewritten (chunk :: chunks) (kept ++ block ++ lines) (kept ++ new ++ result)

theorem aligned_of_taken (h : List.Forall₂ (fun line expected => same line expected = true) block
    (marked.filterMap ChunkLine.old)) : Aligned same marked block (marked.filterMap ChunkLine.new) := by
  induction marked generalizing block with
  | nil =>
    cases h
    exact .nil
  | cons line marked ih =>
    cases line with
    | context text =>
      cases h with
      | cons hsame hrest => exact .context hsame (ih hrest)
    | removed text =>
      cases h with
      | cons hsame hrest => exact .removed hsame (ih hrest)
    | added text => exact .added (ih h)

/-- A replacement changes what its chunk says. -/
theorem changes_of_placed (h : Placed lines chunk.toChunk r) : Changes chunk (r.block lines) r.new := by
  cases h with
  | addition hold =>
    -- Every line of the chunk is an added one, and any pass will do.
    have haligned : Aligned (fun line expected => line == expected) chunk.lines []
        (chunk.lines.filterMap ChunkLine.new) := by
      apply aligned_of_taken
      rw [show chunk.lines.filterMap ChunkLine.old = [] from hold]
      exact .nil
    exact .marked List.mem_cons_self haligned
  | found start hold htaken =>
    obtain ⟨same, hsame, hall⟩ := htaken
    exact .marked hsame (aligned_of_taken hall)
  | foundWithoutBlankEnd start old hold htaken => exact .withoutBlankEnd hold htaken

/-- A splice of replacements in order is a rewriting by their chunks. -/
theorem rewritten_splice {pos : Nat}
    (hplaced : List.Forall₂ (fun r chunk => Placed lines (MarkedChunk.toChunk chunk) r) placed chunks)
    (hapart : placed.Pairwise Edit.Before) (hfirst : ∀ r ∈ placed, pos ≤ r.start) :
    Rewritten chunks (lines.drop pos) (Edit.splice lines pos placed) := by
  induction hplaced generalizing pos with
  | nil => exact .rest _
  | @cons r chunk placed chunks hr _ ih =>
    obtain ⟨hbefore, hapart⟩ := List.pairwise_cons.mp hapart
    have hstart : pos ≤ r.start := hfirst r List.mem_cons_self
    have hsplit : lines.drop pos =
        (lines.drop pos).take (r.start - pos) ++ r.block lines ++ lines.drop r.stop := by
      rw [List.append_assoc, Edit.block_append_drop]
      exact Edit.drop_eq_take_append hstart lines
    have hrest := ih hapart hbefore
    have hrewritten := Rewritten.chunk ((lines.drop pos).take (r.start - pos)) (changes_of_placed hr) hrest
    rwa [← hsplit] at hrewritten

/-! ## The patch -/

/-- A chunk that quotes a line without its indentation, and replaces the line behind it. -/
def indentedChunk : MarkedChunk where
  lines := [.context "a", .removed "b", .added "x"]

/-- A patch succeeds, and a line of the file that no chunk removes is not in the result. -/
def DropsLine (text : String) (chunks : List MarkedChunk) : Prop :=
  ∃ result, deriveNewContents text "f" (chunks.map MarkedChunk.toChunk) = .ok (some result) ∧
    ∃ line, (fileLines text).count line > (fileLines result).count line ∧
      ∀ chunk ∈ chunks, ChunkLine.removed line ∉ chunk.lines

end

end Lightspeed.Files
