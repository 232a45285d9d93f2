import Lightspeed.Harness.Submission
import Lightspeed.Lib.Splice

/-!
# Patches

How the chunks of a patch are found in the lines of a file, and how the replacements are made. A chunk is
searched for from the line behind the one before it, in passes that are less and less strict; one at the end
of the file is searched for at the end only. A chunk without old lines is an addition at the end.
-/

namespace Lightspeed.Files

open Lib Harness

/-! ## Searching -/

/-- `str::trim_end`. -/
def trimEnd (text : String) : String :=
  String.ofList (text.toList.reverse.dropWhile isWhitespace).reverse

/-- The dashes, quotes and blanks of typography as the ASCII characters that are meant. -/
def normalizeChar (c : Char) : Char :=
  if c.toNat ∈ [0x2010, 0x2011, 0x2012, 0x2013, 0x2014, 0x2015, 0x2212] then '-'
  else if c.toNat ∈ [0x2018, 0x2019, 0x201A, 0x201B] then Char.ofNat 0x27
  else if c.toNat ∈ [0x201C, 0x201D, 0x201E, 0x201F] then '"'
  else if c.toNat ∈ [0x00A0, 0x2002, 0x2003, 0x2004, 0x2005, 0x2006, 0x2007, 0x2008, 0x2009, 0x200A,
    0x202F, 0x205F, 0x3000] then ' '
  else c

def normalizeLine (line : String) : String := String.ofList ((trim line).toList.map normalizeChar)

/-- When a line is taken for an expected one, from the strictest pass on. -/
def comparisons : List (String → String → Bool) :=
  [fun line expected => line == expected,
    fun line expected => trimEnd line == trimEnd expected,
    fun line expected => trim line == trim expected,
    fun line expected => normalizeLine line == normalizeLine expected]

/-- Whether lines start with the expected ones. -/
def startsWith (same : String → String → Bool) : List String → List String → Bool
  | _, [] => true
  | [], _ :: _ => false
  | line :: lines, expected :: pattern => same line expected && startsWith same lines pattern

/-- One pass, over all indices from which the pattern fits. -/
def seekPass (same : String → String → Bool) (lines pattern : List String) (searchStart : Nat) :
    Option Nat :=
  (List.range' searchStart (lines.length - pattern.length + 1 - searchStart)).find? fun index =>
    startsWith same (lines.drop index) pattern

def seekSequence (lines pattern : List String) (start : Nat) (eof : Bool) : Option Nat :=
  if pattern.isEmpty then some start
  else if lines.length < pattern.length then none
  else
    let searchStart :=
      if eof && decide (pattern.length ≤ lines.length) then lines.length - pattern.length else start
    comparisons.findSome? fun same => seekPass same lines pattern searchStart

/-! ## Replacements -/

structure UpdateFileChunk where
  changeContext : Option String := none
  oldLines : List String
  newLines : List String
  isEndOfFile : Bool := false

/-- The index and the number of the lines that go, and the lines that come. -/
abbrev Replacement := Edit String

/-- The search goes on behind the context line of a chunk. -/
def afterContext (lines : List String) (path : String) (lineIndex : Nat) :
    Option String → Except String Nat
  | none => .ok lineIndex
  | some ctxLine =>
    match seekSequence lines [ctxLine] lineIndex false with
    | some index => .ok (index + 1)
    | none => .error ("Failed to find context '" ++ ctxLine ++ "' in " ++ path)

/-- Additions go to the end, before a blank last line. -/
def insertionIndex (lines : List String) : Nat :=
  if lines.getLast? = some "" then lines.length - 1 else lines.length

def withoutBlankEnd (lines : List String) : List String :=
  if lines.getLast? = some "" then lines.dropLast else lines

/-- A chunk that is not found is searched for without its blank last line. -/
def findChunk (lines : List String) (lineIndex : Nat) (chunk : UpdateFileChunk) : Option Replacement :=
  match seekSequence lines chunk.oldLines lineIndex chunk.isEndOfFile with
  | some start => some { start, len := chunk.oldLines.length, new := chunk.newLines }
  | none =>
    if chunk.oldLines.getLast? = some "" then
      (seekSequence lines chunk.oldLines.dropLast lineIndex chunk.isEndOfFile).map fun start =>
        { start, len := chunk.oldLines.dropLast.length, new := withoutBlankEnd chunk.newLines }
    else none

/-- The replacement of one chunk, and the line from which the next one is searched for. -/
def placeChunk (lines : List String) (path : String) (lineIndex : Nat) (chunk : UpdateFileChunk) :
    Except String (Replacement × Nat) :=
  match afterContext lines path lineIndex chunk.changeContext with
  | .error message => .error message
  | .ok lineIndex =>
    if chunk.oldLines.isEmpty then
      .ok ({ start := insertionIndex lines, len := 0, new := chunk.newLines }, lineIndex)
    else
      match findChunk lines lineIndex chunk with
      | some replacement => .ok (replacement, replacement.stop)
      | none =>
        .error ("Failed to find expected lines in " ++ path ++ ":\n" ++
          "\n".intercalate chunk.oldLines)

/-- The replacements of the chunks, in their order. -/
def placeChunks (lines : List String) (path : String) :
    Nat → List UpdateFileChunk → Except String (List Replacement)
  | _, [] => .ok []
  | lineIndex, chunk :: rest =>
    match placeChunk lines path lineIndex chunk with
    | .error message => .error message
    | .ok (replacement, lineIndex) => (placeChunks lines path lineIndex rest).map (replacement :: ·)

/-- The replacements in the order of their indices; those with the same index stay as they are. -/
def computeReplacements (lines : List String) (path : String) (chunks : List UpdateFileChunk) :
    Except String (List Replacement) :=
  (placeChunks lines path 0 chunks).map fun placed => placed.insertionSort Edit.startsBefore

/-! ## Making the replacements -/

def removeLines (start : Nat) : Nat → List String → List String
  | 0, lines => lines
  | n + 1, lines =>
    removeLines start n (if start < lines.length then lines.eraseIdx start else lines)

/-- An insertion behind the end of the lines panics. -/
def insertLines : Nat → List String → List String → Option (List String)
  | _, [], lines => some lines
  | index, line :: rest, lines =>
    if index ≤ lines.length then insertLines (index + 1) rest (lines.insertIdx index line) else none

def applyReplacement (lines : List String) (replacement : Replacement) : Option (List String) :=
  insertLines replacement.start replacement.new
    (removeLines replacement.start replacement.len lines)

/-- The replacements are made from the last to the first. -/
def applyReplacements (lines : List String) (replacements : List Replacement) :
    Option (List String) :=
  replacements.reverse.foldlM applyReplacement lines

/-! ## What is found -/

section

variable {lines pattern : List String} {same : String → String → Bool} {start index : Nat} {eof : Bool}

/-- Lines that start with the expected ones are, one by one, taken for them. -/
theorem startsWith_iff : startsWith same lines pattern = true ↔
    List.Forall₂ (fun line expected => same line expected = true) (lines.take pattern.length) pattern := by
  induction pattern generalizing lines with
  | nil => simp [startsWith]
  | cons expected pattern ih =>
    cases lines with
    | nil => simp [startsWith]
    | cons line lines => simp [startsWith, ih]

theorem seekPass_eq_some (h : seekPass same lines pattern start = some index) :
    start ≤ index ∧ index ≤ lines.length - pattern.length ∧
      startsWith same (lines.drop index) pattern = true := by
  unfold seekPass at h
  have hfound := List.find?_some h
  have hmem := List.mem_range'_1.mp (List.mem_of_find?_eq_some h)
  exact ⟨hmem.1, by omega, hfound⟩

/-- What a search finds: at the end for the end of the file, and from the start on otherwise. -/
theorem seekSequence_eq_some (hpattern : pattern ≠ [])
    (h : seekSequence lines pattern start eof = some index) :
    index + pattern.length ≤ lines.length ∧ (eof = false → start ≤ index) ∧
      ∃ same ∈ comparisons, startsWith same (lines.drop index) pattern = true := by
  unfold seekSequence at h
  rw [if_neg (by simpa using hpattern)] at h
  by_cases hshort : lines.length < pattern.length
  · rw [if_pos hshort] at h
    cases h
  · rw [if_neg hshort] at h
    obtain ⟨same, hsame, hpass⟩ := List.exists_of_findSome?_eq_some h
    obtain ⟨hstart, hlast, hfound⟩ := seekPass_eq_some hpass
    refine ⟨by omega, fun heof => ?_, same, hsame, hfound⟩
    simpa [heof] using hstart

theorem seekSequence_nil : seekSequence lines [] start eof = some start := rfl

end

/-! ## What is made of the lines -/

section

variable {lines : List String}

theorem removeLines_eq (start n : Nat) (lines : List String) :
    removeLines start n lines = lines.take start ++ lines.drop (start + n) := by
  induction n generalizing lines with
  | zero => exact (List.take_append_drop start lines).symm
  | succ n ih =>
    rw [removeLines]
    split_ifs with hlt
    · have hlength : (lines.take start).length = start := List.length_take_of_le (le_of_lt hlt)
      rw [ih, List.eraseIdx_eq_take_drop_succ, List.take_append_of_le_length (le_of_eq hlength.symm),
        List.take_take, Nat.min_self]
      congr 1
      rw [List.drop_append, List.drop_eq_nil_of_le (by omega), List.nil_append, List.drop_drop]
      congr 1
      omega
    · rw [ih, List.drop_eq_nil_of_le (by omega), List.drop_eq_nil_of_le (by omega)]

theorem insertIdx_eq {α : Type} {xs : List α} {index : Nat} {x : α} (h : index ≤ xs.length) :
    xs.insertIdx index x = xs.take index ++ x :: xs.drop index := by
  induction index generalizing xs with
  | zero => rfl
  | succ index ih =>
    cases xs with
    | nil => cases h
    | cons y ys =>
      rw [List.insertIdx_succ_cons, ih (Nat.le_of_succ_le_succ h)]
      rfl

theorem insertLines_eq {index : Nat} {new : List String} (h : index ≤ lines.length) :
    insertLines index new lines = some (lines.take index ++ new ++ lines.drop index) := by
  induction new generalizing index lines with
  | nil => rw [insertLines, List.append_nil, List.take_append_drop]
  | cons line rest ih =>
    have hcut : (lines.take index ++ [line]).length = index + 1 := by
      rw [List.length_append, List.length_take_of_le h, List.length_singleton]
    have hinsert : lines.insertIdx index line = (lines.take index ++ [line]) ++ lines.drop index := by
      rw [insertIdx_eq h, List.append_assoc, List.singleton_append]
    have hlength : index + 1 ≤ (lines.insertIdx index line).length := by
      rw [hinsert, List.length_append, hcut]
      omega
    rw [insertLines, if_pos h, ih hlength, hinsert, List.take_left' hcut, List.drop_left' hcut,
      List.append_assoc, List.append_assoc, List.append_assoc, List.singleton_append]
    rfl

/-- A replacement in the range of the lines is an edit. -/
theorem applyReplacement_eq {r : Replacement} (h : r.stop ≤ lines.length) :
    applyReplacement lines r = some (r.apply lines) := by
  have hstart : r.start ≤ lines.length := r.start_le_stop.trans h
  have hcut : (lines.take r.start).length = r.start := List.length_take_of_le hstart
  have hlength : r.start ≤ (lines.take r.start ++ lines.drop (r.start + r.len)).length := by
    rw [List.length_append, hcut]
    omega
  rw [applyReplacement, removeLines_eq, insertLines_eq hlength, List.take_left' hcut,
    List.drop_left' hcut]
  rfl

/-- Replacements that are in order and in range are made at once. -/
theorem applyReplacements_eq {replacements : List Replacement}
    (hapart : replacements.Pairwise Edit.Before) (hrange : ∀ r ∈ replacements, r.stop ≤ lines.length) :
    applyReplacements lines replacements = some (Edit.splice lines 0 replacements) := by
  have hfold : applyReplacements lines replacements = some (replacements.foldr Edit.apply lines) := by
    unfold applyReplacements
    induction replacements with
    | nil => rfl
    | cons r rest ih =>
      obtain ⟨hbefore, hrest⟩ := List.pairwise_cons.mp hapart
      have hrange' : ∀ r' ∈ rest, r'.stop ≤ lines.length := fun r' hmem =>
        hrange r' (List.mem_cons_of_mem _ hmem)
      have hstop := hrange r List.mem_cons_self
      -- The lines up to the end of the block are as they were.
      have hlength : r.stop ≤ (rest.foldr Edit.apply lines).length := by
        rw [Edit.foldr_apply hbefore hrest hrange' hstop, List.length_append,
          List.length_take_of_le hstop]
        omega
      rw [List.reverse_cons, List.foldlM_append, ih hrest hrange']
      show (applyReplacement (rest.foldr Edit.apply lines) r >>= some) = _
      rw [applyReplacement_eq hlength]
      rfl
  rw [hfold, Edit.foldr_apply (fun _ _ => Nat.zero_le _) hapart hrange (Nat.zero_le _)]
  rfl

end

end Lightspeed.Files
