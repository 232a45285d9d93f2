import Lightspeed.Files.Patch

/-!
# Where the chunks of a patch are placed

A chunk is found behind the ones before it, so the lines that chunks match are apart, and the replacements
are a splice of the file. Two chunks may still meet: one at the end of the file is searched for there,
wherever the ones before it were found, and an addition goes before a blank last line, which another chunk
may match. What holds of the others is shown for all patches in which neither happens.
-/

namespace Lightspeed.Files

open Lib

variable {lines : List String} {path : String} {chunk : UpdateFileChunk} {r : Replacement}
  {lineIndex next low : Nat} {chunks : List UpdateFileChunk} {placed : List Replacement}

/-! ## One chunk -/

/-- Lines that a pass takes for the expected ones. -/
def Taken (block pattern : List String) : Prop :=
  ∃ same ∈ comparisons, List.Forall₂ (fun line expected => same line expected = true) block pattern

/-- The replacement that a chunk asks for: an addition, its new lines for its old ones, or both without
their blank last lines. -/
inductive Placed (lines : List String) (chunk : UpdateFileChunk) : Replacement → Prop
  | addition (h : chunk.oldLines = []) :
    Placed lines chunk { start := insertionIndex lines, len := 0, new := chunk.newLines }
  | found (start : Nat) (hold : chunk.oldLines ≠ [])
      (h : Taken ((lines.drop start).take chunk.oldLines.length) chunk.oldLines) :
    Placed lines chunk { start, len := chunk.oldLines.length, new := chunk.newLines }
  | foundWithoutBlankEnd (start : Nat) (old : List String) (hold : chunk.oldLines = old ++ [""])
      (h : Taken ((lines.drop start).take old.length) old) :
    Placed lines chunk { start, len := old.length, new := withoutBlankEnd chunk.newLines }

/-- What placing one chunk does. -/
structure PlacedFrom (lines : List String) (lineIndex : Nat) (chunk : UpdateFileChunk) (r : Replacement)
    (next : Nat) : Prop where
  placed : Placed lines chunk r
  range : r.stop ≤ lines.length
  next_le : next ≤ lines.length
  addition : chunk.oldLines = [] → r.start = insertionIndex lines ∧ r.len = 0 ∧ lineIndex ≤ next
  /-- But for the end of the file, a chunk is found from the index on. -/
  behind : chunk.oldLines ≠ [] → next = r.stop ∧ (chunk.isEndOfFile = false → lineIndex ≤ r.start)

theorem insertionIndex_le : insertionIndex lines ≤ lines.length := by
  unfold insertionIndex
  split_ifs <;> omega

theorem afterContext_le {context : Option String} (h : afterContext lines path lineIndex context = .ok next)
    (hline : lineIndex ≤ lines.length) : lineIndex ≤ next ∧ next ≤ lines.length := by
  unfold afterContext at h
  split at h
  · obtain rfl := Except.ok.inj h
    exact ⟨le_refl _, hline⟩
  · split at h
    next index hseek =>
      obtain ⟨hrange, hstart, -⟩ := seekSequence_eq_some (by simp) hseek
      obtain rfl := Except.ok.inj h
      have hstart := hstart rfl
      rw [List.length_singleton] at hrange
      exact ⟨by omega, hrange⟩
    · cases h

theorem taken_nil : Taken [] [] := ⟨_, List.mem_cons_self, .nil⟩

/-- What a chunk with old lines is replaced at. -/
theorem findChunk_eq_some (hold : chunk.oldLines ≠ []) (hline : lineIndex ≤ lines.length)
    (h : findChunk lines lineIndex chunk = some r) :
    Placed lines chunk r ∧ r.stop ≤ lines.length ∧ (chunk.isEndOfFile = false → lineIndex ≤ r.start) := by
  unfold findChunk at h
  split at h
  next start hseek =>
    obtain ⟨hrange, hstart, same, hsame, hfound⟩ := seekSequence_eq_some hold hseek
    obtain rfl := Option.some.inj h
    exact ⟨.found start hold ⟨same, hsame, startsWith_iff.mp hfound⟩, hrange, hstart⟩
  · split_ifs at h with hblank
    obtain ⟨start, hseek, rfl⟩ := Option.map_eq_some_iff.mp h
    have hsplit : chunk.oldLines = chunk.oldLines.dropLast ++ [""] :=
      (List.dropLast_append_getLast? "" hblank).symm
    by_cases hnil : chunk.oldLines.dropLast = []
    · -- Only the blank line was expected: nothing is replaced, where the search starts.
      rw [hnil, seekSequence_nil] at hseek
      obtain rfl := Option.some.inj hseek
      refine ⟨.foundWithoutBlankEnd _ _ hsplit ?_, ?_, fun _ => le_refl _⟩
      · rw [hnil]
        exact taken_nil
      · show lineIndex + chunk.oldLines.dropLast.length ≤ lines.length
        rw [hnil]
        exact hline
    · obtain ⟨hrange, hstart, same, hsame, hfound⟩ := seekSequence_eq_some hnil hseek
      exact ⟨.foundWithoutBlankEnd start _ hsplit ⟨same, hsame, startsWith_iff.mp hfound⟩, hrange, hstart⟩

theorem placeChunk_eq_ok (hline : lineIndex ≤ lines.length)
    (h : placeChunk lines path lineIndex chunk = .ok (r, next)) :
    PlacedFrom lines lineIndex chunk r next := by
  unfold placeChunk at h
  split at h
  · cases h
  next from_ hcontext =>
    obtain ⟨hfrom, hle⟩ := afterContext_le hcontext hline
    by_cases hold : chunk.oldLines = []
    · rw [hold] at h
      obtain ⟨rfl, rfl⟩ := Prod.mk.inj (Except.ok.inj h)
      exact ⟨.addition hold, insertionIndex_le, hle, fun _ => ⟨rfl, rfl, hfrom⟩, fun hne => absurd hold hne⟩
    · rw [if_neg (by simpa using hold)] at h
      split at h
      next found hfind =>
        obtain ⟨rfl, rfl⟩ := Prod.mk.inj (Except.ok.inj h)
        obtain ⟨hplaced, hrange, hstart⟩ := findChunk_eq_some hold hle hfind
        exact ⟨hplaced, hrange, hrange, fun hnil => absurd hnil hold,
          fun _ => ⟨rfl, fun heof => hfrom.trans (hstart heof)⟩⟩
      · cases h

/-! ## All chunks -/

/-- A chunk with its replacement. -/
abbrev Hit := UpdateFileChunk × Replacement

def Hit.IsMatch (hit : Hit) : Prop := hit.1.oldLines ≠ []

/-- The lines that two chunks match are apart, in the order of the chunks. -/
def MatchesInOrder (hit hit' : Hit) : Prop := hit.IsMatch → hit'.IsMatch → hit.2.Before hit'.2

/-- A chunk at the end of the file is found behind what the other matches. -/
def EndsBehind (hit hit' : Hit) : Prop :=
  hit.IsMatch → hit'.IsMatch → hit'.1.isEndOfFile = true → hit.2.Before hit'.2

/-- Whether a chunk matches the last line of a file, which is blank. -/
def TakesBlankEnd (lines : List String) (hit : Hit) : Prop :=
  lines.getLast? = some "" ∧ hit.2.len ≠ 0 ∧ hit.2.stop = lines.length

/-- An addition does not come after a match of the blank last line; before one it may come when the match
has no other line. -/
def ClearOfBlankEnd (lines : List String) (hit hit' : Hit) : Prop :=
  (hit.IsMatch → ¬ hit'.IsMatch → ¬ TakesBlankEnd lines hit) ∧
    (¬ hit.IsMatch → hit'.IsMatch → TakesBlankEnd lines hit' → hit'.2.len = 1)

theorem placeChunks_cons_eq_ok {placed : List Replacement}
    (h : placeChunks lines path lineIndex (chunk :: chunks) = .ok placed) :
    ∃ r next rest, placeChunk lines path lineIndex chunk = .ok (r, next) ∧
      placeChunks lines path next chunks = .ok rest ∧ placed = r :: rest := by
  rw [placeChunks] at h
  split at h
  · cases h
  next r next hplace =>
    cases hrest : placeChunks lines path next chunks with
    | error message =>
      rw [hrest] at h
      cases h
    | ok rest =>
      rw [hrest] at h
      exact ⟨r, next, rest, hplace, hrest, (Except.ok.inj h).symm⟩

/-- Every chunk is placed within the lines. -/
theorem placeChunks_placed (hline : lineIndex ≤ lines.length)
    (h : placeChunks lines path lineIndex chunks = .ok placed) :
    List.Forall₂ (Placed lines) chunks placed ∧ (∀ r ∈ placed, r.stop ≤ lines.length) ∧
      ∀ hit ∈ chunks.zip placed, ¬ Hit.IsMatch hit →
        hit.2.start = insertionIndex lines ∧ hit.2.len = 0 := by
  induction chunks generalizing lineIndex placed with
  | nil =>
    obtain rfl := Except.ok.inj h
    exact ⟨.nil, nofun, nofun⟩
  | cons chunk chunks ih =>
    obtain ⟨r, next, rest, hplace, hrest, rfl⟩ := placeChunks_cons_eq_ok h
    have hfirst := placeChunk_eq_ok hline hplace
    obtain ⟨hplaced, hrange, hadditions⟩ := ih hfirst.next_le hrest
    refine ⟨.cons hfirst.placed hplaced, List.forall_mem_cons.mpr ⟨hfirst.range, hrange⟩, ?_⟩
    rw [List.zip_cons_cons]
    refine List.forall_mem_cons.mpr ⟨fun hnone => ?_, hadditions⟩
    obtain ⟨hstart, hlen, -⟩ := hfirst.addition (not_not.mp hnone)
    exact ⟨hstart, hlen⟩

/-- Chunks that are searched for from `low` on, or found behind it at the end, match behind it, and each
behind the ones before it. -/
theorem placeChunks_inOrder (hline : lineIndex ≤ lines.length)
    (h : placeChunks lines path lineIndex chunks = .ok placed) (hlow : low ≤ lineIndex)
    (heof : (chunks.zip placed).Pairwise EndsBehind)
    (hends : ∀ hit ∈ chunks.zip placed, Hit.IsMatch hit → hit.1.isEndOfFile = true → low ≤ hit.2.start) :
    (∀ hit ∈ chunks.zip placed, Hit.IsMatch hit → low ≤ hit.2.start) ∧
      (chunks.zip placed).Pairwise MatchesInOrder := by
  induction chunks generalizing lineIndex placed low with
  | nil => exact ⟨nofun, .nil⟩
  | cons chunk chunks ih =>
    obtain ⟨r, next, rest, hplace, hrest, rfl⟩ := placeChunks_cons_eq_ok h
    have hfirst := placeChunk_eq_ok hline hplace
    rw [List.zip_cons_cons] at heof hends ⊢
    obtain ⟨hbehind, heof⟩ := List.pairwise_cons.mp heof
    obtain ⟨hend, hends⟩ := List.forall_mem_cons.mp hends
    by_cases hold : chunk.oldLines = []
    · -- An addition moves the index of no search.
      obtain ⟨-, -, hnext⟩ := hfirst.addition hold
      obtain ⟨hlater, horder⟩ := ih hfirst.next_le hrest (hlow.trans hnext) heof hends
      exact ⟨List.forall_mem_cons.mpr ⟨fun hmatch => absurd hold hmatch, hlater⟩,
        List.pairwise_cons.mpr ⟨fun _ _ hmatch => absurd hold hmatch, horder⟩⟩
    · obtain ⟨rfl, hstart⟩ := hfirst.behind hold
      have hlowStart : low ≤ r.start := by
        cases hchunk : chunk.isEndOfFile with
        | true => exact hend hold hchunk
        | false => exact hlow.trans (hstart hchunk)
      -- What follows is searched for behind this match.
      obtain ⟨hlater, horder⟩ := ih hfirst.next_le hrest (le_refl _) heof
        fun hit hmem hmatch hchunk => hbehind hit hmem hold hmatch hchunk
      refine ⟨List.forall_mem_cons.mpr ⟨fun _ => hlowStart, fun hit hmem hmatch => ?_⟩,
        List.pairwise_cons.mpr ⟨fun hit hmem _ hmatch => hlater hit hmem hmatch, horder⟩⟩
      exact hlowStart.trans (r.start_le_stop.trans (hlater hit hmem hmatch))

/-- The replacements of two chunks are apart, when the matches are in order and the additions are clear of a
blank last line. -/
theorem apart_of_clear {hit hit' : Hit} (horder : MatchesInOrder hit hit')
    (hclear : ClearOfBlankEnd lines hit hit') (hrange : hit.2.stop ≤ lines.length)
    (hrange' : hit'.2.stop ≤ lines.length)
    (hadd : ¬ hit.IsMatch → hit.2.start = insertionIndex lines ∧ hit.2.len = 0)
    (hadd' : ¬ hit'.IsMatch → hit'.2.start = insertionIndex lines ∧ hit'.2.len = 0) :
    hit.2.Apart hit'.2 := by
  have hindex : lines.getLast? = some "" ∧ insertionIndex lines = lines.length - 1 ∨
      insertionIndex lines = lines.length := by
    unfold insertionIndex
    split_ifs with hblank
    · exact .inl ⟨hblank, rfl⟩
    · exact .inr rfl
  unfold Edit.Apart Edit.Before
  by_cases hmatch : hit.IsMatch
  · by_cases hmatch' : hit'.IsMatch
    · exact .inl (horder hmatch hmatch')
    · obtain ⟨hstart', hlen'⟩ := hadd' hmatch'
      have hnot := hclear.1 hmatch hmatch'
      unfold TakesBlankEnd Edit.stop at hnot
      unfold Edit.stop at hrange ⊢
      rcases hindex with ⟨hblank, hindex⟩ | hindex
      · have hnot : ¬ (hit.2.len ≠ 0 ∧ hit.2.start + hit.2.len = lines.length) :=
          fun h => hnot ⟨hblank, h⟩
        have hpos : 0 < lines.length := by
          rcases lines with _ | _
          · cases hblank
          · exact Nat.succ_pos _
        omega
      · omega
  · obtain ⟨hstart, hlen⟩ := hadd hmatch
    by_cases hmatch' : hit'.IsMatch
    · have hone := hclear.2 hmatch hmatch'
      unfold TakesBlankEnd Edit.stop at hone
      unfold Edit.stop at hrange' ⊢
      rcases hindex with ⟨hblank, hindex⟩ | hindex
      · have hone : hit'.2.len ≠ 0 ∧ hit'.2.start + hit'.2.len = lines.length → hit'.2.len = 1 :=
          fun h => hone ⟨hblank, h⟩
        omega
      · omega
    · obtain ⟨hstart', -⟩ := hadd' hmatch'
      unfold Edit.stop
      omega

/-! ## The patch -/

/-- Where no chunk at the end of the file reaches back before an earlier match, and the additions are clear of a
blank last line that is matched, the replacements of a patch are in range, apart and in the order of their
chunks, additions aside; making them is the splice of the file; and what the result lacks is the lines that
were matched, and what it has more is the new lines, less the blank ends that were not looked for. -/
theorem chunks_spliced (h : placeChunks lines path 0 chunks = .ok placed)
    (heof : (chunks.zip placed).Pairwise EndsBehind)
    (hclear : (chunks.zip placed).Pairwise (ClearOfBlankEnd lines)) :
    List.Forall₂ (Placed lines) chunks placed ∧ (chunks.zip placed).Pairwise MatchesInOrder ∧
      ∃ replacements, computeReplacements lines path chunks = .ok replacements ∧
        replacements.Perm placed ∧ (∀ r ∈ replacements, r.stop ≤ lines.length) ∧
          replacements.Pairwise Edit.Before ∧
            applyReplacements lines replacements = some (Edit.splice lines 0 replacements) ∧
              (Edit.splice lines 0 replacements ++ placed.flatMap fun r => r.block lines).Perm
                (lines ++ placed.flatMap Edit.new) := by
  obtain ⟨hplaced, hrange, hadditions⟩ := placeChunks_placed (Nat.zero_le _) h
  obtain ⟨-, horder⟩ := placeChunks_inOrder (Nat.zero_le _) h (le_refl 0) heof
    fun _ _ _ _ => Nat.zero_le _
  have hhits : (chunks.zip placed).map Prod.snd = placed :=
    List.map_snd_zip (le_of_eq hplaced.length_eq.symm)
  have hmem : ∀ hit ∈ chunks.zip placed, hit.2.stop ≤ lines.length := fun hit hhit =>
    hrange hit.2 (hhits ▸ List.mem_map_of_mem hhit)
  have hapart : placed.Pairwise Edit.Apart := by
    rw [← hhits, List.pairwise_map]
    refine (horder.and hclear).imp_of_mem fun {hit hit'} hhit hhit' hboth => ?_
    exact apart_of_clear hboth.1 hboth.2 (hmem hit hhit) (hmem hit' hhit') (hadditions hit hhit)
      (hadditions hit' hhit')
  have hperm : (placed.insertionSort Edit.startsBefore).Perm placed := List.perm_insertionSort ..
  have hsorted := Edit.pairwise_insertionSort hapart
  have hrange' : ∀ r ∈ placed.insertionSort Edit.startsBefore, r.stop ≤ lines.length := fun r hr =>
    hrange r (hperm.mem_iff.mp hr)
  have hcompute : computeReplacements lines path chunks =
      .ok (placed.insertionSort Edit.startsBefore) := by
    unfold computeReplacements
    rw [h]
    rfl
  refine ⟨hplaced, horder, _, hcompute, hperm, hrange', hsorted, applyReplacements_eq hsorted hrange', ?_⟩
  have hsplice : (Edit.splice lines 0 _ ++ _).Perm _ :=
    Edit.splice_perm (fun _ _ => Nat.zero_le _) hsorted
  have hblocks := (hperm.flatMap_right fun r => r.block lines).append_left
    (Edit.splice lines 0 (placed.insertionSort Edit.startsBefore))
  exact hblocks.symm.trans (hsplice.trans ((hperm.flatMap_right Edit.new).append_left _))

/-- Two matches, an addition before the blank end, and a match of the last line with text. -/
theorem chunks_spliced_sample : ∃ replacements,
    computeReplacements ["a", "b", "c", ""] "f" [{ oldLines := ["a"], newLines := ["x", "y"] },
      { oldLines := [], newLines := ["z"] }, { oldLines := ["c"], newLines := [] }] = .ok replacements ∧
      applyReplacements ["a", "b", "c", ""] replacements = some ["x", "y", "b", "z", ""] := by
  have hplaced : placeChunks ["a", "b", "c", ""] "f" 0 [{ oldLines := ["a"], newLines := ["x", "y"] },
      { oldLines := [], newLines := ["z"] }, { oldLines := ["c"], newLines := [] }] =
      .ok [⟨0, 1, ["x", "y"]⟩, ⟨3, 0, ["z"]⟩, ⟨2, 1, []⟩] := by decide +kernel
  obtain ⟨-, -, replacements, hcompute, -, -, -, happly, -⟩ := chunks_spliced hplaced
    (by simp [EndsBehind]) (by simp [ClearOfBlankEnd, TakesBlankEnd, Hit.IsMatch, Edit.stop])
  refine ⟨replacements, hcompute, happly.trans ?_⟩
  have hsorted : computeReplacements ["a", "b", "c", ""] "f"
      [{ oldLines := ["a"], newLines := ["x", "y"] }, { oldLines := [], newLines := ["z"] },
        { oldLines := ["c"], newLines := [] }] =
      .ok [⟨0, 1, ["x", "y"]⟩, ⟨2, 1, []⟩, ⟨3, 0, ["z"]⟩] := by decide +kernel
  rw [hsorted] at hcompute
  rw [← Except.ok.inj hcompute]
  rfl

/-- A patch succeeds, and one of its new lines is not in the result. -/
def LeavesOut (lines : List String) (chunks : List UpdateFileChunk) : Prop :=
  ∃ replacements result, computeReplacements lines "f" chunks = .ok replacements ∧
    applyReplacements lines replacements = some result ∧
      ∃ chunk ∈ chunks, ∃ line ∈ chunk.newLines, line ∉ result

/-- A blank new line is left out where its chunk is found without its blank end; and of two chunks that meet,
at the end of the file or at its blank last line, the one removes new lines of the other. -/
theorem new_lines_left_out :
    LeavesOut ["a"] [{ oldLines := ["a", ""], newLines := ["b", ""] }] ∧
      LeavesOut ["a", "b"] [{ oldLines := ["b"], newLines := ["x"] },
        { oldLines := ["b"], newLines := ["y"], isEndOfFile := true }] ∧
      LeavesOut ["a", ""] [{ oldLines := ["a", ""], newLines := ["b", ""] },
        { oldLines := [], newLines := ["c"] }] := by
  refine ⟨⟨[⟨0, 1, ["b"]⟩], ["b"], ?_, ?_, ?_⟩, ⟨[⟨1, 1, ["x"]⟩, ⟨1, 1, ["y"]⟩], ["a", "x"], ?_, ?_, ?_⟩,
    ⟨[⟨0, 2, ["b", ""]⟩, ⟨1, 0, ["c"]⟩], ["b", "", ""], ?_, ?_, ?_⟩⟩ <;> decide +kernel

end Lightspeed.Files
