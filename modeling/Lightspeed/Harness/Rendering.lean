import Mathlib.Data.List.TakeWhile
import Lightspeed.Harness.Frames

/-!
# What is rendered

Rendering reorders the active entries: instructions come first, then what stands for a compacted prefix,
then the rest with tool groups kept together. Nothing is dropped and nothing is rendered twice.
-/

namespace Lightspeed.Harness

open Lib

variable {s : CoreAgentState} {entries : List ContextEntry}

/-- The entries that a scan has taken so far. -/
def GroupScan.taken (scan : GroupScan) : List ContextEntry := scan.rendered ++ scan.held

theorem GroupScan.enter_taken (scan : GroupScan) (entry : ContextEntry) :
    (scan.enter entry).taken = scan.taken := by
  unfold GroupScan.enter
  split_ifs
  · exact List.append_nil _
  · rfl

/-- A step takes its entry, and drops none. -/
theorem GroupScan.step_taken (scan : GroupScan) (entry : ContextEntry) :
    (scan.step entry).taken.Perm (scan.taken ++ [entry]) := by
  rw [← scan.enter_taken entry]
  generalize hscan : scan.enter entry = entered
  unfold GroupScan.step
  rw [hscan]
  have hmoved : (entered.rendered ++ [entry] ++ entered.held).Perm
      (entered.rendered ++ entered.held ++ [entry]) := by
    rw [List.append_assoc, List.append_assoc]
    exact List.Perm.append_left _ List.perm_append_comm
  have hheld : entered.rendered ++ (entered.held ++ [entry]) =
      entered.rendered ++ entered.held ++ [entry] := (List.append_assoc _ _ _).symm
  unfold GroupScan.place GroupScan.taken
  dsimp only
  split_ifs
  · rw [List.append_nil]
    exact hmoved
  · rw [List.append_nil, hheld]
  · exact hmoved
  · rw [hheld]

/-- Keeping tool groups together reorders the entries. -/
theorem toolGroupsAdjacent_perm (entries : List ContextEntry) :
    (toolGroupsAdjacent entries).Perm entries := by
  have hscan : ∀ (rest : List ContextEntry) (scan : GroupScan),
      (rest.foldl GroupScan.step scan).taken.Perm (scan.taken ++ rest) := by
    intro rest
    induction rest with
    | nil => intro scan; rw [List.foldl_nil, List.append_nil]
    | cons entry rest ih =>
      intro scan
      refine (ih (scan.step entry)).trans ?_
      rw [List.append_cons scan.taken entry rest]
      exact (scan.step_taken entry).append_right rest
  exact hscan entries {}

/-- Rendering reorders the active entries. -/
theorem plannedContextEntries_perm (s : CoreAgentState) :
    (plannedContextEntries s).Perm s.context.entries := by
  let entries := s.context.entries
  let rest := entries.filter fun entry => !(entry.kind == .instructions)
  have hfront : entries.filter (fun entry => entry.kind != .instructions && isStandalonePrefix entry) =
      rest.filter isStandalonePrefix := by
    rw [List.filter_filter]
    exact List.filter_congr fun entry _ => Bool.and_comm _ _
  have hbody : bodyEntries s = rest.filter (fun entry => !isStandalonePrefix entry) := by
    rw [List.filter_filter]
    exact List.filter_congr fun entry _ => Bool.and_comm _ _
  have hrest : (rest.filter isStandalonePrefix ++ toolGroupsAdjacent (bodyEntries s)).Perm rest := by
    rw [hbody]
    exact ((toolGroupsAdjacent_perm _).append_left _).trans (List.filter_append_perm _ _)
  unfold plannedContextEntries
  rw [hfront, List.append_assoc]
  refine (hrest.append_left _).trans ?_
  refine ((List.perm_insertionSort _ _).append_right _).trans ?_
  exact List.filter_append_perm (fun entry : ContextEntry => entry.kind == .instructions) entries

theorem mem_plannedContextEntries {entry : ContextEntry} :
    entry ∈ plannedContextEntries s ↔ entry ∈ s.context.entries :=
  (plannedContextEntries_perm s).mem_iff

/-- What a standalone compaction covers is active, and may leave context. -/
theorem mem_standalonePrefixEntries {entry : ContextEntry} (h : entry ∈ standalonePrefixEntries s) :
    entry ∈ s.context.entries ∧ isRemovable s entry.entryId = true := by
  unfold standalonePrefixEntries at h
  dsimp only at h
  have hremovable := List.mem_takeWhile_imp h
  have hmem := List.mem_of_mem_take (List.takeWhile_subset _ h)
  exact ⟨mem_plannedContextEntries.mp (List.mem_filter.mp hmem).1, hremovable⟩

theorem standalonePrefixIds_nodup (hinv : EntriesInv s) : (standalonePrefixIds s).Nodup := by
  have hplanned : ((plannedContextEntries s).map ContextEntry.entryId).Nodup :=
    ((plannedContextEntries_perm s).map _).nodup_iff.mpr hinv.nodup
  have hsub : (standalonePrefixEntries s).Sublist (plannedContextEntries s) :=
    ((List.takeWhile_sublist _).trans (List.take_sublist _ _)).trans List.filter_sublist
  exact hplanned.sublist (hsub.map _)

end Lightspeed.Harness
