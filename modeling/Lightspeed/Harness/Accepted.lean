import Lightspeed.Harness.Boundary

/-!
# Appends that the reducer takes

The other lemmas read what an append that was reduced has done. Here is what an append needs to be
reduced: `Commits` follows a list of proposals event by event, and the entries that the drive numbers
itself always follow on.
-/

namespace Lightspeed.Harness

open Lib

variable {sessionId : SessionId} {s t u : CoreAgentState} {input : DriveInput} {ms : Nat}
  {entry : ContextEntry} {entries : List ContextEntry} {proposal : CoreAgentEventProposal}
  {proposals front back : List CoreAgentEventProposal}

/-! ## Proposals one after another -/

/-- The reducer takes the proposals, from `s` to `t`. -/
def Commits (ms : Nat) (s : CoreAgentState) (proposals : List CoreAgentEventProposal)
    (t : CoreAgentState) : Prop :=
  (entriesFrom ms s.nextSeq proposals).foldlM applyEvent s = .ok t

/-- The state once the event at its next position is reduced to `m`. -/
def CoreAgentState.reducedAt (s m : CoreAgentState) : CoreAgentState :=
  { m with reducedTo := some s.nextSeq }

@[simp]
theorem commits_nil : Commits ms s [] t ↔ t = s := by
  unfold Commits
  rw [entriesFrom, List.foldlM_nil, pure_eq_ok, eq_comm]

theorem commits_cons : Commits ms s (proposal :: proposals) t ↔
    ∃ m, applyEventKind s (proposal.entry s.nextSeq ms) = .ok m ∧
      Commits ms (s.reducedAt m) proposals t := by
  unfold Commits
  rw [entriesFrom, foldlM_cons_eq_ok]
  constructor
  · rintro ⟨_, hstep, hrest⟩
    obtain ⟨-, m, hm, rfl⟩ := applyEvent_eq_ok.mp hstep
    exact ⟨m, hm, hrest⟩
  · rintro ⟨m, hm, hrest⟩
    exact ⟨_, applyEvent_eq_ok.mpr ⟨rfl, m, hm, rfl⟩, hrest⟩

theorem commits_nextSeq (h : Commits ms s proposals t) : t.nextSeq = s.nextSeq + proposals.length := by
  induction proposals generalizing s with
  | nil =>
    rw [commits_nil.mp h]
    rfl
  | cons first rest ih =>
    obtain ⟨m, -, hrest⟩ := commits_cons.mp h
    rw [ih hrest, List.length_cons, Nat.add_comm rest.length 1, ← Nat.add_assoc]
    rfl

theorem commits_append : Commits ms s (front ++ back) u ↔
    ∃ t, Commits ms s front t ∧ Commits ms t back u := by
  constructor
  · intro h
    unfold Commits at h
    rw [entriesFrom_append] at h
    obtain ⟨t, hfront, hback⟩ := foldlM_append_eq_ok.mp h
    have hfront' : Commits ms s front t := hfront
    refine ⟨t, hfront', ?_⟩
    unfold Commits
    rwa [commits_nextSeq hfront']
  · rintro ⟨t, hfront, hback⟩
    unfold Commits at hback ⊢
    rw [commits_nextSeq hfront] at hback
    rw [entriesFrom_append]
    exact foldlM_append_eq_ok.mpr ⟨t, hfront, hback⟩

/-- An input is answered when its proposals are reduced with the side effects of the ends of runs. -/
theorem propose_iff : (∃ committed, proposeEntries sessionId s (ms, input) = .ok committed ∧
      committed.foldlM applyEvent s = .ok t) ↔
    ∃ proposals, inputProposals sessionId s ms input = .ok proposals ∧
      Commits ms s (withRunTerminalSideEffects s proposals) t := by
  have hdriven : ∀ {α : Type} {checked : Result α} {a : α}, driven checked = .ok a ↔ checked = .ok a := by
    intro α checked a
    cases checked <;> simp [driven]
  simp only [proposeEntries, appendAction, bind_eq_ok, Except.ok.injEq]
  constructor
  · rintro ⟨_, ⟨proposals, hproposals, _, -, rfl⟩, hcommit⟩
    exact ⟨proposals, hproposals, hcommit⟩
  · rintro ⟨proposals, hproposals, hcommit⟩
    exact ⟨_, ⟨proposals, hproposals, t, hdriven.mpr hcommit, rfl⟩, hcommit⟩

/-! ## Entries that the drive numbers -/

/-- Whether an entry is recorded on its run. -/
def ContextEntrySource.isMaterial : ContextEntrySource → Bool
  | .runInput _ _ | .steering _ _ _ => true
  | _ => false

/-- Entries without a key that no run waits for, numbered from `last` on. -/
def PlainAfter (last : Nat) : List ContextEntry → Prop
  | [] => True
  | entry :: rest => entry.entryId = last + 1 ∧ entry.key = none ∧
      entry.source.isMaterial = false ∧ PlainAfter (last + 1) rest

theorem plainAfter_inputs {last : Nat} {inputs : List SourcedInput}
    (h : ∀ sourced ∈ inputs, sourced.1 = none ∧ sourced.2.1.isMaterial = false) :
    PlainAfter last (contextEntriesAfter s last inputs) := by
  induction inputs generalizing last with
  | nil => trivial
  | cons first rest ih =>
    obtain ⟨hkey, hsource⟩ := h first List.mem_cons_self
    exact ⟨rfl, hkey, hsource, ih fun sourced hmem => h sourced (List.mem_cons_of_mem _ hmem)⟩

theorem PlainAfter.stored {last : Nat} (h : PlainAfter last entries) :
    PlainAfter last (entries.map ContextEntry.stored) := by
  induction entries generalizing last with
  | nil => trivial
  | cons first rest ih => exact ⟨h.1, h.2.1, h.2.2.1, ih h.2.2.2⟩

/-- The state with more entries at the end of its context. -/
def CoreAgentState.appendEntries (s : CoreAgentState) (entries : List ContextEntry) :
    CoreAgentState :=
  { s with
    context := { s.context with entries := s.context.entries ++ entries }
    idCursors := { s.idCursors with
      lastContextEntryId := s.idCursors.lastContextEntryId + entries.length } }

theorem validateNextEntry_next (hinv : EntriesInv s)
    (hid : entry.entryId = s.idCursors.lastContextEntryId + 1) : validateNextEntry s entry = .ok () := by
  refine validateNextEntry_eq_ok.mpr ⟨hid, ?_, fun last hlast => ?_⟩
  · unfold entryById
    refine List.find?_eq_none.mpr fun other hother heq => ?_
    have hle := hinv.bound other hother
    have hsame : other.entryId = entry.entryId := by simpa using heq
    rw [hsame, hid] at hle
    exact absurd hle (Nat.not_succ_le_self _)
  · rw [hid]
    exact Nat.lt_succ_of_le (hinv.bound last (List.mem_of_getLast? hlast))

/-- The next entry is taken when it has no key and its source can record it. -/
theorem applyEntry_unkeyed {recorded : CoreAgentState} (hinv : EntriesInv s)
    (hid : entry.entryId = s.idCursors.lastContextEntryId + 1) (hkey : entry.key = none)
    (hrecord : recordEntryMaterialization s entry = .ok recorded) :
    applyEntry s entry = .ok (appendEntry recorded entry) := by
  refine applyEntry_eq_ok.mpr ⟨validateNextEntry_next hinv hid, recorded, recorded, hrecord, ?_, ?_⟩
  · unfold replaceKeyed
    rw [hkey]
  · unfold capVersions
    rw [hkey]

theorem applyEntry_plain (hinv : EntriesInv s)
    (hid : entry.entryId = s.idCursors.lastContextEntryId + 1) (hkey : entry.key = none)
    (hsource : entry.source.isMaterial = false) : applyEntry s entry = .ok (appendEntry s entry) := by
  refine applyEntry_unkeyed hinv hid hkey ?_
  unfold recordEntryMaterialization
  cases hkind : entry.source with
  | runInput runId index | steering runId steeringId index => rw [hkind] at hsource; cases hsource
  | _ => rfl

theorem applyEntries_plain (hinv : EntriesInv s)
    (h : PlainAfter s.idCursors.lastContextEntryId entries) :
    entries.foldlM applyEntry s = .ok (s.appendEntries entries) := by
  induction entries generalizing s with
  | nil =>
    rw [List.foldlM_nil, pure_eq_ok]
    simp [CoreAgentState.appendEntries]
  | cons first rest ih =>
    obtain ⟨hid, hkey, hsource, hrest⟩ := h
    refine foldlM_cons_eq_ok.mpr ⟨_, applyEntry_plain hinv hid hkey hsource, ?_⟩
    have hlast : (appendEntry s first).idCursors.lastContextEntryId =
        s.idCursors.lastContextEntryId + 1 := hid
    rw [ih (hinv.appendEntry hid) (hlast ▸ hrest)]
    simp only [CoreAgentState.appendEntries, appendEntry, hid, List.append_assoc,
      List.singleton_append, List.length_cons]
    rw [Nat.add_assoc, Nat.add_comm 1]

theorem validateNoDuplicateEntryKeys_unkeyed {seen : List ContextEntryKey}
    (h : ∀ entry ∈ entries, entry.key = none) : validateNoDuplicateEntryKeys seen entries = .ok () := by
  induction entries with
  | nil => rfl
  | cons first rest ih =>
    rw [validateNoDuplicateEntryKeys, h first List.mem_cons_self]
    exact ih fun entry hmem => h entry (List.mem_cons_of_mem _ hmem)

theorem PlainAfter.unkeyed {last : Nat} (h : PlainAfter last entries) :
    ∀ entry ∈ entries, entry.key = none := by
  induction entries generalizing last with
  | nil => exact fun entry hmem => absurd hmem List.not_mem_nil
  | cons first rest ih =>
    intro entry hmem
    rcases List.mem_cons.mp hmem with rfl | hmem
    · exact h.2.1
    · exact ih h.2.2.2 entry hmem

/-- Entries that follow on are taken. -/
theorem entriesApplied_plain (hinv : EntriesInv s) (hne : entries ≠ [])
    (h : PlainAfter s.idCursors.lastContextEntryId entries) :
    applyContextEvent s (.entriesApplied s.context.revision entries) =
      .ok (bumpContextRevision (s.appendEntries entries)) := by
  refine entriesApplied_eq_ok.mpr ⟨rfl, _, ?_, rfl⟩
  exact applyEntriesApplied_eq_ok.mpr
    ⟨hne, validateNoDuplicateEntryKeys_unkeyed h.unkeyed, applyEntries_plain hinv h⟩

end Lightspeed.Harness
