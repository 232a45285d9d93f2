import Lightspeed.Lib.Numbered
import Lightspeed.Storage.Store

/-!
# The latest safe fork point

The latest position at which no run is open lies before the earliest of the runs that are open at the head.
A run that waited behind another one was accepted inside that run's range. Once the first one has ended, the
position before the second one is still inside of it.
-/

namespace Lightspeed.Storage

open Lib Harness

variable {sessionId : SessionId} {s : CoreAgentState} {log : List CoreAgentEntry} {head sourceSeq : EventSeq}

theorem validateForkPoint_eq_ok : validateForkPoint sessionId sourceSeq log head = .ok () ↔
    sourceSeq ≤ head ∧ ∀ range ∈ (coreRunRanges log).values,
      ¬ (range.firstSeq ≤ sourceSeq ∧ sourceSeq < range.terminalSeq.getD (head + 1)) := by
  unfold validateForkPoint
  rw [bind_eq_ok]
  simp only [require_eq_ok, forM_eq_ok, exists_and_left, exists_const]

/-- Where a range may begin and end. -/
def WithinSeqs (range : RunRange) (seqs : List EventSeq) : Prop :=
  range.firstSeq ∈ seqs ∧ ∀ stop ∈ range.terminalSeq, stop ∈ seqs

/-- A range begins and ends at entries of the log. -/
theorem coreRunRanges_within {runId : RunId} {range : RunRange}
    (h : (coreRunRanges log).get? runId = some range) : WithinSeqs range (log.map CoreAgentEntry.seq) := by
  induction log using List.reverseRecOn generalizing runId range with
  | nil => cases h
  | append_singleton log entry ih =>
    have hold : ∀ {id before}, (coreRunRanges log).get? id = some before →
        WithinSeqs before ((log ++ [entry]).map CoreAgentEntry.seq) := by
      intro id before hget
      rw [List.map_append]
      obtain ⟨hfirst, hstop⟩ := ih hget
      exact ⟨List.mem_append_left _ hfirst, fun stop h => List.mem_append_left _ (hstop stop h)⟩
    have hentry : entry.seq ∈ (log ++ [entry]).map CoreAgentEntry.seq := by simp
    cases hboundary : runBoundary entry with
    | none =>
      rw [coreRunRanges_snoc, noteRange, hboundary] at h
      exact hold h
    | some boundary =>
      rw [get?_noteRange hboundary] at h
      have hbase : WithinSeqs (((coreRunRanges log).get? runId).getD { runId, firstSeq := entry.seq })
          ((log ++ [entry]).map CoreAgentEntry.seq) := by
        cases hrange : (coreRunRanges log).get? runId with
        | none => exact ⟨hentry, by simp⟩
        | some before => exact hold hrange
      have hfirst : min (((coreRunRanges log).get? runId).getD
          { runId, firstSeq := entry.seq }).firstSeq entry.seq ∈ (log ++ [entry]).map CoreAgentEntry.seq := by
        rcases min_choice (((coreRunRanges log).get? runId).getD
          { runId, firstSeq := entry.seq }).firstSeq entry.seq with hmin | hmin <;> rw [hmin]
        exacts [hbase.1, hentry]
      dsimp only at h
      split_ifs at h
      · exact Option.some.inj h ▸ ⟨hfirst, fun stop hstop => Option.some.inj hstop ▸ hentry⟩
      · exact Option.some.inj h ▸ ⟨hfirst, hbase.2⟩
      · exact hold h

theorem le_headSeq {n : Nat} {entry : CoreAgentEntry} (h : Numbered CoreAgentEntry.seq n log)
    (hmem : entry ∈ log) : entry.seq ≤ headSeq log := by
  obtain ⟨last, hlast⟩ := Option.ne_none_iff_exists'.mp
    (mt List.getLast?_eq_none_iff.mp (List.ne_nil_of_mem hmem))
  have hle : entry.seq < n + log.length := (List.mem_range'_1.mp (h ▸ List.mem_map_of_mem hmem)).2
  unfold headSeq
  rw [hlast, Option.map_some, Option.getD_some]
  exact Nat.le_of_lt_succ (lt_of_lt_of_eq hle (h.getLast hlast).symm)

theorem reachable_log_numbered (h : Reachable sessionId s log) : Numbered CoreAgentEntry.seq 1 log := by
  refine (reachable_preserves (P := fun s log =>
    s.nextSeq = 1 + log.length ∧ Numbered CoreAgentEntry.seq 1 log) ⟨rfl, .nil⟩ ?_ h).2
  rintro base input s log entry t - ⟨hnext, hnumbered⟩ - happly
  obtain ⟨hseq, m, -, rfl⟩ := applyEvent_eq_ok.mp happly
  refine ⟨?_, Numbered.append_iff.mpr ⟨hnumbered, Numbered.cons_iff.mpr ⟨hseq.trans hnext, .nil⟩⟩⟩
  rw [List.length_append, List.length_singleton, ← Nat.add_assoc, ← hnext, ← hseq]
  rfl

/-- No run that has ended was open when the earliest of the runs that are open now was accepted. -/
def NoneEndedBefore (log : List CoreAgentEntry) : Prop :=
  ∀ first ∈ (((coreRunRanges log).values.filter
    (fun range => range.terminalSeq.isNone)).map RunRange.firstSeq).min?,
      ∀ range ∈ (coreRunRanges log).values, range.firstSeq < first → ∀ stop ∈ range.terminalSeq, stop < first

instance (log : List CoreAgentEntry) : Decidable (NoneEndedBefore log) := by
  unfold NoneEndedBefore
  infer_instance

/-- The latest safe fork point of a log is a fork point that is taken, and no later one is, exactly when
no run that has ended was open when the earliest of the open runs was accepted. -/
theorem safe_fork_seq_iff (h : Reachable sessionId s log) :
    (validateForkPoint sessionId (largestSafeForkSeq log (headSeq log)) log (headSeq log) = .ok () ∧
      ∀ later, largestSafeForkSeq log (headSeq log) < later → later ≤ headSeq log →
        validateForkPoint sessionId later log (headSeq log) ≠ .ok ()) ↔ NoneEndedBefore log := by
  have hnumbered := reachable_log_numbered h
  have hbounds : ∀ seq ∈ log.map CoreAgentEntry.seq, 1 ≤ seq ∧ seq ≤ headSeq log := by
    intro seq hseq
    obtain ⟨entry, hentry, rfl⟩ := List.mem_map.mp hseq
    exact ⟨hnumbered.first_le hentry, le_headSeq hnumbered hentry⟩
  have hwithin : ∀ range ∈ (coreRunRanges log).values,
      WithinSeqs range (log.map CoreAgentEntry.seq) := fun range hrange => by
    obtain ⟨id, hget⟩ := OrdMap.mem_values.mp hrange
    exact coreRunRanges_within hget
  unfold largestSafeForkSeq NoneEndedBefore
  simp only [validateForkPoint_eq_ok, ne_eq]
  cases hopen : (((coreRunRanges log).values.filter
      (fun range => range.terminalSeq.isNone)).map RunRange.firstSeq).min? with
  | none =>
    -- Every range has ended, at the head or before it.
    have hended : ∀ range ∈ (coreRunRanges log).values, range.terminalSeq.isSome := by
      intro range hrange
      rw [List.min?_eq_none_iff, List.map_eq_nil_iff, List.filter_eq_nil_iff] at hopen
      exact Option.isSome_iff_ne_none.mpr (by simpa using hopen range hrange)
    refine iff_of_true ⟨⟨le_refl _, fun range hrange hinside => ?_⟩, fun later hlt hle => ?_⟩ nofun
    · obtain ⟨stop, hstop⟩ := Option.isSome_iff_exists.mp (hended range hrange)
      have hle := (hbounds stop ((hwithin range hrange).2 stop hstop)).2
      rw [hstop] at hinside
      exact absurd hinside.2 (Nat.not_lt.mpr hle)
    · exact absurd hle (Nat.not_le.mpr hlt)
  | some first =>
    obtain ⟨hmem, hleast⟩ := List.min?_eq_some_iff.mp hopen
    obtain ⟨earliest, hearliest, rfl⟩ := List.mem_map.mp hmem
    obtain ⟨hvalue, hnone⟩ := List.mem_filter.mp hearliest
    obtain ⟨hone, hhead⟩ := hbounds _ (hwithin earliest hvalue).1
    have hnone := Option.isNone_iff_eq_none.mp hnone
    have hlater : ∀ later, earliest.firstSeq - 1 < later → later ≤ headSeq log →
        ¬ (later ≤ headSeq log ∧ ∀ range ∈ (coreRunRanges log).values,
          ¬ (range.firstSeq ≤ later ∧ later < range.terminalSeq.getD (headSeq log + 1))) := by
      rintro later hlt hle ⟨-, hall⟩
      refine hall earliest hvalue ⟨Nat.le_of_pred_lt hlt, ?_⟩
      rw [hnone]
      exact Nat.lt_succ_of_le hle
    show (_ ∧ ∀ later, earliest.firstSeq - 1 < later → _) ↔ _
    rw [and_iff_left hlater]
    constructor
    · rintro ⟨-, hall⟩ _ ⟨⟩ range hrange hlt stop hstop
      have hinside := hall range hrange
      rw [hstop] at hinside
      refine (Nat.le_sub_one_iff_lt hone).mp (Nat.not_lt.mp fun hge => ?_)
      exact hinside ⟨Nat.le_sub_one_of_lt hlt, hge⟩
    · refine fun hall => ⟨(Nat.sub_le ..).trans hhead, fun range hrange hinside => ?_⟩
      have hlt : range.firstSeq < earliest.firstSeq := (Nat.le_sub_one_iff_lt hone).mp hinside.1
      cases hstop : range.terminalSeq with
      | none =>
        have hge := hleast _ (List.mem_map_of_mem (List.mem_filter.mpr ⟨hrange, by rw [hstop]; rfl⟩))
        exact absurd hlt (Nat.not_lt.mpr hge)
      | some stop =>
        rw [hstop] at hinside
        have hafter := hall _ rfl range hrange hlt stop hstop
        exact absurd hinside.2 (Nat.not_lt.mpr (Nat.le_sub_one_of_lt hafter))

theorem safe_fork_seq_iff_twoRuns : ∃ s log, (drive "session").exec twoRuns = some (s, log) ∧
    validateForkPoint "session" (largestSafeForkSeq log (headSeq log)) log (headSeq log) = .ok () := by
  obtain ⟨⟨s, log⟩, hexec, hnone⟩ : ∃ p ∈ (drive "session").exec twoRuns, NoneEndedBefore p.2 := by
    decide +kernel
  exact ⟨s, log, hexec, ((safe_fork_seq_iff (EventSource.exec_reaches hexec)).mpr hnone).1⟩

/-- Two runs of which the first has ended: the second was accepted inside of the first one's range. -/
theorem safe_fork_seq_refused : ∃ s log,
    (drive "session").exec (twoRuns.take 4 ++ [(4, .admitCommand (.forceCancelRun 1))]) = some (s, log) ∧
      validateForkPoint "session" (largestSafeForkSeq log (headSeq log)) log (headSeq log) ≠ .ok () := by
  obtain ⟨⟨s, log⟩, hexec, hrefused⟩ : ∃ p ∈ (drive "session").exec
      (twoRuns.take 4 ++ [(4, .admitCommand (.forceCancelRun 1))]),
        validateForkPoint "session" (largestSafeForkSeq p.2 (headSeq p.2)) p.2 (headSeq p.2) ≠ .ok () := by
    decide +kernel
  exact ⟨s, log, hexec, hrefused⟩

end Lightspeed.Storage
