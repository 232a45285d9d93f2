import Lightspeed.Daemon.OutputLog

/-!
# What a log accounts for

Every offset below the end of a log is in a segment, in an overflow range or below what was released, and a
segment holds at an offset what was first recorded there. The pieces of the operations keep this: an append, a
hole that is skipped, a segment that is split, and one that loses its first bytes, which are then either
released or dropped.
-/

namespace Lightspeed.Daemon

open Lib

variable {log : OutputLog} {history segments kept rest : List Segment} {segment front record : Segment}
  {stream : OutputStream} {data : List UInt8} {offset count keep cap cursor headEnd excess stop : Nat}
  {held : OutputStream × UInt8}

/-- The stream and the byte at an offset, by the first entry of the history that has it. -/
def appended (history : List Segment) (offset : Nat) : Option (OutputStream × UInt8) :=
  history.findSome? (·.at? offset)

theorem appended_append_of_some (h : appended history offset = some held) :
    appended (history ++ [record]) offset = some held := by
  unfold appended at *
  rw [List.findSome?_append, h, Option.some_or]

theorem appended_append_of_none (h : appended history offset = none) :
    appended (history ++ [record]) offset = record.at? offset := by
  unfold appended at *
  rw [List.findSome?_append, h, Option.none_or, List.findSome?_singleton]

/-- A log that accounts for every byte, given what it was told in order. -/
structure Accounts (history : List Segment) (log : OutputLog) : Prop where
  laid : Laid log.segments
  within : Within log.releasedUntil log.stop log.segments
  total : log.retained = bytes log.segments
  told : ∀ segment ∈ log.segments, ∀ offset held, segment.at? offset = some held →
    appended history offset = some held
  spread : Spread log.overflow
  dropped : ∀ range ∈ log.overflow, log.releasedUntil ≤ range.1 ∧ range.2 ≤ log.stop
  released : log.releasedUntil ≤ log.stop
  cover : ∀ offset, log.releasedUntil ≤ offset → offset < log.stop →
    Held log.segments offset ∨ Covered log.overflow offset
  apart : ∀ offset, Held log.segments offset → ¬ Covered log.overflow offset
  past : ∀ offset, log.stop ≤ offset → appended history offset = none

theorem accounts_empty : Accounts [] OutputLog.empty where
  laid := Laid.nil
  within := by simp [Within, OutputLog.empty]
  total := rfl
  told := by simp [OutputLog.empty]
  spread := Spread.nil
  dropped := by simp [OutputLog.empty]
  released := le_rfl
  cover := by simp [OutputLog.empty]
  apart := by simp [OutputLog.empty]
  past := by simp [appended]

theorem Within.spans {low high : Nat} (h : Within low high segments) (hheld : Held segments offset) :
    low ≤ offset ∧ offset < high := by
  obtain ⟨segment, hsegment, hlow, hhigh⟩ := hheld
  obtain ⟨hfrom, hto⟩ := h segment hsegment
  exact ⟨le_trans hfrom hlow, lt_of_lt_of_le hhigh hto⟩

/-! ## Appends -/

/-- A record that says nothing past the end adds nothing. -/
theorem Accounts.repeated (h : Accounts history log)
    (hrecord : ∀ offset, log.stop ≤ offset → record.at? offset = none) : Accounts (history ++ [record]) log where
  laid := h.laid
  within := h.within
  total := h.total
  told := fun segment hsegment offset held hheld => appended_append_of_some (h.told segment hsegment offset held hheld)
  spread := h.spread
  dropped := h.dropped
  released := h.released
  cover := h.cover
  apart := h.apart
  past := by
    intro offset hoffset
    rw [appended_append_of_none (h.past offset hoffset), hrecord offset hoffset]

/-- Past its end a segment has nothing. -/
theorem Segment.at?_eq_none (h : segment.stop ≤ offset) : segment.at? offset = none := by
  rw [Option.eq_none_iff_forall_ne_some]
  intro held hheld
  have hspans := (Segment.spans_of_at? hheld).2
  omega

/-- Bytes are appended as a segment of their own, or at the end of the last one. -/
theorem append_segments (log : OutputLog) (stream : OutputStream) (hdata : data ≠ []) :
    (log.append stream data).segments = log.segments ++ [⟨log.stop, stream, data⟩] ∨
    ∃ earlier last, log.segments = earlier ++ [last] ∧ last.stream = stream ∧ last.stop = log.stop ∧
      (log.append stream data).segments = earlier ++ [{ last with data := last.data ++ data }] := by
  unfold OutputLog.append
  rw [if_neg (by simpa using hdata)]
  rcases hlast : log.segments.getLast? with _ | last
  · exact Or.inl rfl
  · obtain ⟨earlier, hsegments⟩ := List.getLast?_eq_some_iff.mp hlast
    dsimp only
    split_ifs with hmerge
    · refine Or.inr ⟨earlier, last, hsegments, hmerge.1, hmerge.2.1, ?_⟩
      rw [hsegments, List.dropLast_concat]
    · exact Or.inl rfl

/-- What merging bytes into the last segment comes to. -/
theorem merged_at? (hstop : segment.stop = stop) (hstream : segment.stream = stream)
    (h : ({ segment with data := segment.data ++ data } : Segment).at? offset = some held) :
    segment.at? offset = some held ∨ (⟨stop, stream, data⟩ : Segment).at? offset = some held := by
  have hlen : segment.offset + segment.data.length = stop := hstop
  unfold Segment.at? at *
  dsimp only at *
  split_ifs at h with hlow
  by_cases hbefore : offset - segment.offset < segment.data.length
  · left
    rw [if_pos hlow]
    rwa [List.getElem?_append_left hbefore] at h
  · right
    rw [List.getElem?_append_right (Nat.not_lt.mp hbefore), hstream] at h
    rw [if_pos (by omega : stop ≤ offset)]
    have hindex : offset - segment.offset - segment.data.length = offset - stop := by omega
    rwa [hindex] at h

/-- Segments to which a piece was added behind them. -/
structure Grown (segments : List Segment) (piece : Segment) (grown : List Segment) : Prop where
  laid : Laid grown
  within : ∀ low, low ≤ piece.offset → Within low piece.offset segments → Within low piece.stop grown
  total : bytes grown = bytes segments + piece.data.length
  held : ∀ offset, Held grown offset ↔ Held segments offset ∨ piece.Spans offset
  told : ∀ segment ∈ grown, ∀ offset held, segment.at? offset = some held →
    (∃ earlier ∈ segments, earlier.at? offset = some held) ∨ piece.at? offset = some held

theorem append_grown (stream : OutputStream) (hlaid : Laid log.segments)
    (hwithin : ∀ segment ∈ log.segments, segment.stop ≤ log.stop) (hdata : data ≠ []) :
    Grown log.segments ⟨log.stop, stream, data⟩ (log.append stream data).segments := by
  rcases append_segments log stream hdata with hpushed | hmerged
  · rw [hpushed]
    refine ⟨Laid.append_iff.mpr ⟨hlaid, Laid.cons_iff.mpr ⟨hdata, by simp, Laid.nil⟩, ?_⟩, ?_, by simp, by simp, ?_⟩
    · intro segment hsegment next hnext
      rw [List.mem_singleton.mp hnext]
      exact hwithin segment hsegment
    · intro low hlow hold segment hsegment
      rcases List.mem_append.mp hsegment with hsegment | hsegment
      · have hbounds := hold segment hsegment
        exact ⟨hbounds.1, le_trans hbounds.2 (Nat.le_add_right _ _)⟩
      · rw [List.mem_singleton.mp hsegment]
        exact ⟨hlow, le_rfl⟩
    · intro segment hsegment offset held hheld
      rcases List.mem_append.mp hsegment with hsegment | hsegment
      · exact Or.inl ⟨segment, hsegment, hheld⟩
      · exact Or.inr (List.mem_singleton.mp hsegment ▸ hheld)
  · obtain ⟨earlier, last, hsegments, hstream, hstop, hsame⟩ := hmerged
    rw [hsame, hsegments]
    rw [hsegments] at hlaid
    obtain ⟨hearlier, hlast, hacross⟩ := Laid.append_iff.mp hlaid
    have hend : last.offset + last.data.length = log.stop := hstop
    refine ⟨Laid.append_iff.mpr ⟨hearlier, Laid.cons_iff.mpr ⟨by simp [hdata], by simp, Laid.nil⟩, ?_⟩, ?_, ?_, ?_, ?_⟩
    · intro segment hsegment next hnext
      rw [List.mem_singleton.mp hnext]
      exact hacross segment hsegment last List.mem_cons_self
    · intro low hlow hold segment hsegment
      rcases List.mem_append.mp hsegment with hsegment | hsegment
      · have hbounds := hold segment (List.mem_append_left _ hsegment)
        exact ⟨hbounds.1, le_trans hbounds.2 (Nat.le_add_right _ _)⟩
      · rw [List.mem_singleton.mp hsegment]
        refine ⟨(hold last (by simp)).1, ?_⟩
        simp only [Segment.stop, List.length_append]
        omega
    · simp only [bytes_append, bytes_cons, bytes_nil, List.length_append]
      omega
    · intro offset
      simp only [held_append, held_cons, held_nil, or_false, or_assoc]
      apply or_congr_right
      simp only [Segment.Spans, Segment.stop, List.length_append]
      omega
    · intro segment hsegment offset held hheld
      rcases List.mem_append.mp hsegment with hsegment | hsegment
      · exact Or.inl ⟨segment, List.mem_append_left _ hsegment, hheld⟩
      · rw [List.mem_singleton.mp hsegment] at hheld
        rcases merged_at? hstop hstream hheld with hold | hnew
        · exact Or.inl ⟨last, by simp, hold⟩
        · exact Or.inr hnew

theorem append_rest (log : OutputLog) (stream : OutputStream) (hdata : data ≠ []) :
    (log.append stream data).stop = log.stop + data.length ∧
    (log.append stream data).retained = log.retained + data.length ∧
    (log.append stream data).releasedUntil = log.releasedUntil ∧
    (log.append stream data).overflow = log.overflow := by
  unfold OutputLog.append
  rw [if_neg (by simpa using hdata)]
  exact ⟨rfl, rfl, rfl, rfl⟩

theorem append_nil (hdata : data = []) : log.append stream data = log := by
  unfold OutputLog.append
  rw [if_pos (by simpa using hdata)]

/-- An append accounts for the bytes of what is recorded that the log does not have yet. -/
theorem Accounts.append (h : Accounts history log) (hskip : record.offset + count = log.stop) :
    Accounts (history ++ [record]) (log.append record.stream (record.data.drop count)) := by
  by_cases hdata : record.data.drop count = []
  · rw [append_nil hdata]
    apply h.repeated
    intro offset hoffset
    apply Segment.at?_eq_none
    have hlength : record.data.length ≤ count := List.drop_eq_nil_iff.mp hdata
    show record.offset + record.data.length ≤ offset
    omega
  · have hcount : count < record.data.length := by
      by_contra hle
      exact hdata (List.drop_eq_nil_iff.mpr (Nat.not_lt.mp hle))
    have hpiece : record.drain count = ⟨log.stop, record.stream, record.data.drop count⟩ := by
      rw [← hskip]
      rfl
    have hstop : (record.drain count).stop = record.stop := Segment.drain_stop hcount.le
    have hgrown := append_grown record.stream h.laid (fun segment hsegment => (h.within segment hsegment).2) hdata
    rw [← hpiece] at hgrown
    obtain ⟨hstop', hretained, hreleased, hoverflow⟩ := append_rest log record.stream hdata
    have hend : (log.append record.stream (record.data.drop count)).stop = (record.drain count).stop := by
      rw [hstop', hpiece]
      rfl
    have hoffset : (record.drain count).offset = log.stop := by rw [hpiece]
    have hlater : log.stop ≤ (record.drain count).stop := hoffset ▸ Nat.le_add_right _ _
    refine ⟨hgrown.laid, ?_, ?_, ?_, ?_, ?_, ?_, ?_, ?_, ?_⟩
    · rw [hreleased, hend]
      exact hgrown.within _ (hoffset ▸ h.released) (hoffset ▸ h.within)
    · rw [hretained, hgrown.total, h.total, hpiece]
    · intro segment hsegment offset held hheld
      rcases hgrown.told segment hsegment offset held hheld with ⟨earlier, hearlier, hold⟩ | hnew
      · exact appended_append_of_some (h.told earlier hearlier offset held hold)
      · have hfrom : log.stop ≤ offset := hoffset ▸ (Segment.spans_of_at? hnew).1
        rw [appended_append_of_none (h.past offset hfrom)]
        exact Segment.at?_of_drain hnew
    · rw [hoverflow]
      exact h.spread
    · rw [hoverflow, hreleased, hend]
      exact fun range hrange => ⟨(h.dropped range hrange).1, le_trans (h.dropped range hrange).2 hlater⟩
    · rw [hreleased, hend]
      exact le_trans h.released hlater
    · intro offset hlow hhigh
      rw [hreleased] at hlow
      rw [hend] at hhigh
      rw [hgrown.held, hoverflow]
      rcases Nat.lt_or_ge offset log.stop with hbefore | hafter
      · rcases h.cover offset hlow hbefore with hheld | hcovered
        · exact Or.inl (Or.inl hheld)
        · exact Or.inr hcovered
      · exact Or.inl (Or.inr ⟨hoffset ▸ hafter, hhigh⟩)
    · intro offset hheld
      rw [hoverflow]
      rcases (hgrown.held offset).mp hheld with hheld | hnew
      · exact h.apart offset hheld
      · rintro ⟨range, hrange, -, hin⟩
        have hlow : log.stop ≤ offset := hoffset ▸ hnew.1
        have hhigh := (h.dropped range hrange).2
        omega
    · intro offset hfrom
      rw [hend] at hfrom
      rw [appended_append_of_none (h.past offset (le_trans hlater hfrom))]
      exact Segment.at?_eq_none (hstop ▸ hfrom)

/-- A hole that is skipped reads as overflow. -/
theorem Accounts.skipTo (h : Accounts history log) : Accounts history (log.skipTo offset) := by
  unfold OutputLog.skipTo
  split_ifs with hafter
  · refine ⟨h.laid, h.within.mono le_rfl hafter.le, h.total, h.told, h.spread.addRange, ?_, ?_, ?_, ?_, ?_⟩
    · apply addRange_within ⟨h.released, le_rfl⟩
      exact fun range hrange => ⟨(h.dropped range hrange).1, le_trans (h.dropped range hrange).2 hafter.le⟩
    · exact le_trans h.released hafter.le
    · intro point hlow hhigh
      show Held log.segments point ∨ Covered (addRange log.stop offset log.overflow) point
      rw [covered_addRange h.spread]
      rcases Nat.lt_or_ge point log.stop with hbefore | hfrom
      · rcases h.cover point hlow hbefore with hheld | hcovered
        · exact Or.inl hheld
        · exact Or.inr (Or.inr hcovered)
      · exact Or.inr (Or.inl ⟨hfrom, hhigh⟩)
    · intro point hheld
      show ¬ Covered (addRange log.stop offset log.overflow) point
      rw [covered_addRange h.spread]
      rintro (hhole | hcovered)
      · exact absurd (h.within.spans hheld).2 (Nat.not_lt.mpr hhole.1)
      · exact h.apart point hheld hcovered
    · exact fun point hfrom => h.past point (le_trans hafter.le hfrom)
  · exact h

/-! ## Records -/

/-- A record is accounted for whether its bytes are new, partly new or all there. -/
theorem Accounts.addRecord (h : Accounts history log) : Accounts (history ++ [record]) (log.addRecord record) := by
  unfold OutputLog.addRecord
  split_ifs with hempty hend
  · apply h.repeated
    intro offset _
    have hdata : record.data = [] := by simpa using hempty
    simp [Segment.at?, hdata]
  · exact h.repeated (fun offset hfrom => Segment.at?_eq_none (le_trans hend hfrom))
  · have hskipped : Accounts history (log.skipTo (max record.offset log.stop)) := h.skipTo
    have hstop : (log.skipTo (max record.offset log.stop)).stop = max record.offset log.stop := by
      unfold OutputLog.skipTo
      split_ifs with hafter
      · rfl
      · show log.stop = max record.offset log.stop
        omega
    apply hskipped.append
    rw [hstop]
    omega

/-- A log rebuilt from records accounts for them, whatever their order. -/
theorem accounts_fromRecords (records : List Segment) (stop : Nat) :
    Accounts records (OutputLog.fromRecords records stop) := by
  have hfold : ∀ (records history : List Segment) (log : OutputLog), Accounts history log →
      Accounts (history ++ records) (records.foldl OutputLog.addRecord log) := by
    intro records
    induction records with
    | nil =>
      intro history log h
      rwa [List.append_nil]
    | cons record rest ih =>
      intro history log h
      have hrest := ih (history ++ [record]) (log.addRecord record) h.addRecord
      rwa [List.append_assoc] at hrest
  exact (hfold records [] OutputLog.empty accounts_empty).skipTo

end Lightspeed.Daemon
