import Lightspeed.Daemon.OutputAccounts

/-!
# The retention cap

The cap is kept in two passes. The first releases delivered bytes from the front, the second drops bytes past the
head of what is undelivered. A pass takes bytes off the front of a segment, or first splits one at the head, and
each of these keeps what the log accounts for. What the second pass may not touch is at most half the cap, so that
it always finds enough to drop.
-/

namespace Lightspeed.Daemon

open Lib

variable {log : OutputLog} {history segments kept rest : List Segment} {segment front : Segment}
  {offset count keep cap cursor headEnd excess : Nat} {held : OutputStream × UInt8}

/-! ## A segment in parts -/

/-- What is left of a segment without its first bytes: nothing, when it is emptied. -/
def Segment.remains (segment : Segment) (count : Nat) : List Segment :=
  if (segment.drain count).data.isEmpty then [] else [segment.drain count]

theorem remains_of_nil (h : (segment.drain count).data.isEmpty = true) : segment.remains count = [] := if_pos h

theorem remains_of_ne (h : (segment.drain count).data.isEmpty = false) :
    segment.remains count = [segment.drain count] := if_neg (by rw [h]; exact Bool.false_ne_true)

/-- Segments that hold what a segment holds past its first bytes, and nothing else. -/
structure Parts (segment : Segment) (count : Nat) (parts : List Segment) : Prop where
  laid : Laid parts
  within : Within (segment.offset + count) segment.stop parts
  total : bytes parts + count = segment.data.length
  held : ∀ offset, Held parts offset ↔ segment.offset + count ≤ offset ∧ offset < segment.stop
  told : ∀ part ∈ parts, ∀ offset held, part.at? offset = some held → segment.at? offset = some held

theorem parts_drain (hcount : count < segment.data.length) : Parts segment count [segment.drain count] := by
  have hstop : (segment.drain count).stop = segment.stop := Segment.drain_stop hcount.le
  have hlength : (segment.drain count).data.length + count = segment.data.length := by
    show (segment.data.drop count).length + count = segment.data.length
    rw [List.length_drop]
    omega
  refine ⟨Laid.cons_iff.mpr ⟨?_, by simp, Laid.nil⟩, ?_, ?_, ?_, ?_⟩
  · rw [← List.length_pos_iff]
    omega
  · intro part hpart
    rw [List.mem_singleton.mp hpart]
    exact ⟨le_rfl, hstop.le⟩
  · rw [bytes_cons, bytes_nil]
    omega
  · intro offset
    simp only [held_cons, held_nil, or_false, Segment.Spans, hstop]
    rfl
  · intro part hpart offset held hheld
    rw [List.mem_singleton.mp hpart] at hheld
    exact Segment.at?_of_drain hheld

theorem parts_remains (hcount : count ≤ segment.data.length) : Parts segment count (segment.remains count) := by
  rcases hempty : (segment.drain count).data.isEmpty with _ | _
  · rw [remains_of_ne hempty]
    apply parts_drain
    by_contra hge
    have hnil : segment.data.drop count = [] := List.drop_eq_nil_iff.mpr (Nat.not_lt.mp hge)
    have hne : segment.data.drop count ≠ [] := by simpa [Segment.drain] using hempty
    exact hne hnil
  · rw [remains_of_nil hempty]
    have hnil : segment.data.drop count = [] := by simpa [Segment.drain] using hempty
    have hall : segment.data.length ≤ count := List.drop_eq_nil_iff.mp hnil
    have hstop : segment.stop = segment.offset + segment.data.length := rfl
    refine ⟨Laid.nil, by simp [Within], ?_, ?_, by simp⟩
    · rw [bytes_nil]
      omega
    · intro offset
      simp only [held_nil, false_iff]
      omega

theorem parts_split (hpos : 0 < keep) (hkeep : keep < segment.data.length) :
    Parts segment 0 [segment.head keep, segment.drain keep] := by
  have hdrain := parts_drain hkeep
  have hhead : (segment.head keep).stop = segment.offset + keep := Segment.head_stop hkeep.le
  have hheadLength : (segment.head keep).data.length = keep := List.length_take_of_le hkeep.le
  have hstop : segment.stop = segment.offset + segment.data.length := rfl
  refine ⟨Laid.cons_iff.mpr ⟨?_, ?_, hdrain.laid⟩, ?_, ?_, ?_, ?_⟩
  · rw [← List.length_pos_iff]
    omega
  · intro later hlater
    rw [List.mem_singleton.mp hlater]
    exact hhead.le
  · intro part hpart
    rcases List.mem_cons.mp hpart with rfl | hpart
    · exact ⟨le_rfl, by omega⟩
    · have hbounds := hdrain.within part hpart
      exact ⟨by omega, hbounds.2⟩
  · have htotal := hdrain.total
    rw [bytes_cons]
    omega
  · intro offset
    rw [held_cons, hdrain.held]
    have hspans : (segment.head keep).Spans offset ↔ segment.offset ≤ offset ∧ offset < segment.offset + keep := by
      rw [← hhead]
      rfl
    rw [hspans]
    omega
  · intro part hpart offset held hheld
    rcases List.mem_cons.mp hpart with rfl | hpart
    · exact Segment.at?_of_head hheld
    · exact hdrain.told part hpart offset held hheld

/-! ## One segment narrowed -/

/-- In the segments of a log, a segment gives way to parts of it. -/
theorem Accounts.narrow (log : OutputLog) (kept : List Segment)
    (h : Accounts history { log with segments := kept ++ segment :: rest }) {parts : List Segment}
    (retained releasedUntil : Nat) (overflow : List (Nat × Nat)) (hparts : Parts segment count parts)
    (hcount : count ≤ segment.data.length) (hretained : retained + count = log.retained)
    (hwithin : Within releasedUntil log.stop (kept ++ parts ++ rest)) (hspread : Spread overflow)
    (hdropped : ∀ range ∈ overflow, releasedUntil ≤ range.1 ∧ range.2 ≤ log.stop)
    (hreleased : log.releasedUntil ≤ releasedUntil ∧ releasedUntil ≤ log.stop)
    (hcovered : ∀ offset, releasedUntil ≤ offset → (Covered overflow offset ↔
      (segment.offset ≤ offset ∧ offset < segment.offset + count) ∨ Covered log.overflow offset)) :
    Accounts history { log with segments := kept ++ parts ++ rest, retained, releasedUntil, overflow } := by
  have hstop : segment.stop = segment.offset + segment.data.length := rfl
  obtain ⟨hkeptLaid, hfrom, hacross⟩ := Laid.append_iff.mp h.laid
  obtain ⟨-, hnext, hrestLaid⟩ := Laid.cons_iff.mp hfrom
  have hheld : ∀ offset, Held (kept ++ parts ++ rest) offset ↔
      Held (kept ++ segment :: rest) offset ∧ ¬ (segment.offset ≤ offset ∧ offset < segment.offset + count) := by
    intro offset
    rw [held_append, held_append, held_append, held_cons, hparts.held]
    have hkept : Held kept offset → offset < segment.offset := by
      rintro ⟨earlier, hearlier, -, hhigh⟩
      exact lt_of_lt_of_le hhigh (hacross earlier hearlier segment List.mem_cons_self)
    have hrest : Held rest offset → segment.stop ≤ offset := by
      rintro ⟨later, hlater, hlow, -⟩
      exact le_trans (hnext later hlater) hlow
    unfold Segment.Spans
    constructor
    · rintro ((hin | hin) | hin)
      · exact ⟨Or.inl hin, by have := hkept hin; omega⟩
      · exact ⟨Or.inr (Or.inl ⟨by omega, hin.2⟩), by omega⟩
      · exact ⟨Or.inr (Or.inr hin), by have := hrest hin; omega⟩
    · rintro ⟨hin | hin | hin, hnot⟩
      · exact Or.inl (Or.inl hin)
      · exact Or.inl (Or.inr ⟨by omega, hin.2⟩)
      · exact Or.inr hin
  refine ⟨h.laid.replace hparts.laid ?_, hwithin, ?_, ?_, hspread, hdropped, hreleased.2, ?_, ?_, h.past⟩
  · exact hparts.within.mono (Nat.le_add_right _ _) le_rfl
  · have htotal : log.retained = bytes (kept ++ segment :: rest) := h.total
    have hpartsTotal := hparts.total
    simp only [bytes_append, bytes_cons] at htotal ⊢
    omega
  · intro part hpart offset held hat
    rcases List.mem_append.mp hpart with hpart | hpart
    · rcases List.mem_append.mp hpart with hpart | hpart
      · exact h.told part (List.mem_append_left _ hpart) offset held hat
      · exact h.told segment (by simp) offset held (hparts.told part hpart offset held hat)
    · exact h.told part (List.mem_append_right _ (List.mem_cons_of_mem _ hpart)) offset held hat
  · intro offset hlow hhigh
    show Held (kept ++ parts ++ rest) offset ∨ Covered overflow offset
    rw [hheld, hcovered offset hlow]
    by_cases hin : segment.offset ≤ offset ∧ offset < segment.offset + count
    · exact Or.inr (Or.inl hin)
    · rcases h.cover offset (le_trans hreleased.1 hlow) hhigh with hold | hold
      · exact Or.inl ⟨hold, hin⟩
      · exact Or.inr (Or.inr hold)
  · intro offset hin hcov
    have hlow : releasedUntil ≤ offset := (hwithin.spans hin).1
    obtain ⟨hold, hnot⟩ := (hheld offset).mp hin
    rcases (hcovered offset hlow).mp hcov with hpart | hcov
    · exact hnot hpart
    · exact h.apart offset hold hcov

/-- The segments but one and parts of it lie where all of them lay. -/
theorem Accounts.within_parts {parts : List Segment}
    (h : Accounts history { log with segments := kept ++ segment :: rest }) (hparts : Parts segment count parts) :
    Within log.releasedUntil log.stop (kept ++ parts ++ rest) := by
  intro part hpart
  have hsegment := h.within segment (by simp)
  rcases List.mem_append.mp hpart with hpart | hpart
  · rcases List.mem_append.mp hpart with hpart | hpart
    · exact h.within part (List.mem_append_left _ hpart)
    · have hbounds := hparts.within part hpart
      exact ⟨le_trans hsegment.1 (le_trans (Nat.le_add_right _ _) hbounds.1), le_trans hbounds.2 hsegment.2⟩
  · exact h.within part (List.mem_append_right _ (List.mem_cons_of_mem _ hpart))

/-- A segment that straddles the head is split. -/
theorem Accounts.split (h : Accounts history { log with segments := kept ++ segment :: rest }) (hpos : 0 < keep)
    (hkeep : keep < segment.data.length) :
    Accounts history { log with segments := (kept ++ [segment.head keep]) ++ segment.drain keep :: rest } := by
  have hparts := parts_split hpos hkeep
  have hnone : ∀ offset, log.releasedUntil ≤ offset → (Covered log.overflow offset ↔
      (segment.offset ≤ offset ∧ offset < segment.offset + 0) ∨ Covered log.overflow offset) := by
    intro offset _
    rw [or_iff_right]
    omega
  have hnarrow := h.narrow log kept log.retained log.releasedUntil log.overflow hparts (Nat.zero_le _) rfl
    (h.within_parts hparts) h.spread h.dropped ⟨le_rfl, h.released⟩ hnone
  simpa only [List.append_assoc, List.cons_append, List.nil_append] using hnarrow

/-- The first bytes of a segment are dropped, and read as overflow. -/
theorem Accounts.drop (h : Accounts history { log with segments := kept ++ segment :: rest })
    (hcount : count ≤ segment.data.length) :
    Accounts history { log with
      segments := kept ++ segment.remains count ++ rest
      retained := log.retained - count
      overflow := addRange segment.offset (segment.offset + count) log.overflow } := by
  have hparts := parts_remains hcount
  have hsegment := h.within segment (by simp)
  have hstop : segment.stop = segment.offset + segment.data.length := rfl
  have htotal : log.retained = bytes (kept ++ segment :: rest) := h.total
  simp only [bytes_append, bytes_cons] at htotal
  have hend : segment.stop ≤ log.stop := hsegment.2
  exact h.narrow log kept (log.retained - count) log.releasedUntil _ hparts hcount (by omega) (h.within_parts hparts)
    h.spread.addRange (addRange_within ⟨hsegment.1, by omega⟩ h.dropped) ⟨le_rfl, h.released⟩
    (fun offset _ => covered_addRange h.spread)

/-! ## Releasing -/

/-- What is forgotten is below what was released. -/
theorem covered_forget (hoffset : log.releasedUntil ≤ offset) :
    Covered log.forget.overflow offset ↔ Covered log.overflow offset := by
  constructor
  · rintro ⟨range, hrange, hin⟩
    exact ⟨range, (List.mem_filter.mp hrange).1, hin⟩
  · rintro ⟨range, hrange, hin⟩
    refine ⟨range, List.mem_filter.mpr ⟨hrange, ?_⟩, hin⟩
    rw [decide_eq_true_iff]
    exact lt_of_le_of_lt hoffset hin.2

/-- The first bytes of the log are released, and ranges below them are forgotten. -/
theorem Accounts.release (h : Accounts history (OutputLog.forget { log with segments := front :: rest }))
    (count : Nat) (hpos : 0 < count) (hcount : count ≤ front.data.length) :
    Accounts history (OutputLog.forget { log with
      segments := front.remains count ++ rest
      retained := log.retained - count
      releasedUntil := max log.releasedUntil (front.drain count).offset }) := by
  have hparts := parts_remains hcount
  have hstop : front.stop = front.offset + front.data.length := rfl
  have hfront : log.releasedUntil ≤ front.offset ∧ front.stop ≤ log.stop := h.within front List.mem_cons_self
  have hmax : max log.releasedUntil (front.drain count).offset = front.offset + count :=
    max_eq_right (le_trans hfront.1 (Nat.le_add_right _ _))
  have htotal : log.retained = bytes (front :: rest) := h.total
  rw [bytes_cons] at htotal
  obtain ⟨-, hnext, -⟩ := Laid.cons_iff.mp h.laid
  have hwithin : Within (front.offset + count) log.stop (front.remains count ++ rest) := by
    intro part hpart
    rcases List.mem_append.mp hpart with hpart | hpart
    · have hbounds := hparts.within part hpart
      exact ⟨hbounds.1, le_trans hbounds.2 hfront.2⟩
    · have hafter := hnext part hpart
      exact ⟨by omega, (h.within part (List.mem_cons_of_mem _ hpart)).2⟩
  -- a range that reaches past the last released byte begins past it: that byte was held
  have hkept : ∀ range ∈ log.overflow, front.offset + count < range.2 →
      front.offset + count ≤ range.1 ∧ range.2 ≤ log.stop := by
    intro range hrange hreach
    have hstill : range ∈ log.overflow.filter (fun range => log.releasedUntil < range.2) := by
      rw [List.mem_filter, decide_eq_true_iff]
      exact ⟨hrange, by omega⟩
    refine ⟨?_, (h.dropped range hstill).2⟩
    by_contra hbefore
    refine h.apart (front.offset + count - 1) ⟨front, List.mem_cons_self, by omega, by omega⟩ ?_
    exact ⟨range, hstill, by omega, by omega⟩
  have hfilter : log.overflow.filter (fun range => front.offset + count < range.2) =
      (log.overflow.filter (fun range => log.releasedUntil < range.2)).filter
        (fun range => front.offset + count < range.2) := by
    rw [List.filter_filter]
    apply List.filter_congr
    intro range _
    rw [← Bool.decide_and, decide_eq_decide]
    omega
  have hsame : ∀ offset, front.offset + count ≤ offset →
      (Covered (log.overflow.filter (fun range => front.offset + count < range.2)) offset ↔
        (front.offset ≤ offset ∧ offset < front.offset + count) ∨ Covered log.forget.overflow offset) := by
    intro offset hoffset
    have hbelow : log.releasedUntil ≤ offset := by omega
    have hnew : Covered (log.overflow.filter (fun range => front.offset + count < range.2)) offset ↔
        Covered log.overflow offset := by
      show Covered (OutputLog.forget { log with releasedUntil := front.offset + count }).overflow offset ↔ _
      exact covered_forget hoffset
    rw [hnew, covered_forget hbelow, or_iff_right]
    omega
  rw [hmax]
  refine Accounts.narrow (OutputLog.forget { log with segments := front :: rest }) [] h (log.retained - count)
    (front.offset + count) _ hparts hcount ?_ hwithin ?_ ?_ ⟨?_, ?_⟩ hsame
  · show log.retained - count + count = log.retained
    omega
  · rw [hfilter]
    exact h.spread.filter _
  · intro range hrange
    obtain ⟨hmem, hreach⟩ := List.mem_filter.mp hrange
    exact hkept range hmem (of_decide_eq_true hreach)
  · show log.releasedUntil ≤ front.offset + count
    omega
  · show front.offset + count ≤ log.stop
    omega

/-- Releasing keeps what the log accounts for. -/
theorem Accounts.releaseFront (h : Accounts history (OutputLog.forget { log with segments := segments })) :
    Accounts history (OutputLog.releaseFront cap cursor segments log).forget := by
  induction segments generalizing log with
  | nil => exact h
  | cons front rest ih =>
    unfold OutputLog.releaseFront
    by_cases hstop : log.retained ≤ cap ∨ cursor ≤ front.offset
    · rw [if_pos hstop]
      exact h
    · obtain ⟨hover, hbefore⟩ := not_or.mp hstop
      have hlength := h.laid.length_pos List.mem_cons_self
      have hend : front.stop = front.offset + front.data.length := rfl
      have hreleased := h.release (min (min cursor front.stop - front.offset) (log.retained - cap))
        (by omega) (by omega)
      rw [if_neg hstop]
      dsimp only
      split_ifs with hempty
      · rw [remains_of_nil hempty] at hreleased
        exact ih hreleased
      · rw [remains_of_ne (Bool.eq_false_iff.mpr hempty)] at hreleased
        exact hreleased

/-- Releasing stops at the cap, or where nothing below the cursor is left. -/
theorem releaseFront_stops (h : Laid segments) :
    (OutputLog.releaseFront cap cursor segments log).retained ≤ cap ∨
      ∀ segment ∈ (OutputLog.releaseFront cap cursor segments log).segments, cursor ≤ segment.offset := by
  induction segments generalizing log with
  | nil => exact Or.inr (by simp [OutputLog.releaseFront])
  | cons front rest ih =>
    obtain ⟨-, hnext, hrest⟩ := Laid.cons_iff.mp h
    have hend : front.stop = front.offset + front.data.length := rfl
    unfold OutputLog.releaseFront
    by_cases hstop : log.retained ≤ cap ∨ cursor ≤ front.offset
    · rw [if_pos hstop]
      refine hstop.imp id (fun hcursor segment hsegment => ?_)
      rcases List.mem_cons.mp hsegment with rfl | hsegment
      · exact hcursor
      · have hafter := hnext segment hsegment
        omega
    · obtain ⟨hover, hbefore⟩ := not_or.mp hstop
      rw [if_neg hstop]
      dsimp only
      split_ifs with hempty
      · exact ih hrest
      · -- what is left begins at the cursor, unless the log is at the cap
        have hleft : 0 < front.data.length - min (min cursor front.stop - front.offset) (log.retained - cap) := by
          rw [← List.length_drop, List.length_pos_iff]
          simpa [Segment.drain] using hempty
        rcases Nat.lt_or_ge (min cursor front.stop - front.offset) (log.retained - cap) with hcursor | hcap
        · right
          intro segment hsegment
          rcases List.mem_cons.mp hsegment with rfl | hsegment
          · show cursor ≤ front.offset + min (min cursor front.stop - front.offset) (log.retained - cap)
            omega
          · have hafter := hnext segment hsegment
            omega
        · left
          show log.retained - min (min cursor front.stop - front.offset) (log.retained - cap) ≤ cap
          omega

/-! ## Dropping -/

/-- Where a segment straddles the head, the head part joins what is kept. -/
theorem Accounts.straddle (h : Accounts history { log with segments := kept ++ segment :: rest })
    (hpast : headEnd < segment.stop) :
    Accounts history { log with
      segments := (if segment.offset < headEnd then kept ++ [segment.head (headEnd - segment.offset)] else kept) ++
        (if segment.offset < headEnd then segment.drain (headEnd - segment.offset) else segment) :: rest } := by
  have hend : segment.stop = segment.offset + segment.data.length := rfl
  split_ifs with hbefore
  · exact h.split (by omega) (by omega)
  · exact h

/-- Dropping keeps what the log accounts for. -/
theorem Accounts.dropMiddle (h : Accounts history { log with segments := kept ++ segments })
    (hpast : ∀ segment ∈ segments, headEnd < segment.stop) :
    Accounts history (OutputLog.dropMiddle headEnd kept segments excess log) := by
  induction segments generalizing log kept excess with
  | nil =>
    rw [List.append_nil] at h
    exact h
  | cons segment rest ih =>
    have hrest : ∀ later ∈ rest, headEnd < later.stop :=
      fun later hlater => hpast later (List.mem_cons_of_mem _ hlater)
    have hsplit := h.straddle (hpast segment List.mem_cons_self)
    unfold OutputLog.dropMiddle
    by_cases hexcess : excess = 0
    · rw [if_pos hexcess]
      exact h
    · rw [if_neg hexcess]
      dsimp only
      have hdrop := hsplit.drop (Nat.min_le_right excess _)
      split_ifs at hdrop ⊢ with hbefore hempty hempty
      · rw [remains_of_nil hempty, List.append_nil] at hdrop
        exact ih hdrop hrest
      · rw [remains_of_ne (Bool.eq_false_iff.mpr hempty), List.append_assoc] at hdrop
        exact hdrop
      · rw [remains_of_nil hempty, List.append_nil] at hdrop
        exact ih hdrop hrest
      · rw [remains_of_ne (Bool.eq_false_iff.mpr hempty), List.append_assoc] at hdrop
        exact hdrop

/-- What is in excess is dropped, where there is as much past the head. -/
theorem dropMiddle_retained (hpast : ∀ segment ∈ segments, headEnd < segment.stop)
    (hexcess : excess ≤ beyond headEnd segments) :
    (OutputLog.dropMiddle headEnd kept segments excess log).retained = log.retained - excess := by
  induction segments generalizing log kept excess with
  | nil =>
    have hzero : excess = 0 := Nat.le_zero.mp hexcess
    rw [hzero]
    rfl
  | cons segment rest ih =>
    have hrest : ∀ later ∈ rest, headEnd < later.stop :=
      fun later hlater => hpast later (List.mem_cons_of_mem _ hlater)
    have hstop := hpast segment List.mem_cons_self
    have hend : segment.stop = segment.offset + segment.data.length := rfl
    rw [beyond_cons] at hexcess
    -- the bytes past the head are those of the part that is not kept
    have htail : (if segment.offset < headEnd then segment.drain (headEnd - segment.offset) else segment).data.length =
        segment.stop - max segment.offset headEnd := by
      split_ifs with hbefore
      · show (segment.data.drop (headEnd - segment.offset)).length = segment.stop - max segment.offset headEnd
        rw [List.length_drop]
        omega
      · omega
    unfold OutputLog.dropMiddle
    by_cases hzero : excess = 0
    · rw [if_pos hzero, hzero]
      rfl
    · rw [if_neg hzero]
      dsimp only
      rw [htail]
      by_cases hempty : ((if segment.offset < headEnd then segment.drain (headEnd - segment.offset)
          else segment).drain (min excess (segment.stop - max segment.offset headEnd))).data.isEmpty = true
      · rw [if_pos hempty, ih hrest (by omega)]
        show log.retained - min excess (segment.stop - max segment.offset headEnd) -
          (excess - min excess (segment.stop - max segment.offset headEnd)) = log.retained - excess
        omega
      · have hleft : ((if segment.offset < headEnd then segment.drain (headEnd - segment.offset)
            else segment).data.drop (min excess (segment.stop - max segment.offset headEnd))) ≠ [] := by
          simpa [Segment.drain] using hempty
        rw [← List.length_pos_iff, List.length_drop, htail] at hleft
        rw [if_neg hempty]
        show log.retained - min excess (segment.stop - max segment.offset headEnd) = log.retained - excess
        omega

/-! ## The cap -/

/-- The segments in order, from the first one that ends past a point on, all end past it. -/
theorem past_of_dropWhile (h : Laid segments) :
    ∀ segment ∈ segments.dropWhile (fun segment => segment.stop ≤ headEnd), headEnd < segment.stop := by
  induction segments with
  | nil => simp
  | cons first rest ih =>
    obtain ⟨-, hnext, hrest⟩ := Laid.cons_iff.mp h
    by_cases hbefore : first.stop ≤ headEnd
    · rw [List.dropWhile_cons_of_pos (by simpa using hbefore)]
      exact ih hrest
    · rw [List.dropWhile_cons_of_neg (by simpa using hbefore)]
      intro segment hsegment
      rcases List.mem_cons.mp hsegment with rfl | hsegment
      · exact Nat.not_le.mp hbefore
      · have hafter := hnext segment hsegment
        have hstop : segment.stop = segment.offset + segment.data.length := rfl
        omega

/-- A log that accounts for its bytes has nothing to forget. -/
theorem Accounts.forget_eq (h : Accounts history log) : log.forget = log := by
  have hforget : log.overflow.filter (fun range => log.releasedUntil < range.2) = log.overflow := by
    apply List.filter_eq_self.mpr
    intro range hrange
    have hproper := h.spread.proper range hrange
    have hlow := (h.dropped range hrange).1
    rw [decide_eq_true_iff]
    omega
  show { log with overflow := log.overflow.filter (fun range => log.releasedUntil < range.2) } = log
  rw [hforget]

theorem Accounts.released_front (h : Accounts history log) :
    Accounts history (OutputLog.releaseFront cap cursor log.segments log).forget := by
  apply Accounts.releaseFront
  exact h.forget_eq.symm ▸ h

/-- Keeping the cap keeps what the log accounts for. -/
theorem Accounts.enforceCap (h : Accounts history log) (cap cursor : Nat) :
    Accounts history (log.enforceCap cap cursor) := by
  have hreleased : Accounts history (OutputLog.releaseFront cap cursor log.segments log).forget := h.released_front
  unfold OutputLog.enforceCap
  dsimp only
  split_ifs with hcap
  · exact hreleased
  · apply Accounts.dropMiddle
    · rw [List.takeWhile_append_dropWhile]
      exact hreleased
    · exact past_of_dropWhile hreleased.laid

/-- With the cap kept, the log holds no more than it. -/
theorem Accounts.enforceCap_retained (h : Accounts history log) (cap cursor : Nat) :
    (log.enforceCap cap cursor).retained ≤ cap := by
  have hreleased : Accounts history (OutputLog.releaseFront cap cursor log.segments log).forget := h.released_front
  have hstops : (OutputLog.releaseFront cap cursor log.segments log).forget.retained ≤ cap ∨
      ∀ segment ∈ (OutputLog.releaseFront cap cursor log.segments log).forget.segments, cursor ≤ segment.offset :=
    releaseFront_stops h.laid
  unfold OutputLog.enforceCap
  dsimp only
  generalize (OutputLog.releaseFront cap cursor log.segments log).forget = log at hreleased hstops
  split_ifs with hcap
  · exact hcap
  · -- all that is left is undelivered, and at most half the cap of it is in the head
    have hlow : ∀ segment ∈ log.segments, max cursor log.releasedUntil ≤ segment.offset := by
      intro segment hsegment
      have hcursor := hstops.resolve_left hcap segment hsegment
      exact max_le hcursor (hreleased.within segment hsegment).1
    have htotal := hreleased.total
    obtain ⟨headEnd, hhead⟩ : ∃ headEnd, headEnd = min (max cursor log.releasedUntil + cap / 2) U64_MAX := ⟨_, rfl⟩
    have hbytes : bytes log.segments ≤ (headEnd - max cursor log.releasedUntil) + beyond headEnd log.segments :=
      hreleased.laid.bytes_le_beyond hlow
    have hsplit : beyond headEnd log.segments =
        beyond headEnd (log.segments.dropWhile (fun segment => segment.stop ≤ headEnd)) := by
      have hkept : beyond headEnd (log.segments.takeWhile (fun segment => segment.stop ≤ headEnd)) = 0 := by
        apply beyond_eq_zero
        intro segment hsegment
        simpa using List.mem_takeWhile_imp hsegment
      conv_lhs => rw [← List.takeWhile_append_dropWhile (p := fun segment : Segment => segment.stop ≤ headEnd)
        (l := log.segments)]
      rw [beyond_append, hkept, Nat.zero_add]
    rw [← hhead, dropMiddle_retained (past_of_dropWhile hreleased.laid) (by omega)]
    omega

end Lightspeed.Daemon
