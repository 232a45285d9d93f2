import Lightspeed.Daemon.OutputCap

/-!
# Pages of output

A page is cut from a log at any byte: chunks of what the log holds and typed gaps for what it does not, in order
and with nothing between them. A walk asks for page after page, each from where the last one ended, and comes to
the end of the log.
-/

namespace Lightspeed.Daemon

open Lib

def U32_MAX : Nat := 2 ^ 32 - 1

/-- Why a range of output cannot be returned. -/
inductive GapReason
  /-- Never delivered: dropped from the middle because retained output exceeded the handle's cap. -/
  | overflow
  /-- Already delivered and released since. -/
  | expired
  deriving DecidableEq, Repr

/-- Contiguous output bytes from one stream. -/
structure OutputChunk where
  offset : Nat
  stream : OutputStream
  data : List UInt8
  deriving DecidableEq, Repr

/-- Output bytes that a page cannot return. -/
structure OutputGap where
  offset : Nat
  omittedBytes : Nat
  reason : GapReason
  deriving DecidableEq, Repr

/-- One page cut from a log. -/
structure Page where
  chunks : List OutputChunk
  gaps : List OutputGap
  /-- Offset after the last returned byte or gap; the start when the page is empty. -/
  next : Nat
  /-- Bytes of `data` returned. -/
  bytes : Nat
  deriving DecidableEq, Repr

namespace Page

def items (page : Page) : Nat := min (page.chunks.length + page.gaps.length) U32_MAX

/-- A gap that continues the last item, a gap for the same reason, extends it. The source's check that the page
has room for another item is a debug assertion, and the loop makes it first. -/
def pushGap (page : Page) (start stop : Nat) (reason : GapReason) : Page :=
  let pushed := { page with gaps := page.gaps ++ [⟨start, stop - start, reason⟩] }
  match page.gaps.getLast? with
  | some last =>
    if last.reason = reason ∧ last.offset + last.omittedBytes = start ∧
        page.chunks.getLast?.all (fun chunk => chunk.offset < last.offset) then
      { page with
        gaps := page.gaps.dropLast ++ [{ last with omittedBytes := last.omittedBytes + (stop - start) }] }
    else pushed
  | none => pushed

end Page

namespace OutputLog

/-- One turn of the page loop: the page, the position and the budget after it. -/
def pageStep (log : OutputLog) (page : Page) (pos budget : Nat) : Page × Nat × Nat :=
  match log.overflow.find? (fun range => range.1 ≤ pos ∧ pos < range.2) with
  | some range => (page.pushGap pos range.2 .overflow, range.2, budget)
  | none =>
    if pos < log.releasedUntil then
      let stop :=
        match (log.overflow.map Prod.fst).find? (fun start => pos < start) with
        | some start => min start log.releasedUntil
        | none => log.releasedUntil
      (page.pushGap pos stop .expired, stop, budget)
    else
      let hole (stop : Nat) := (page.pushGap pos stop .overflow, stop, budget)
      match (log.segments.dropWhile (fun segment => segment.stop ≤ pos)).head? with
      | some segment =>
        if segment.offset ≤ pos then
          let «from» := pos - segment.offset
          let take := min (segment.data.length - «from») budget
          let chunk := ⟨pos, segment.stream, (segment.data.drop «from»).take take⟩
          ({ page with chunks := page.chunks ++ [chunk], bytes := page.bytes + take }, pos + take, budget - take)
        -- A hole no rule explains reads as overflow.
        else hole segment.offset
      | none => hole log.stop

/-- The page loop. A turn goes at least one byte on, so that there are never more turns than bytes. -/
def pageLoop (log : OutputLog) (maxItems : UInt32) : Nat → Page → Nat → Nat → Page
  | 0, page, _, _ => page
  | turns + 1, page, pos, budget =>
    if pos < log.stop ∧ 0 < budget ∧ page.items < maxItems.toNat then
      let (page, pos, budget) := log.pageStep page pos budget
      pageLoop log maxItems turns { page with next := pos } pos budget
    else page

/-- A page from `start`: at most `maxBytes` of data, split at exactly that byte, and at most `maxItems` chunks and
gaps together. -/
def page (log : OutputLog) (start maxBytes : Nat) (maxItems : UInt32) : Page :=
  pageLoop log maxItems (log.stop - start) ⟨[], [], start, 0⟩ start maxBytes

/-- The pages a client gets that asks for the next one until it has come to the end. -/
def walk (log : OutputLog) (maxBytes : Nat) (maxItems : UInt32) : Nat → Nat → List Page
  | 0, _ => []
  | turns + 1, start =>
    if start < log.stop then
      log.page start maxBytes maxItems ::
        walk log maxBytes maxItems turns (log.page start maxBytes maxItems).next
    else []

end OutputLog

/-! ## Pieces of a page -/

/-- A chunk or a gap. -/
inductive Piece
  | chunk (chunk : OutputChunk)
  | gap (gap : OutputGap)

namespace Piece

def offset : Piece → Nat
  | chunk c => c.offset
  | gap g => g.offset

def stop : Piece → Nat
  | chunk c => c.offset + c.data.length
  | gap g => g.offset + g.omittedBytes

@[simp] def chunk? : Piece → Option OutputChunk
  | chunk c => some c
  | gap _ => none

@[simp] def gap? : Piece → Option OutputGap
  | chunk _ => none
  | gap g => some g

@[simp] theorem chunks_gap (g : OutputGap) : [gap g].filterMap chunk? = [] := rfl

@[simp] theorem gaps_chunk (c : OutputChunk) : [chunk c].filterMap gap? = [] := rfl

/-- A chunk shows the stream and the bytes that were appended there, and a gap is of bytes that the log has lost
for the reason it says. -/
def Shows (history : List Segment) (log : OutputLog) : Piece → Prop
  | chunk c => ∀ index byte, c.data[index]? = some byte → appended history (c.offset + index) = some (c.stream, byte)
  | gap g => ∀ offset, g.offset ≤ offset → offset < g.offset + g.omittedBytes →
      match g.reason with
      | .overflow => Covered log.overflow offset
      | .expired => offset < log.releasedUntil

end Piece

variable {log : OutputLog} {history segments : List Segment} {page : Page} {pieces : List Piece} {piece : Piece}
  {start stop pos budget maxBytes turns : Nat} {maxItems : UInt32} {reason : GapReason}

/-- A page cut from a position on, as pieces in a row. -/
structure Cut (history : List Segment) (log : OutputLog) (start : Nat) (page : Page) (pieces : List Piece) :
    Prop where
  chunks : page.chunks = pieces.filterMap Piece.chunk?
  gaps : page.gaps = pieces.filterMap Piece.gap?
  tiles : Tiles Piece.offset Piece.stop start pieces page.next
  shows : ∀ piece ∈ pieces, piece.Shows history log
  bytes : page.bytes = (page.chunks.map (·.data.length)).sum

theorem cut_nil : Cut history log start ⟨[], [], start, 0⟩ [] := ⟨rfl, rfl, rfl, by simp, rfl⟩

/-- A piece that begins where a page ends may be added to it. -/
theorem tiles_concat (h : Tiles Piece.offset Piece.stop start pieces pos) (hoffset : piece.offset = pos)
    (hstop : pos < piece.stop) : Tiles Piece.offset Piece.stop start (pieces ++ [piece]) piece.stop :=
  tiles_append.mpr ⟨pos, h, tiles_singleton.mpr ⟨hoffset, hstop, rfl⟩⟩

/-- A gap that no chunk follows is the last piece. -/
theorem Cut.last_gap (h : Cut history log start page pieces) {last : OutputGap} (hlast : page.gaps.getLast? = some last)
    (hchunks : page.chunks.getLast?.all (fun chunk => chunk.offset < last.offset)) :
    ∃ earlier, pieces = earlier ++ [Piece.gap last] := by
  rw [h.gaps] at hlast
  rw [h.chunks] at hchunks
  rcases List.eq_nil_or_concat pieces with rfl | ⟨earlier, piece, hpieces⟩
  · simp at hlast
  · rw [List.concat_eq_append] at hpieces
    subst hpieces
    rcases piece with chunk | gap
    · have hchunk : chunk.offset < last.offset := by simpa using hchunks
      have hmem : last ∈ earlier.filterMap Piece.gap? := by
        have hgaps : (earlier ++ [Piece.chunk chunk]).filterMap Piece.gap? = earlier.filterMap Piece.gap? := by
          simp
        rw [hgaps] at hlast
        exact List.mem_of_getLast? hlast
      obtain ⟨piece, hpiece, hgap⟩ := List.mem_filterMap.mp hmem
      have hsame : piece = Piece.gap last := by
        rcases piece with other | other
        · exact absurd hgap (by simp [Piece.gap?])
        · rw [Option.some.inj hgap]
      -- the chunk comes after the gap, and the gap is not empty
      obtain ⟨middle, hbefore, hoffset, -, -⟩ := tiles_append.mp h.tiles
      obtain ⟨hproper, hends⟩ := hbefore.mem hpiece
      rw [hsame] at hproper hends
      have hat : chunk.offset = middle := hoffset
      have hfirst : last.offset < (Piece.gap last).stop := hproper
      omega
    · refine ⟨earlier, ?_⟩
      have hsame : gap = last := by simpa using hlast
      rw [hsame]

/-- A gap is pushed onto a page, or extends its last piece. -/
theorem Cut.pushGap (h : Cut history log start page pieces) (hstop : page.next < stop)
    (hshows : (Piece.gap ⟨page.next, stop - page.next, reason⟩).Shows history log) :
    ∃ pieces', Cut history log start { page.pushGap page.next stop reason with next := stop } pieces' := by
  have hpush : Cut history log start
      { page with gaps := page.gaps ++ [⟨page.next, stop - page.next, reason⟩], next := stop }
      (pieces ++ [Piece.gap ⟨page.next, stop - page.next, reason⟩]) := by
    have hends : (Piece.gap ⟨page.next, stop - page.next, reason⟩).stop = stop := by
      show page.next + (stop - page.next) = stop
      omega
    refine ⟨?_, ?_, ?_, ?_, h.bytes⟩
    · simpa using h.chunks
    · simpa using h.gaps
    · have hlater : page.next < (Piece.gap ⟨page.next, stop - page.next, reason⟩).stop := by rwa [hends]
      have htiles := tiles_concat h.tiles rfl hlater
      rwa [hends] at htiles
    · intro piece hpiece
      rcases List.mem_append.mp hpiece with hpiece | hpiece
      · exact h.shows piece hpiece
      · rw [List.mem_singleton.mp hpiece]
        exact hshows
  unfold Page.pushGap
  dsimp only
  rcases hlast : page.gaps.getLast? with _ | last
  · exact ⟨_, hpush⟩
  · dsimp only
    split_ifs with hmerge
    · obtain ⟨hreason, hend, hchunks⟩ := hmerge
      obtain ⟨earlier, hpieces⟩ := h.last_gap hlast hchunks
      obtain ⟨extended, hextended⟩ : ∃ extended : OutputGap,
          extended = { last with omittedBytes := last.omittedBytes + (stop - page.next) } := ⟨_, rfl⟩
      rw [← hextended]
      obtain ⟨middle, hbefore, hoffset, -, -⟩ := tiles_append.mp (hpieces ▸ h.tiles)
      have hstops : (Piece.gap extended).stop = stop := by
        rw [hextended]
        show last.offset + (last.omittedBytes + (stop - page.next)) = stop
        omega
      refine ⟨earlier ++ [Piece.gap extended], ?_, ?_, ?_, ?_, h.bytes⟩
      · have hchunks := h.chunks
        rw [hpieces] at hchunks
        simpa using hchunks
      · have hgaps := h.gaps
        rw [hpieces] at hgaps
        show page.gaps.dropLast ++ [extended] = _
        rw [hgaps]
        simp
      · have hsame : (Piece.gap extended).offset = middle := by
          rw [← hoffset, hextended]
          rfl
        have hlater : middle ≤ page.next := by
          rw [← hoffset, ← hend]
          exact Nat.le_add_right _ _
        have htiles := tiles_concat hbefore hsame (by omega)
        rwa [hstops] at htiles
      · intro piece hpiece
        rcases List.mem_append.mp hpiece with hpiece | hpiece
        · exact h.shows piece (hpieces ▸ List.mem_append_left _ hpiece)
        · rw [List.mem_singleton.mp hpiece]
          intro offset hlow hhigh
          have hends : extended.offset + extended.omittedBytes = stop := hstops
          have hbegins : extended.offset = last.offset := by rw [hextended]
          have hwhy : extended.reason = reason := by
            rw [hextended]
            exact hreason
          rw [hwhy]
          rcases Nat.lt_or_ge offset page.next with hold | hnew
          · have hgap := h.shows (Piece.gap last) (by rw [hpieces]; simp) offset (by omega) (by omega)
            rwa [hreason] at hgap
          · exact hshows offset hnew (by show offset < page.next + (stop - page.next); omega)
    · exact ⟨_, hpush⟩

/-! ## A turn of the loop -/

/-- The first segment that ends past an offset one of the segments has is the one that has it. -/
theorem found_segment (h : Laid segments) (hheld : Held segments pos) :
    ∃ segment ∈ segments, (segments.dropWhile (fun segment => segment.stop ≤ pos)).head? = some segment ∧
      segment.Spans pos := by
  induction segments with
  | nil => exact absurd hheld held_nil
  | cons first rest ih =>
    obtain ⟨-, hnext, hrest⟩ := Laid.cons_iff.mp h
    by_cases hbefore : first.stop ≤ pos
    · have hlater : Held rest pos := by
        rcases held_cons.mp hheld with hfirst | hlater
        · exact absurd hfirst.2 (Nat.not_lt.mpr hbefore)
        · exact hlater
      obtain ⟨segment, hsegment, hhead, hspans⟩ := ih hrest hlater
      rw [List.dropWhile_cons_of_pos (by simpa using hbefore)]
      exact ⟨segment, List.mem_cons_of_mem _ hsegment, hhead, hspans⟩
    · rw [List.dropWhile_cons_of_neg (by simpa using hbefore)]
      refine ⟨first, List.mem_cons_self, rfl, ?_⟩
      rcases held_cons.mp hheld with hfirst | ⟨later, hlater, hlow, -⟩
      · exact hfirst
      · have hafter := hnext later hlater
        omega

/-- A chunk of a segment's bytes is added to a page that ends in the segment. -/
theorem Cut.chunk (haccounts : Accounts history log) (h : Cut history log start page pieces) {segment : Segment}
    (hsegment : segment ∈ log.segments) (hspans : segment.Spans page.next) {take : Nat} (hpos : 0 < take)
    (htake : take ≤ segment.data.length - (page.next - segment.offset)) :
    ∃ pieces', Cut history log start
      { page with
        chunks := page.chunks ++
          [⟨page.next, segment.stream, (segment.data.drop (page.next - segment.offset)).take take⟩]
        bytes := page.bytes + take
        next := page.next + take } pieces' := by
  obtain ⟨chunk, hchunk⟩ : ∃ chunk : OutputChunk, chunk =
      ⟨page.next, segment.stream, (segment.data.drop (page.next - segment.offset)).take take⟩ := ⟨_, rfl⟩
  have hlength : chunk.data.length = take := by
    rw [hchunk]
    show ((segment.data.drop (page.next - segment.offset)).take take).length = take
    rw [List.length_take, List.length_drop]
    omega
  have hoffset : chunk.offset = page.next := by rw [hchunk]
  have hstop : (Piece.chunk chunk).stop = page.next + take := by
    show chunk.offset + chunk.data.length = page.next + take
    rw [hoffset, hlength]
  rw [← hchunk]
  refine ⟨pieces ++ [Piece.chunk chunk], ?_, ?_, ?_, ?_, ?_⟩
  · simpa using h.chunks
  · simpa using h.gaps
  · have hbegins : (Piece.chunk chunk).offset = page.next := hoffset
    have hlater : page.next < (Piece.chunk chunk).stop := by omega
    have htiles := tiles_concat h.tiles hbegins hlater
    rwa [hstop] at htiles
  · intro piece hpiece
    rcases List.mem_append.mp hpiece with hpiece | hpiece
    · exact h.shows piece hpiece
    · rw [List.mem_singleton.mp hpiece]
      intro index byte hbyte
      apply haccounts.told segment hsegment
      have hlow : segment.offset ≤ page.next := hspans.1
      have hindex : page.next + index - segment.offset = page.next - segment.offset + index := by omega
      rw [hchunk] at hbyte ⊢
      dsimp only at hbyte ⊢
      unfold Segment.at?
      rw [if_pos (by omega), hindex, ← List.getElem?_drop]
      rw [List.getElem?_take] at hbyte
      split_ifs at hbyte
      rw [hbyte, Option.map_some]
  · show page.bytes + take = ((page.chunks ++ [chunk]).map (·.data.length)).sum
    rw [h.bytes, List.map_append, List.sum_append, List.map_singleton, List.sum_singleton, hlength]

/-- What a turn of the page loop comes to: the page goes on, within the log and the budget, by at most one item. -/
structure Turned (history : List Segment) (log : OutputLog) (start : Nat) (page : Page) (budget : Nat)
    (turned : Page × Nat × Nat) : Prop where
  cut : ∃ pieces, Cut history log start { turned.1 with next := turned.2.1 } pieces
  advanced : page.next < turned.2.1
  within : turned.2.1 ≤ log.stop
  budget : turned.1.bytes + turned.2.2 = page.bytes + budget
  count : turned.1.chunks.length + turned.1.gaps.length ≤ page.chunks.length + page.gaps.length + 1

theorem turned_gap (h : Cut history log start page pieces) (hstop : page.next < stop) (hwithin : stop ≤ log.stop)
    (hshows : (Piece.gap ⟨page.next, stop - page.next, reason⟩).Shows history log) :
    Turned history log start page budget (page.pushGap page.next stop reason, stop, budget) := by
  refine ⟨h.pushGap hstop hshows, hstop, hwithin, ?_, ?_⟩
  · unfold Page.pushGap
    dsimp only
    rcases page.gaps.getLast? with _ | last
    · rfl
    · dsimp only
      split_ifs <;> rfl
  · unfold Page.pushGap
    dsimp only
    rcases hlast : page.gaps.getLast? with _ | last
    · simp
      omega
    · dsimp only
      split_ifs
      · simp
        omega
      · simp
        omega

/-- A turn goes on in a log that accounts for its bytes. -/
theorem turned_pageStep (haccounts : Accounts history log) (h : Cut history log start page pieces)
    (hpos : page.next < log.stop) (hbudget : 0 < budget) :
    Turned history log start page budget (log.pageStep page page.next budget) := by
  unfold OutputLog.pageStep
  generalize hfind : log.overflow.find? _ = found
  rcases found with _ | range
  · have hnone : ¬ Covered log.overflow page.next := by
      rintro ⟨range, hrange, hin⟩
      have hmiss := List.find?_eq_none.mp hfind range hrange
      simp [hin] at hmiss
    dsimp only
    split_ifs with hreleased
    · obtain ⟨stop, hstop, hlow, hhigh⟩ : ∃ stop, stop =
          (match (log.overflow.map Prod.fst).find? (fun start => page.next < start) with
          | some start => min start log.releasedUntil
          | none => log.releasedUntil) ∧ page.next < stop ∧ stop ≤ log.releasedUntil := by
        refine ⟨_, rfl, ?_⟩
        generalize hfirst : (log.overflow.map Prod.fst).find? _ = found
        rcases found with _ | first
        · exact ⟨hreleased, le_rfl⟩
        · have hafter : page.next < first := by simpa using List.find?_some hfirst
          exact ⟨lt_min hafter hreleased, min_le_right _ _⟩
      rw [← hstop]
      apply turned_gap h hlow (le_trans hhigh haccounts.released)
      intro offset _ hoffset
      have hends : offset < page.next + (stop - page.next) := hoffset
      show offset < log.releasedUntil
      omega
    · have hheld : Held log.segments page.next :=
        (haccounts.cover page.next (Nat.not_lt.mp hreleased) hpos).resolve_right hnone
      obtain ⟨segment, hsegment, hhead, hspans⟩ := found_segment haccounts.laid hheld
      have hlow : segment.offset ≤ page.next := hspans.1
      have hhigh : page.next < segment.offset + segment.data.length := hspans.2
      have hend : segment.stop ≤ log.stop := (haccounts.within segment hsegment).2
      have hstop : segment.stop = segment.offset + segment.data.length := rfl
      rw [hhead]
      dsimp only
      rw [if_pos hlow]
      refine ⟨h.chunk haccounts hsegment hspans (by omega) (Nat.min_le_left _ _), ?_, ?_, ?_, ?_⟩
      all_goals dsimp only
      · omega
      · omega
      · omega
      · rw [List.length_append, List.length_singleton]
        omega
  · have hrange := List.mem_of_find?_eq_some hfind
    have hin : range.1 ≤ page.next ∧ page.next < range.2 := by simpa using List.find?_some hfind
    apply turned_gap h hin.2 (haccounts.dropped range hrange).2
    intro offset hlow hhigh
    have hfrom : page.next ≤ offset := hlow
    have hends : offset < page.next + (range.2 - page.next) := hhigh
    exact ⟨range, hrange, by omega, by omega⟩

end Lightspeed.Daemon
