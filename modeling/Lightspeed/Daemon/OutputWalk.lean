import Lightspeed.Daemon.OutputPages

/-!
# Walking the output

Whatever was appended and whatever was dropped, a log accounts for every byte: this is kept from one operation to
the next. A page of such a log ends only at the end of the log or where a budget is spent, so that it goes on from
where it began, and a walk comes to the end.
-/

namespace Lightspeed.Daemon

open Lib

variable {log : OutputLog} {history : List Segment} {page : Page} {pieces : List Piece}
  {start budget maxBytes turns : Nat} {maxItems : UInt32}

/-! ## A page -/

/-- A page, and why it ended. -/
structure Paged (history : List Segment) (log : OutputLog) (start maxBytes : Nat) (maxItems : UInt32) (page : Page) :
    Prop where
  cut : ∃ pieces, Cut history log start page pieces
  within : page.next ≤ log.stop
  bytes : page.bytes ≤ maxBytes
  count : page.chunks.length + page.gaps.length ≤ maxItems.toNat
  ends : log.stop ≤ page.next ∨ page.bytes = maxBytes ∨ page.items = maxItems.toNat

theorem items_eq (h : page.chunks.length + page.gaps.length ≤ maxItems.toNat) :
    page.items = page.chunks.length + page.gaps.length := by
  have hmax : maxItems.toNat < 2 ^ 32 := maxItems.toNat_lt
  have hbound : U32_MAX = 2 ^ 32 - 1 := rfl
  unfold Page.items
  omega

/-- The loop goes on until the log or a budget is at an end. -/
theorem paged_pageLoop (haccounts : Accounts history log) (hcut : Cut history log start page pieces)
    (hwithin : page.next ≤ log.stop) (hbudget : page.bytes + budget = maxBytes)
    (hcount : page.chunks.length + page.gaps.length ≤ maxItems.toNat) (hturns : log.stop ≤ page.next + turns) :
    Paged history log start maxBytes maxItems (log.pageLoop maxItems turns page page.next budget) := by
  induction turns generalizing page pieces budget with
  | zero => exact ⟨⟨pieces, hcut⟩, hwithin, by unfold OutputLog.pageLoop; omega, hcount, Or.inl hturns⟩
  | succ turns ih =>
    unfold OutputLog.pageLoop
    by_cases hgo : page.next < log.stop ∧ 0 < budget ∧ page.items < maxItems.toNat
    · obtain ⟨hpos, hspare, hitems⟩ := hgo
      have hturned := turned_pageStep haccounts hcut hpos hspare
      rw [if_pos ⟨hpos, hspare, hitems⟩]
      rcases hstep : log.pageStep page page.next budget with ⟨page', pos', budget'⟩
      rw [hstep] at hturned
      obtain ⟨⟨pieces', hcut'⟩, hadvanced, hwithin', hspent, hmore⟩ := hturned
      rw [items_eq hcount] at hitems
      dsimp only at hadvanced hwithin' hspent hmore ⊢
      have hbudget' : ({ page' with next := pos' } : Page).bytes + budget' = maxBytes := by
        dsimp only
        omega
      have hturns' : log.stop ≤ ({ page' with next := pos' } : Page).next + turns := by
        dsimp only
        omega
      exact ih hcut' hwithin' hbudget' (by dsimp only; omega) hturns'
    · rw [if_neg hgo]
      refine ⟨⟨pieces, hcut⟩, hwithin, by omega, hcount, ?_⟩
      rw [items_eq hcount] at hgo ⊢
      omega

theorem paged (haccounts : Accounts history log) (hstart : start ≤ log.stop) :
    Paged history log start maxBytes maxItems (log.page start maxBytes maxItems) :=
  paged_pageLoop haccounts cut_nil hstart (Nat.zero_add maxBytes) (Nat.zero_le _) (by dsimp only; omega)

/-- With a budget, a page goes on from where it began. -/
theorem Paged.advanced (h : Paged history log start maxBytes maxItems page) (hstart : start < log.stop)
    (hbytes : 0 < maxBytes) (hitems : 0 < maxItems.toNat) : start < page.next := by
  obtain ⟨pieces, hcut⟩ := h.cut
  rcases Nat.lt_or_ge start page.next with hafter | hback
  · exact hafter
  · -- a page that went nowhere has no pieces, and no budget is spent
    have hnil : pieces = [] := by
      rcases pieces with _ | ⟨piece, rest⟩
      · rfl
      · obtain ⟨-, hproper, hrest⟩ := hcut.tiles
        have hle := hrest.le
        omega
    have hchunks : page.chunks = [] := by rw [hcut.chunks, hnil]; rfl
    have hgaps : page.gaps = [] := by rw [hcut.gaps, hnil]; rfl
    have hnone : page.bytes = 0 := by rw [hcut.bytes, hchunks]; rfl
    have hitem : page.items = 0 := by
      unfold Page.items
      rw [hchunks, hgaps]
      rfl
    have hends := h.ends
    omega

/-! ## A walk -/

/-- The pages of a walk are pieces in a row up to the end of the log, each page within its budgets. -/
theorem walk_tiles (haccounts : Accounts history log) (hstart : start ≤ log.stop) (hbytes : 0 < maxBytes)
    (hitems : 0 < maxItems.toNat) (hturns : log.stop ≤ start + turns) :
    (∀ page ∈ log.walk maxBytes maxItems turns start, page.bytes ≤ maxBytes ∧ page.items ≤ maxItems.toNat ∧
      page.bytes = (page.chunks.map (·.data.length)).sum) ∧
    ∃ pieces, (log.walk maxBytes maxItems turns start).flatMap Page.chunks = pieces.filterMap Piece.chunk? ∧
      (log.walk maxBytes maxItems turns start).flatMap Page.gaps = pieces.filterMap Piece.gap? ∧
      Tiles Piece.offset Piece.stop start pieces log.stop ∧ ∀ piece ∈ pieces, piece.Shows history log := by
  induction turns generalizing start with
  | zero =>
    have hend : start = log.stop := by omega
    exact ⟨by simp [OutputLog.walk], [], rfl, rfl, hend, by simp⟩
  | succ turns ih =>
    unfold OutputLog.walk
    by_cases hmore : start < log.stop
    · rw [if_pos hmore]
      have hpaged : Paged history log start maxBytes maxItems (log.page start maxBytes maxItems) := paged haccounts hstart
      have hadvanced := hpaged.advanced hmore hbytes hitems
      obtain ⟨hbudgets, pieces, hchunks, hgaps, htiles, hshows⟩ := ih hpaged.within (by omega)
      obtain ⟨first, hcut⟩ := hpaged.cut
      refine ⟨?_, first ++ pieces, ?_, ?_, tiles_append.mpr ⟨_, hcut.tiles, htiles⟩, ?_⟩
      · intro page hpage
        rcases List.mem_cons.mp hpage with rfl | hpage
        · refine ⟨hpaged.bytes, ?_, hcut.bytes⟩
          rw [items_eq hpaged.count]
          exact hpaged.count
        · exact hbudgets page hpage
      · rw [List.flatMap_cons, hchunks, hcut.chunks, List.filterMap_append]
      · rw [List.flatMap_cons, hgaps, hcut.gaps, List.filterMap_append]
      · intro piece hpiece
        rcases List.mem_append.mp hpiece with hpiece | hpiece
        · exact hcut.shows piece hpiece
        · exact hshows piece hpiece
    · rw [if_neg hmore]
      have hend : start = log.stop := by omega
      exact ⟨by simp, [], rfl, rfl, hend, by simp⟩

/-! ## Every run -/

/-- What is done to a log. -/
inductive Operation
  | append (stream : OutputStream) (data : List UInt8)
  | enforceCap (cap cursor : Nat)

/-- A log, with what it was told: the records it was rebuilt from, and then what was appended, each at the end the
log had. -/
structure Recording where
  log : OutputLog
  history : List Segment

def Recording.apply (recording : Recording) : Operation → Recording
  | .append stream data =>
    ⟨recording.log.append stream data, recording.history ++ [⟨recording.log.stop, stream, data⟩]⟩
  | .enforceCap cap cursor => ⟨recording.log.enforceCap cap cursor, recording.history⟩

/-- The log after the operations, from one rebuilt from records; of no records, it is the empty log. -/
def record (records : List Segment) (stop : Nat) (operations : List Operation) : Recording :=
  operations.foldl Recording.apply ⟨OutputLog.fromRecords records stop, records⟩

/-- An operation keeps what the log accounts for. -/
theorem accounts_apply {recording : Recording} (h : Accounts recording.history recording.log) (operation : Operation) :
    Accounts (recording.apply operation).history (recording.apply operation).log := by
  cases operation with
  | append stream data =>
    have hskip : (⟨recording.log.stop, stream, data⟩ : Segment).offset + 0 = recording.log.stop := rfl
    exact h.append hskip
  | enforceCap cap cursor => exact h.enforceCap cap cursor

/-- A log accounts for its bytes after any operations. -/
theorem accounts_record (records : List Segment) (stop : Nat) (operations : List Operation) :
    Accounts (record records stop operations).history (record records stop operations).log := by
  have hfold : ∀ (operations : List Operation) (recording : Recording),
      Accounts recording.history recording.log →
      Accounts (operations.foldl Recording.apply recording).history (operations.foldl Recording.apply recording).log := by
    intro operations
    induction operations with
    | nil => exact fun _ h => h
    | cons operation rest ih => exact fun recording h => ih (recording.apply operation) (accounts_apply h operation)
  exact hfold operations _ (accounts_fromRecords records stop)

end Lightspeed.Daemon
