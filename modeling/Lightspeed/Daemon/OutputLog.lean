import Mathlib.Algebra.GroupWithZero.Nat
import Mathlib.Data.List.Basic
import Lightspeed.Lib.Ranges

/-!
# The output log

A log holds a handle's combined output as segments addressed by byte offset. Its end counts every byte ever
appended; a retention cap releases delivered bytes from the front and drops others from the middle, and never
renumbers them.

Offsets and sizes are natural numbers: the source's are of 64 bits, and no sum of them is taken to overflow. The
two sums the source saturates are as it has them.
-/

namespace Lightspeed.Daemon

open Lib

inductive OutputStream
  | stdout
  | stderr
  /-- The PTY master, which merges stdout and stderr. -/
  | pty
  deriving DecidableEq, Repr

/-- Consecutive appends from one stream merge into one segment up to this size. -/
def MERGE_LIMIT_BYTES : Nat := 64 * 1024

def U64_MAX : Nat := 2 ^ 64 - 1

/-- Contiguous bytes from one stream. A persisted record has the same three parts. -/
structure Segment where
  offset : Nat
  stream : OutputStream
  data : List UInt8
  deriving DecidableEq, Repr

namespace Segment

/-- The source's `end`. -/
def stop (segment : Segment) : Nat := segment.offset + segment.data.length

/-- The segment without its first bytes. -/
def drain (segment : Segment) (count : Nat) : Segment :=
  { segment with offset := segment.offset + count, data := segment.data.drop count }

/-- The segment's first bytes. -/
def head (segment : Segment) (count : Nat) : Segment := { segment with data := segment.data.take count }

end Segment

/-- Retained output of one handle. -/
structure OutputLog where
  /-- Sorted by offset, disjoint. -/
  segments : List Segment
  /-- The source's `end`. -/
  stop : Nat
  retained : Nat
  /-- Bytes below this offset were delivered and released. -/
  releasedUntil : Nat
  /-- Ranges dropped from the middle, sorted, disjoint and never adjacent. Ranges below `releasedUntil` are
  forgotten and then read as released. -/
  overflow : List (Nat × Nat)
  deriving DecidableEq, Repr

namespace OutputLog

/-- A log nothing was appended to. -/
def empty : OutputLog := ⟨[], 0, 0, 0, []⟩

def append (log : OutputLog) (stream : OutputStream) (data : List UInt8) : OutputLog :=
  if data.isEmpty then log
  else
    let pushed := log.segments ++ [⟨log.stop, stream, data⟩]
    let segments :=
      match log.segments.getLast? with
      | some last =>
        if last.stream = stream ∧ last.stop = log.stop ∧ last.data.length + data.length ≤ MERGE_LIMIT_BYTES then
          log.segments.dropLast ++ [{ last with data := last.data ++ data }]
        else pushed
      | none => pushed
    { log with
      segments
      stop := log.stop + data.length
      retained := log.retained + data.length }

/-- The bytes up to an offset are missing, and read as overflow. -/
def skipTo (log : OutputLog) (offset : Nat) : OutputLog :=
  if log.stop < offset then { log with overflow := addRange log.stop offset log.overflow, stop := offset } else log

/-- One record of a persisted log. Overlapping records keep the first copy of every byte. -/
def addRecord (log : OutputLog) (record : Segment) : OutputLog :=
  if record.data.isEmpty then log
  else if record.stop ≤ log.stop then log
  else
    let skip := log.stop - record.offset
    let offset := max record.offset log.stop
    (log.skipTo offset).append record.stream (record.data.drop skip)

/-- A log rebuilt from persisted records. Holes between records, and a missing tail up to the end, read as
overflow. -/
def fromRecords (records : List Segment) (stop : Nat) : OutputLog := (records.foldl addRecord empty).skipTo stop

/-- Releases delivered bytes, oldest first, while the log holds more than the cap. -/
def releaseFront (cap cursor : Nat) : List Segment → OutputLog → OutputLog
  | [], log => { log with segments := [] }
  | front :: rest, log =>
    if log.retained ≤ cap ∨ cursor ≤ front.offset then { log with segments := front :: rest }
    else
      let releasable := min cursor front.stop - front.offset
      let release := min releasable (log.retained - cap)
      let front := front.drain release
      let log := { log with
        retained := log.retained - release
        releasedUntil := max log.releasedUntil front.offset }
      if front.data.isEmpty then releaseFront cap cursor rest log
      -- bytes are left only at the cap or at the cursor, and the loop's test ends it at either
      else { log with segments := front :: rest }

/-- Ranges below what was released are forgotten. -/
def forget (log : OutputLog) : OutputLog :=
  { log with overflow := log.overflow.filter (fun range => log.releasedUntil < range.2) }

/-- Drops bytes after the head, oldest first, until nothing is in excess. The segments before the one in hand
are kept. -/
def dropMiddle (headEnd : Nat) : List Segment → List Segment → Nat → OutputLog → OutputLog
  | kept, [], _, log => { log with segments := kept }
  | kept, segment :: rest, excess, log =>
    if excess = 0 then { log with segments := kept ++ segment :: rest }
    else
      -- a segment that straddles the head keeps its head part
      let keep := headEnd - segment.offset
      let kept := if segment.offset < headEnd then kept ++ [segment.head keep] else kept
      let segment := if segment.offset < headEnd then segment.drain keep else segment
      let drop := min excess segment.data.length
      let start := segment.offset
      let left := segment.drain drop
      let log := { log with
        retained := log.retained - drop
        overflow := addRange start (start + drop) log.overflow }
      if left.data.isEmpty then dropMiddle headEnd kept rest (excess - drop) log
      -- bytes are left only where the excess ended
      else { log with segments := kept ++ left :: rest }

/-- Keeps at most `cap` bytes. First releases delivered bytes (below `cursor`), oldest first; if still over,
drops from the middle of the undelivered region, keeping its head and the newest bytes. -/
def enforceCap (log : OutputLog) (cap cursor : Nat) : OutputLog :=
  let log := (releaseFront cap cursor log.segments log).forget
  if log.retained ≤ cap then log
  else
    let headEnd := min (max cursor log.releasedUntil + cap / 2) U64_MAX
    dropMiddle headEnd (log.segments.takeWhile (fun segment => segment.stop ≤ headEnd))
      (log.segments.dropWhile (fun segment => segment.stop ≤ headEnd)) (log.retained - cap) log

end OutputLog

/-! ## What segments hold -/

section Segments

variable {segment : Segment} {segments earlier later : List Segment} {offset count low high headEnd : Nat}
  {held : OutputStream × UInt8}

namespace Segment

/-- The offset is one of the segment's. -/
def Spans (segment : Segment) (offset : Nat) : Prop := segment.offset ≤ offset ∧ offset < segment.stop

/-- The stream and the byte a segment holds at an offset. -/
def at? (segment : Segment) (offset : Nat) : Option (OutputStream × UInt8) :=
  if segment.offset ≤ offset then segment.data[offset - segment.offset]?.map (Prod.mk segment.stream) else none

theorem spans_of_at? (h : segment.at? offset = some held) : segment.Spans offset := by
  unfold at? at h
  split_ifs at h with hlow
  obtain ⟨byte, hbyte, -⟩ := Option.map_eq_some_iff.mp h
  obtain ⟨hlt, -⟩ := List.getElem?_eq_some_iff.mp hbyte
  refine ⟨hlow, ?_⟩
  unfold stop
  omega

theorem drain_stop (hcount : count ≤ segment.data.length) : (segment.drain count).stop = segment.stop := by
  show segment.offset + count + (segment.data.drop count).length = segment.offset + segment.data.length
  rw [List.length_drop]
  omega

theorem head_stop (hcount : count ≤ segment.data.length) :
    (segment.head count).stop = segment.offset + count := by
  show segment.offset + (segment.data.take count).length = segment.offset + count
  rw [List.length_take_of_le hcount]

theorem at?_of_drain (h : (segment.drain count).at? offset = some held) : segment.at? offset = some held := by
  unfold at? drain at *
  dsimp only at h
  split_ifs at h with hlow
  have hindex : count + (offset - (segment.offset + count)) = offset - segment.offset := by omega
  rw [if_pos (by omega : segment.offset ≤ offset), ← hindex, ← List.getElem?_drop]
  exact h

theorem at?_of_head (h : (segment.head count).at? offset = some held) : segment.at? offset = some held := by
  unfold at? head at *
  dsimp only at h
  split_ifs at h with hlow
  rw [if_pos hlow]
  obtain ⟨byte, hbyte, hheld⟩ := Option.map_eq_some_iff.mp h
  rw [List.getElem?_take] at hbyte
  split_ifs at hbyte
  rw [hbyte, Option.map_some, hheld]

end Segment

/-- The offset is in one of the segments. -/
def Held (segments : List Segment) (offset : Nat) : Prop := ∃ segment ∈ segments, segment.Spans offset

/-- How many bytes the segments hold. -/
def bytes (segments : List Segment) : Nat := (segments.map (·.data.length)).sum

@[simp] theorem held_nil : ¬ Held [] offset := by simp [Held]

@[simp] theorem held_cons : Held (segment :: segments) offset ↔ segment.Spans offset ∨ Held segments offset := by
  simp [Held]

@[simp] theorem held_append : Held (earlier ++ later) offset ↔ Held earlier offset ∨ Held later offset := by
  simp only [Held, List.mem_append, or_and_right, exists_or]

@[simp] theorem bytes_nil : bytes [] = 0 := rfl

@[simp] theorem bytes_cons : bytes (segment :: segments) = segment.data.length + bytes segments := by
  simp [bytes]

@[simp] theorem bytes_append : bytes (earlier ++ later) = bytes earlier + bytes later := by
  simp [bytes]

/-- Sorted and disjoint segments, none of them empty. -/
structure Laid (segments : List Segment) : Prop where
  full : ∀ segment ∈ segments, segment.data ≠ []
  sorted : segments.Pairwise (fun segment later => segment.stop ≤ later.offset)

/-- The segments lie between two offsets. -/
def Within (low high : Nat) (segments : List Segment) : Prop :=
  ∀ segment ∈ segments, low ≤ segment.offset ∧ segment.stop ≤ high

/-- How many of the bytes lie past an offset. -/
def beyond (headEnd : Nat) (segments : List Segment) : Nat :=
  (segments.map (fun segment => segment.stop - max segment.offset headEnd)).sum

@[simp] theorem beyond_cons : beyond headEnd (segment :: segments) =
    (segment.stop - max segment.offset headEnd) + beyond headEnd segments := by
  simp [beyond]

@[simp] theorem beyond_append :
    beyond headEnd (earlier ++ later) = beyond headEnd earlier + beyond headEnd later := by
  simp [beyond]

namespace Laid

theorem nil : Laid [] := ⟨by simp, List.Pairwise.nil⟩

theorem cons_iff : Laid (segment :: segments) ↔
    segment.data ≠ [] ∧ (∀ later ∈ segments, segment.stop ≤ later.offset) ∧ Laid segments := by
  constructor
  · intro h
    obtain ⟨hnext, hrest⟩ := List.pairwise_cons.mp h.sorted
    refine ⟨h.full segment List.mem_cons_self, hnext, ⟨?_, hrest⟩⟩
    exact fun later hlater => h.full later (List.mem_cons_of_mem _ hlater)
  · rintro ⟨hfull, hnext, hrest⟩
    refine ⟨?_, List.pairwise_cons.mpr ⟨hnext, hrest.sorted⟩⟩
    intro later hlater
    rcases List.mem_cons.mp hlater with rfl | hlater
    · exact hfull
    · exact hrest.full later hlater

theorem append_iff : Laid (earlier ++ later) ↔
    Laid earlier ∧ Laid later ∧ ∀ segment ∈ earlier, ∀ next ∈ later, segment.stop ≤ next.offset := by
  constructor
  · intro h
    obtain ⟨hearlier, hlater, hacross⟩ := List.pairwise_append.mp h.sorted
    refine ⟨⟨?_, hearlier⟩, ⟨?_, hlater⟩, hacross⟩
    · exact fun segment hsegment => h.full segment (List.mem_append_left _ hsegment)
    · exact fun segment hsegment => h.full segment (List.mem_append_right _ hsegment)
  · rintro ⟨hearlier, hlater, hacross⟩
    refine ⟨?_, List.pairwise_append.mpr ⟨hearlier.sorted, hlater.sorted, hacross⟩⟩
    intro segment hsegment
    rcases List.mem_append.mp hsegment with hsegment | hsegment
    · exact hearlier.full segment hsegment
    · exact hlater.full segment hsegment

theorem length_pos (h : Laid segments) (hsegment : segment ∈ segments) : 0 < segment.data.length :=
  List.length_pos_iff.mpr (h.full segment hsegment)

/-- A segment may be replaced by segments that lie where it lay. -/
theorem replace {mid : List Segment} (h : Laid (earlier ++ segment :: later)) (hmid : Laid mid)
    (hwithin : Within segment.offset segment.stop mid) : Laid (earlier ++ mid ++ later) := by
  obtain ⟨hearlier, hfrom, hacross⟩ := append_iff.mp h
  obtain ⟨-, hnext, hlater⟩ := cons_iff.mp hfrom
  refine append_iff.mpr ⟨append_iff.mpr ⟨hearlier, hmid, ?_⟩, hlater, ?_⟩
  · intro before hbefore part hpart
    exact le_trans (hacross before hbefore segment List.mem_cons_self) (hwithin part hpart).1
  · intro before hbefore next hlaterMem
    rcases List.mem_append.mp hbefore with hbefore | hpart
    · exact hacross before hbefore next (List.mem_cons_of_mem _ hlaterMem)
    · exact le_trans (hwithin before hpart).2 (hnext next hlaterMem)

/-- The bytes that segments hold from an offset on are at most those up to a later offset, and those past
it. -/
theorem bytes_le_beyond (h : Laid segments) (hlow : ∀ segment ∈ segments, low ≤ segment.offset) :
    bytes segments ≤ (headEnd - low) + beyond headEnd segments := by
  induction segments generalizing low with
  | nil => simp
  | cons segment rest ih =>
    obtain ⟨-, hnext, hrest⟩ := cons_iff.mp h
    have hfirst := hlow segment List.mem_cons_self
    have hlater : bytes rest ≤ (headEnd - segment.stop) + beyond headEnd rest := ih hrest hnext
    have hstop : segment.stop = segment.offset + segment.data.length := rfl
    rw [bytes_cons, beyond_cons]
    omega

end Laid

/-- Segments that end by an offset hold nothing past it. -/
theorem beyond_eq_zero (h : ∀ segment ∈ segments, segment.stop ≤ headEnd) : beyond headEnd segments = 0 := by
  induction segments with
  | nil => rfl
  | cons segment rest ih =>
    have hstop := h segment List.mem_cons_self
    have hrest := ih (fun later hlater => h later (List.mem_cons_of_mem _ hlater))
    rw [beyond_cons, hrest]
    omega

theorem Within.mono {low' high' : Nat} (h : Within low high segments) (hlow : low' ≤ low) (hhigh : high ≤ high') :
    Within low' high' segments :=
  fun segment hsegment => ⟨le_trans hlow (h segment hsegment).1, le_trans (h segment hsegment).2 hhigh⟩

end Segments

end Lightspeed.Daemon
