import Lightspeed.Lib.Numbered
import Lightspeed.Storage.Store

/-!
# The lineage of a session

A session's log is read along its lineage: a root or a clone holds all of its log itself, and a fork holds
what follows the point where it left its source. `Readable` says so of one session, with the sessions that
its log is read out of. What a store answers is then that log, and the log is numbered from one.

A store may change under a readable session. As long as each session of its lineage keeps its record's
branch and only appends to its entries, the session reads what it read before, with what itself appended
at the end.
-/

namespace Lightspeed.Storage

open Lib Harness

/-- Where a log branched off, when it is a fork's. -/
def SessionRecord.branch (record : SessionRecord) : Option (SessionId × EventSeq) :=
  match record.sourceSessionId, record.sourceSeq with
  | some sourceSessionId, some branchSeq => some (sourceSessionId, branchSeq)
  | _, _ => none

@[simp]
theorem getD_positionFromNonzeroSeq (seq : EventSeq) : (positionFromNonzeroSeq seq).getD 0 = seq := by
  unfold positionFromNonzeroSeq
  split_ifs with hpos
  · rfl
  · exact (Nat.eq_zero_of_not_pos hpos).symm

/-- A session's own part of its log: its record, the number of entries that it inherits, and the entries
that it holds. -/
structure Store.Holds (store : Store) (sessionId : SessionId) (branch : Option (SessionId × EventSeq))
    (inherited : Nat) (own : List CoreAgentEntry) (record : SessionRecord) : Prop where
  stored : store.records.get? sessionId = some record
  keyed : record.sessionId = sessionId
  branches : record.branch = branch
  ends : record.head = positionFromNonzeroSeq (inherited + own.length)
  kept : store.entries.get? sessionId = some own
  numbered : Numbered CoreAgentEntry.seq (inherited + 1) own

/-- The lineage of a session, the session itself first, and its log. -/
inductive Store.Readable (store : Store) : List SessionId → List CoreAgentEntry → Prop
  | root {sessionId : SessionId} {own : List CoreAgentEntry} {record : SessionRecord}
      (holds : store.Holds sessionId none 0 own record) : Readable store [sessionId] own
  | fork {sessionId source : SessionId} {lineage : List SessionId} {log own : List CoreAgentEntry}
      {branchSeq : EventSeq} {record : SessionRecord} (readable : Readable store (source :: lineage) log)
      (within : branchSeq ≤ log.length)
      (holds : store.Holds sessionId (some (source, branchSeq)) branchSeq own record)
      (fresh : sessionId ∉ source :: lineage) :
      Readable store (sessionId :: source :: lineage) (log.take branchSeq ++ own)

namespace Store

variable {store store' : Store} {sessionId source : SessionId} {lineage : List SessionId}
  {log own more : List CoreAgentEntry} {branch : Option (SessionId × EventSeq)} {inherited : Nat}
  {record : SessionRecord}

/-! ## What is read -/

theorem record_eq_ok : store.record sessionId = .ok record ↔ store.records.get? sessionId = some record :=
  orError_eq_ok

theorem effectiveEntriesUpTo_root {depth : Nat} (hrecord : store.records.get? sessionId = some record)
    (hbranch : record.branch = none) (maxSeq : EventSeq) :
    store.effectiveEntriesUpTo (depth + 1) sessionId maxSeq = store.localEntriesUpTo sessionId 0 maxSeq := by
  unfold SessionRecord.branch at hbranch
  rw [Store.effectiveEntriesUpTo, record_eq_ok.mpr hrecord, ok_bind]
  cases hsource : record.sourceSessionId with
  | none => rfl
  | some source =>
    cases hseq : record.sourceSeq with
    | none => rfl
    | some branchSeq =>
      rw [hsource, hseq] at hbranch
      cases hbranch

theorem effectiveEntriesUpTo_fork {depth : Nat} {branchSeq : EventSeq}
    (hrecord : store.records.get? sessionId = some record)
    (hbranch : record.branch = some (source, branchSeq)) (maxSeq : EventSeq) :
    store.effectiveEntriesUpTo (depth + 1) sessionId maxSeq =
      if maxSeq ≤ branchSeq then store.effectiveEntriesUpTo depth source maxSeq
      else (do
        let inherited ← store.effectiveEntriesUpTo depth source branchSeq
        let own ← store.localEntriesUpTo sessionId branchSeq maxSeq
        .ok (inherited ++ own)) := by
  unfold SessionRecord.branch at hbranch
  rw [Store.effectiveEntriesUpTo, record_eq_ok.mpr hrecord, ok_bind]
  cases hsource : record.sourceSessionId with
  | none =>
    rw [hsource] at hbranch
    cases hbranch
  | some parent =>
    cases hseq : record.sourceSeq with
    | none =>
      rw [hsource, hseq] at hbranch
      cases hbranch
    | some parentSeq =>
      rw [hsource, hseq] at hbranch
      obtain ⟨rfl, rfl⟩ := Prod.mk.inj (Option.some.inj hbranch)
      rfl

/-- What a session holds up to a number. -/
theorem Holds.localEntriesUpTo (holds : store.Holds sessionId branch inherited own record)
    (maxSeq : EventSeq) :
    store.localEntriesUpTo sessionId inherited maxSeq = .ok (own.take (maxSeq - inherited)) := by
  have hafter : ∀ entry ∈ own, inherited < entry.seq := fun entry hentry => holds.numbered.first_le hentry
  have hfilter : own.filter (fun entry => inherited < entry.seq ∧ entry.seq ≤ maxSeq) =
      own.filter fun entry => entry.seq ≤ maxSeq := by
    apply List.filter_congr
    intro entry hentry
    simp only [hafter entry hentry, true_and]
  have hcount : maxSeq + 1 - (inherited + 1) = maxSeq - inherited := Nat.add_sub_add_right ..
  unfold Store.localEntriesUpTo
  rw [holds.kept, orError_some, ok_bind, hfilter, holds.numbered.filter_through, hcount]

namespace Readable

/-- Every session of a lineage is in the store. -/
theorem mem_keys (readable : store.Readable lineage log) : ∀ id ∈ lineage, id ∈ store.records.keys := by
  induction readable with
  | root holds =>
    intro id hid
    rw [List.mem_singleton.mp hid]
    exact OrdMap.mem_keys.mpr ⟨_, holds.stored⟩
  | fork _ _ holds _ ih =>
    intro id hid
    rcases List.mem_cons.mp hid with rfl | hid
    · exact OrdMap.mem_keys.mpr ⟨_, holds.stored⟩
    · exact ih id hid

/-- No session comes up twice in a lineage. -/
theorem nodup (readable : store.Readable lineage log) : lineage.Nodup := by
  induction readable with
  | root _ => exact List.nodup_singleton _
  | fork _ _ _ fresh ih => exact List.nodup_cons.mpr ⟨fresh, ih⟩

/-- A lineage is no longer than the store has sessions. -/
theorem length_le (readable : store.Readable lineage log) :
    lineage.length ≤ store.records.entries.length := by
  have hle := (List.subperm_of_subset readable.nodup readable.mem_keys).length_le
  rwa [OrdMap.keys, List.length_map] at hle

/-- A log is numbered from one. -/
theorem numbered (readable : store.Readable lineage log) : Numbered CoreAgentEntry.seq 1 log := by
  induction readable with
  | root holds => exact holds.numbered
  | @fork _ _ _ log _ branchSeq _ _ within holds _ ih =>
    have hlength : 1 + (log.take branchSeq).length = branchSeq + 1 := by
      rw [List.length_take_of_le within]
      omega
    exact Numbered.append_iff.mpr ⟨ih.take _, hlength ▸ holds.numbered⟩

/-- The record of a readable session: its own id, and the length of its log as its head. -/
theorem exists_record (readable : store.Readable (sessionId :: lineage) log) :
    ∃ record, store.records.get? sessionId = some record ∧ record.sessionId = sessionId ∧
      record.head = positionFromNonzeroSeq log.length := by
  cases readable with
  | root holds =>
    have hhead := holds.ends
    rw [Nat.zero_add] at hhead
    exact ⟨_, holds.stored, holds.keyed, hhead⟩
  | @fork _ source _ log own branchSeq record _ within holds _ =>
    have hlength : (log.take branchSeq ++ own).length = branchSeq + own.length := by
      rw [List.length_append, List.length_take_of_le within]
    exact ⟨record, holds.stored, holds.keyed, hlength ▸ holds.ends⟩

/-- The log of a lineage up to a number, read with as many levels as the lineage has sessions. -/
theorem effectiveEntriesUpTo (readable : store.Readable (sessionId :: lineage) log) {depth : Nat}
    (hdepth : (sessionId :: lineage).length ≤ depth) (maxSeq : EventSeq) :
    store.effectiveEntriesUpTo depth sessionId maxSeq = .ok (log.take maxSeq) := by
  generalize hall : sessionId :: lineage = all at readable hdepth
  induction readable generalizing sessionId lineage depth maxSeq with
  | @root _ own record holds =>
    obtain ⟨rfl, -⟩ := List.cons.inj hall
    obtain ⟨depth, rfl⟩ := Nat.exists_eq_add_one.mpr hdepth
    rw [effectiveEntriesUpTo_root holds.stored holds.branches, holds.localEntriesUpTo, Nat.sub_zero]
  | @fork _ source lineage log own branchSeq record readable within holds fresh ih =>
    obtain ⟨rfl, rfl⟩ := List.cons.inj hall
    have hpos : 0 < depth := Nat.lt_of_lt_of_le (Nat.succ_pos _) hdepth
    obtain ⟨depth, rfl⟩ := Nat.exists_eq_add_one.mpr hpos
    have hrest : (source :: lineage).length ≤ depth := Nat.le_of_succ_le_succ hdepth
    have hsource := fun max => ih max rfl hrest
    have hlength : (log.take branchSeq).length = branchSeq := List.length_take_of_le within
    rw [effectiveEntriesUpTo_fork holds.stored holds.branches, List.take_append, hlength, List.take_take,
      hsource, hsource, holds.localEntriesUpTo]
    split_ifs with hmax
    · -- Nothing of what the fork holds itself is asked for.
      have hnone : maxSeq - branchSeq = 0 := Nat.sub_eq_zero_of_le hmax
      rw [hnone, List.take_zero, List.append_nil, Nat.min_eq_left hmax]
    · rw [Nat.min_eq_right (Nat.le_of_not_le hmax)]
      rfl

/-- What a store reads of a readable session is its log. -/
theorem effectiveEntries (readable : store.Readable (sessionId :: lineage) log) :
    store.effectiveEntries sessionId = .ok log := by
  obtain ⟨record, hrecord, -, hhead⟩ := readable.exists_record
  have hseq : record.head.getD 0 = log.length := by
    rw [hhead, getD_positionFromNonzeroSeq]
  unfold Store.effectiveEntries effectiveHead
  rw [record_eq_ok.mpr hrecord, ok_bind, ok_bind, hseq, readable.effectiveEntriesUpTo (Nat.le_succ_of_le readable.length_le),
    List.take_length]

end Readable

/-! ## Stores that grow -/

/-- A session whose record keeps its branch, and whose entries go on from where they ended. -/
structure Grows (store store' : Store) (more : SessionId → List CoreAgentEntry) (sessionId : SessionId) :
    Prop where
  holds : ∀ {branch inherited own record}, store.Holds sessionId branch inherited own record →
    ∃ record', store'.Holds sessionId branch inherited (own ++ more sessionId) record'

/-- A lineage whose sessions only grow is a lineage still, and its log has gained what its session has. -/
theorem Readable.grow {more : SessionId → List CoreAgentEntry}
    (readable : store.Readable (sessionId :: lineage) log)
    (hgrows : ∀ id ∈ sessionId :: lineage, store.Grows store' more id) :
    store'.Readable (sessionId :: lineage) (log ++ more sessionId) := by
  generalize hall : sessionId :: lineage = all at readable hgrows
  induction readable generalizing sessionId lineage with
  | root holds =>
    obtain ⟨rfl, -⟩ := List.cons.inj hall
    obtain ⟨record', holds'⟩ := (hgrows _ List.mem_cons_self).holds holds
    exact .root holds'
  | @fork _ source lineage log own branchSeq record readable within holds fresh ih =>
    obtain ⟨rfl, rfl⟩ := List.cons.inj hall
    have hsource := ih rfl fun id hid => hgrows id (List.mem_cons_of_mem _ hid)
    obtain ⟨record', holds'⟩ := (hgrows _ List.mem_cons_self).holds holds
    have hwithin : branchSeq ≤ (log ++ more source).length := by
      rw [List.length_append]
      exact Nat.le_add_right_of_le within
    have hfork := Readable.fork hsource hwithin holds' fresh
    rwa [List.take_append_of_le_length within, ← List.append_assoc] at hfork

/-- Every session of the store can be read. -/
def Sound (store : Store) : Prop :=
  ∀ sessionId ∈ store.records.keys, ∃ lineage log, store.Readable (sessionId :: lineage) log

end Store

end Lightspeed.Storage
