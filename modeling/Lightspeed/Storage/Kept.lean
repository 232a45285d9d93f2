import Lightspeed.Storage.Lineage

/-!
# What the calls of a store keep

Every call leaves the sessions of a store readable, with one exception. `discard_unopened_session` looks at
the session alone, so it may take away the source that a fork's log is read out of. `Store.severs` is that
case. A deletion does not have it: the descendants that it takes with a session are closed under forks.
-/

namespace Lightspeed.Storage

open Lib Harness

variable {store store' : Store} {sessionId source : SessionId} {lineage gone : List SessionId}
  {log own : List CoreAgentEntry} {record : SessionRecord} {more : SessionId → List CoreAgentEntry}
  {walks : CoreAgentEvent → Bool} {request : AppendSessionEvents} {committed : List CoreAgentEntry}

/-! ## Appended events -/

/-- An event changes neither the id of a record, nor where its log branched off, nor the root of its branch. -/
theorem applyLifecycleProjection_keeps (record : Harness.SessionRecord) (entry : CoreAgentEntry) :
    (applyLifecycleProjection record entry).sessionId = record.sessionId ∧
      (applyLifecycleProjection record entry).sourceSessionId = record.sourceSessionId ∧
      (applyLifecycleProjection record entry).sourceSeq = record.sourceSeq ∧
      (applyLifecycleProjection record entry).retentionRootSessionId = record.retentionRootSessionId := by
  have hresume : record.resume.sessionId = record.sessionId ∧
      record.resume.sourceSessionId = record.sourceSessionId ∧
      record.resume.sourceSeq = record.sourceSeq ∧
      record.resume.retentionRootSessionId = record.retentionRootSessionId := by
    unfold Harness.SessionRecord.resume
    split_ifs <;> exact ⟨rfl, rfl, rfl, rfl⟩
  unfold applyLifecycleProjection refreshDeleteAt
  split <;> first | exact hresume | exact ⟨rfl, rfl, rfl, rfl⟩

theorem SessionRecord.advance_keeps (record : SessionRecord) (entry : CoreAgentEntry) :
    (record.advance entry).sessionId = record.sessionId ∧
      (record.advance entry).branch = record.branch ∧ (record.advance entry).head = some entry.seq := by
  obtain ⟨hid, hsource, hseq, -⟩ := applyLifecycleProjection_keeps record.toSessionRecord entry
  refine ⟨hid, ?_, rfl⟩
  unfold SessionRecord.branch SessionRecord.advance
  dsimp only
  rw [hsource, hseq]

/-- The entries that a record's events become go on from the record's head. -/
theorem commitUncommittedEvents_spec {n : Nat} (events : List UncommittedStoredEvent)
    (hhead : record.head = positionFromNonzeroSeq n) :
    (commitUncommittedEvents record events).1.sessionId = record.sessionId ∧
      (commitUncommittedEvents record events).1.branch = record.branch ∧
      (commitUncommittedEvents record events).1.head =
        positionFromNonzeroSeq (n + (commitUncommittedEvents record events).2.length) ∧
      Numbered CoreAgentEntry.seq (n + 1) (commitUncommittedEvents record events).2 := by
  induction events generalizing record n with
  | nil => exact ⟨rfl, rfl, hhead, .nil⟩
  | cons event events ih =>
    have hseq : (event.commit record).seq = n + 1 := by
      unfold UncommittedStoredEvent.commit positionFromNonzeroSeq at *
      dsimp only
      rw [hhead]
      split_ifs with hpos
      · rfl
      · rw [Nat.eq_zero_of_not_pos hpos]
        rfl
    obtain ⟨hid, hbranch, hadvanced⟩ := record.advance_keeps (event.commit record)
    have hnext : (record.advance (event.commit record)).head = positionFromNonzeroSeq (n + 1) := by
      rw [hadvanced, hseq]
      rfl
    obtain ⟨hid', hbranch', hhead', hnumbered⟩ := ih hnext
    have hlength : n + 1 + (commitUncommittedEvents (record.advance (event.commit record)) events).2.length =
        n + (commitUncommittedEvents record (event :: events)).2.length := by
      show _ = n + (_ + 1)
      omega
    refine ⟨hid'.trans hid, hbranch'.trans hbranch, ?_, Numbered.cons_iff.mpr ⟨hseq, hnumbered⟩⟩
    exact hlength ▸ hhead'

namespace Store

/-! ## Sessions that stay -/

/-- A set of sessions that holds the forks of each session in it. -/
def Closed (store : Store) (gone : List SessionId) : Prop :=
  ∀ id record, store.records.get? id = some record → ∀ source ∈ gone, record.forksFrom source → id ∈ gone

theorem closed_nil : store.Closed [] := fun _ _ _ _ hsource => absurd hsource List.not_mem_nil

theorem forksFrom_of_branch {branchSeq : EventSeq} (h : record.branch = some (source, branchSeq)) :
    record.forksFrom source := by
  unfold SessionRecord.branch at h
  split at h
  · rename_i hsource hseq
    obtain ⟨rfl, rfl⟩ := Prod.mk.inj (Option.some.inj h)
    unfold SessionRecord.forksFrom
    rw [hsource, hseq]
    simp
  · cases h

/-- The lineage of a session outside of a closed set is outside of it. -/
theorem Readable.avoids (readable : store.Readable (sessionId :: lineage) log)
    (hclosed : store.Closed gone) (hstays : sessionId ∉ gone) : ∀ id ∈ sessionId :: lineage, id ∉ gone := by
  generalize hall : sessionId :: lineage = all at readable
  induction readable generalizing sessionId lineage with
  | root _ =>
    obtain ⟨rfl, -⟩ := List.cons.inj hall
    intro id hid
    rwa [List.mem_singleton.mp hid]
  | @fork _ source _ _ _ _ record _ _ holds _ ih =>
    obtain ⟨rfl, rfl⟩ := List.cons.inj hall
    have hsource : source ∉ gone := fun hgone =>
      hstays (hclosed sessionId record holds.stored source hgone (forksFrom_of_branch holds.branches))
    intro id hid
    rcases List.mem_cons.mp hid with rfl | hid
    · exact hstays
    · exact ih hsource rfl id hid

/-- A session is readable after a change that lets it and what it forked from grow. -/
theorem Sound.readable (sound : store.Sound) (hclosed : store.Closed gone)
    (hgrows : ∀ id, id ∉ gone → store.Grows store' more id) (hid : sessionId ∈ store.records.keys)
    (hstays : sessionId ∉ gone) :
    ∃ lineage log, store.Readable (sessionId :: lineage) log ∧
      store'.Readable (sessionId :: lineage) (log ++ more sessionId) := by
  obtain ⟨lineage, log, hreadable⟩ := sound sessionId hid
  have havoids := hreadable.avoids hclosed hstays
  exact ⟨lineage, log, hreadable, hreadable.grow fun id hmem => hgrows id (havoids id hmem)⟩

/-- A session whose entries stay the same, and whose record keeps its id, its branch and its head. -/
theorem grows_of_same (hentries : store'.entries.get? sessionId = store.entries.get? sessionId)
    (hrecord : ∀ record, store.records.get? sessionId = some record →
      ∃ record', store'.records.get? sessionId = some record' ∧ record'.sessionId = record.sessionId ∧
        record'.branch = record.branch ∧ record'.head = record.head) :
    store.Grows store' (fun _ => []) sessionId := by
  constructor
  intro branch inherited own record holds
  obtain ⟨record', hstored, hid, hbranch, hhead⟩ := hrecord record holds.stored
  rw [List.append_nil]
  exact ⟨record', hstored, hid.trans holds.keyed, hbranch.trans holds.branches, hhead.trans holds.ends,
    hentries.trans holds.kept, holds.numbered⟩

/-- A change of records alone keeps a store sound. -/
theorem Sound.of_same (sound : store.Sound) (hentries : store'.entries = store.entries)
    (hkeys : ∀ id ∈ store'.records.keys, id ∈ store.records.keys)
    (hrecord : ∀ id record, store.records.get? id = some record →
      ∃ record', store'.records.get? id = some record' ∧ record'.sessionId = record.sessionId ∧
        record'.branch = record.branch ∧ record'.head = record.head) : store'.Sound := by
  intro id hid
  have hgrows : ∀ id, id ∉ ([] : List SessionId) → store.Grows store' (fun _ => []) id := fun id _ =>
    grows_of_same (by rw [hentries]) (hrecord id)
  obtain ⟨lineage, log, -, hreadable⟩ :=
    sound.readable closed_nil hgrows (hkeys id hid) List.not_mem_nil
  exact ⟨lineage, _, hreadable⟩

/-! ## Appends -/

/-- What an append leaves of the store. -/
theorem append_eq_ok (h : store.append walks request = .ok (store', committed)) :
    ∃ record own, store.records.get? request.sessionId = some record ∧
      store.entries.get? request.sessionId = some own ∧
      committed = (commitUncommittedEvents record request.events).2 ∧
      store' =
        { store with
          records := store.records.insert request.sessionId
            (commitUncommittedEvents record request.events).1
          entries := store.entries.insert request.sessionId (own ++ committed) } := by
  unfold Store.append at h
  obtain ⟨record, hrecord, h⟩ := bind_eq_ok.mp h
  obtain ⟨-, -, h⟩ := bind_eq_ok.mp h
  obtain ⟨-, -, h⟩ := bind_eq_ok.mp h
  obtain ⟨own, hown, h⟩ := bind_eq_ok.mp h
  obtain ⟨rfl, rfl⟩ := Prod.mk.inj (Except.ok.inj h)
  exact ⟨record, own, record_eq_ok.mp hrecord, orError_eq_ok.mp hown, rfl, rfl⟩

/-- An append adds to the session it is for, and to no other. -/
theorem grows_append (h : store.append walks request = .ok (store', committed)) (id : SessionId) :
    store.Grows store' (fun id => if id = request.sessionId then committed else []) id := by
  obtain ⟨record, own, hrecord, hown, hcommitted, rfl⟩ := append_eq_ok h
  constructor
  intro branch inherited own' record' holds
  by_cases hid : id = request.sessionId
  · subst hid
    obtain rfl := Option.mem_unique holds.stored hrecord
    obtain rfl := Option.mem_unique holds.kept hown
    obtain ⟨hkeyed, hbranches, hends, hnumbered⟩ := commitUncommittedEvents_spec request.events holds.ends
    rw [if_pos rfl, hcommitted]
    refine ⟨_, OrdMap.get?_insert_self .., hkeyed.trans holds.keyed, hbranches.trans holds.branches, ?_,
      OrdMap.get?_insert_self .., ?_⟩
    · rw [hends, List.length_append, Nat.add_assoc]
    · have hnext : inherited + 1 + own'.length = inherited + own'.length + 1 := by omega
      exact Numbered.append_iff.mpr ⟨holds.numbered, hnext ▸ hnumbered⟩
  · rw [if_neg hid, List.append_nil]
    refine ⟨record', ?_, holds.keyed, holds.branches, holds.ends, ?_, holds.numbered⟩
    · exact (OrdMap.get?_insert_ne _ _ (Ne.symm hid)).trans holds.stored
    · exact (OrdMap.get?_insert_ne _ _ (Ne.symm hid)).trans holds.kept

theorem Sound.append (sound : store.Sound)
    (h : store.append walks request = .ok (store', committed)) : store'.Sound := by
  intro id hid
  obtain ⟨record, own, hrecord, -, -, hstore⟩ := append_eq_ok h
  have hold : id ∈ store.records.keys := by
    rw [hstore] at hid
    rcases OrdMap.mem_keys_insert.mp hid with rfl | hid
    · exact OrdMap.mem_keys.mpr ⟨record, hrecord⟩
    · exact hid
  obtain ⟨lineage, log, -, hreadable⟩ :=
    sound.readable closed_nil (fun id _ => grows_append h id) hold List.not_mem_nil
  exact ⟨lineage, _, hreadable⟩

/-! ## New sessions -/

/-- A session that comes to a store leaves the others as they are. -/
theorem grows_insertSession {own : List CoreAgentEntry} (hnew : store.records.get? record.sessionId = none)
    (id : SessionId) : store.Grows (store.insertSession record own) (fun _ => []) id := by
  constructor
  intro branch inherited own' record' holds
  have hne : record.sessionId ≠ id := by
    rintro rfl
    rw [holds.stored] at hnew
    cases hnew
  rw [List.append_nil]
  refine ⟨record', ?_, holds.keyed, holds.branches, holds.ends, ?_, holds.numbered⟩
  · exact (OrdMap.get?_insert_ne _ _ hne).trans holds.stored
  · exact (OrdMap.get?_insert_ne _ _ hne).trans holds.kept

/-- A store with a new session is sound when the new session can be read. -/
theorem Sound.insertSession (sound : store.Sound) (hnew : store.records.get? record.sessionId = none)
    (hreadable : ∃ lineage log, (store.insertSession record own).Readable (record.sessionId :: lineage) log) :
    (store.insertSession record own).Sound := by
  intro id hid
  rcases OrdMap.mem_keys_insert.mp hid with rfl | hid
  · exact hreadable
  · obtain ⟨lineage, log, -, hreadable⟩ :=
      sound.readable closed_nil (fun id _ => grows_insertSession hnew id) hid List.not_mem_nil
    exact ⟨lineage, _, hreadable⟩

/-- A session that holds all of its log itself is read at once. -/
theorem readable_insertSession (hbranch : record.branch = none)
    (hhead : record.head = positionFromNonzeroSeq own.length)
    (hnumbered : Numbered CoreAgentEntry.seq 1 own) :
    (store.insertSession record own).Readable [record.sessionId] own := by
  have holds : (store.insertSession record own).Holds record.sessionId none 0 own record := by
    refine ⟨OrdMap.get?_insert_self .., rfl, hbranch, ?_, OrdMap.get?_insert_self .., hnumbered⟩
    rwa [Nat.zero_add]
  exact .root holds

/-- A fork at a point of a log that can be read is read from there. -/
theorem readable_insertFork {branchSeq : EventSeq} (readable : store.Readable (source :: lineage) log)
    (within : branchSeq ≤ log.length) (hnew : store.records.get? record.sessionId = none)
    (hbranch : record.branch = some (source, branchSeq))
    (hhead : record.head = positionFromNonzeroSeq branchSeq) :
    (store.insertSession record []).Readable (record.sessionId :: source :: lineage)
      (log.take branchSeq ++ []) := by
  have hfresh : record.sessionId ∉ source :: lineage := fun hmem => by
    obtain ⟨found, hfound⟩ := OrdMap.mem_keys.mp (readable.mem_keys _ hmem)
    rw [hnew] at hfound
    cases hfound
  have hgrown : (store.insertSession record []).Readable (source :: lineage) (log ++ []) :=
    readable.grow fun id _ => grows_insertSession hnew id
  rw [List.append_nil] at hgrown
  have holds : (store.insertSession record []).Holds record.sessionId (some (source, branchSeq)) branchSeq
      [] record :=
    ⟨OrdMap.get?_insert_self .., rfl, hbranch, hhead, OrdMap.get?_insert_self .., .nil⟩
  exact .fork hgrown within holds hfresh

theorem get?_of_not_contains (h : ¬ store.records.contains sessionId) :
    store.records.get? sessionId = none := by
  rw [OrdMap.contains, Option.isSome_iff_ne_none, not_not] at h
  exact h

theorem Sound.createSession {request : CreateSession} (sound : store.Sound)
    (h : store.createSession request = .ok (store', record)) : store'.Sound := by
  unfold Store.createSession at h
  obtain ⟨_, hnew, h⟩ := bind_eq_ok.mp h
  obtain ⟨-, -, h⟩ := bind_eq_ok.mp h
  have hnone := get?_of_not_contains (require_eq_ok.mp hnew)
  have hstore : ∃ record, store' = store.insertSession record [] ∧
      record.sessionId = request.sessionId ∧ record.branch = none ∧ record.head = none := by
    dsimp only at h
    split at h
    all_goals
      obtain ⟨-, -, h⟩ := bind_eq_ok.mp h
      obtain ⟨rfl, -⟩ := Prod.mk.inj (Except.ok.inj h)
      exact ⟨_, rfl, rfl, rfl, rfl⟩
  obtain ⟨record, rfl, hid, hbranch, hhead⟩ := hstore
  rw [← hid] at hnone
  exact sound.insertSession hnone ⟨[], [], readable_insertSession hbranch hhead .nil⟩

theorem checkBranch_eq_ok {sourceRecord : SessionRecord}
    (h : store.checkBranch source sessionId = .ok sourceRecord) :
    store.records.get? source = some sourceRecord ∧ store.records.get? sessionId = none := by
  unfold checkBranch at h
  obtain ⟨found, hfound, h⟩ := bind_eq_ok.mp h
  obtain ⟨-, -, h⟩ := bind_eq_ok.mp h
  obtain ⟨_, hnew, h⟩ := bind_eq_ok.mp h
  obtain rfl := Except.ok.inj h
  exact ⟨record_eq_ok.mp hfound, get?_of_not_contains (require_eq_ok.mp hnew)⟩

theorem Sound.createClonedSession {request : CreateClonedSession} (sound : store.Sound)
    (h : store.createClonedSession walks request = .ok (store', record)) : store'.Sound := by
  unfold Store.createClonedSession at h
  obtain ⟨_, hbranch, h⟩ := bind_eq_ok.mp h
  obtain ⟨-, -, h⟩ := bind_eq_ok.mp h
  obtain ⟨rfl, -⟩ := Prod.mk.inj (Except.ok.inj h)
  obtain ⟨-, hnone⟩ := checkBranch_eq_ok hbranch
  have hspec : ∀ record : SessionRecord, record.head = positionFromNonzeroSeq 0 → _ := fun _ hhead =>
    commitUncommittedEvents_spec request.openingEvents hhead
  obtain ⟨hkeyed, hbranches, hends, hnumbered⟩ := hspec
    { sessionId := request.sessionId
      retentionRootSessionId := request.sessionId
      sourceSessionId := some request.sourceSessionId
      createdAtMs := request.createdAtMs
      updatedAtMs := request.createdAtMs } rfl
  rw [Nat.zero_add] at hends hnumbered
  apply sound.insertSession
  · rwa [hkeyed]
  · exact ⟨[], _, readable_insertSession hbranches hends hnumbered⟩

theorem Sound.createForkedSession {request : CreateForkedSession} (sound : store.Sound)
    (h : store.createForkedSession request = .ok (store', record)) : store'.Sound := by
  unfold Store.createForkedSession at h
  obtain ⟨sourceRecord, hbranch, h⟩ := bind_eq_ok.mp h
  obtain ⟨entries, hentries, h⟩ := bind_eq_ok.mp h
  obtain ⟨head, hhead, h⟩ := bind_eq_ok.mp h
  obtain ⟨_, hpoint, h⟩ := bind_eq_ok.mp h
  obtain ⟨hsource, hnone⟩ := checkBranch_eq_ok hbranch
  obtain ⟨rfl, -⟩ := Prod.mk.inj (Except.ok.inj h)
  obtain ⟨lineage, log, hreadable⟩ := sound _ (OrdMap.mem_keys.mpr ⟨_, hsource⟩)
  -- The branch point is checked against the head, which is as long as the log.
  have hlength : head = log.length := by
    obtain ⟨found, hfound, -, hfoundHead⟩ := hreadable.exists_record
    obtain ⟨_, hagain, hget⟩ := bind_eq_ok.mp hhead
    obtain rfl := Option.some.inj (hfound.symm.trans (record_eq_ok.mp hagain))
    rw [← Except.ok.inj hget, hfoundHead, getD_positionFromNonzeroSeq]
  have hwithin : request.sourceSeq ≤ log.length := by
    obtain ⟨_, hle, -⟩ := bind_eq_ok.mp hpoint
    exact hlength ▸ require_eq_ok.mp hle
  apply sound.insertSession hnone
  exact ⟨_, _, readable_insertFork hreadable hwithin hnone rfl rfl⟩

/-! ## Records -/

theorem Sound.modifyRecord {change : SessionRecord → SessionRecord} {result : SessionRecord}
    (sound : store.Sound)
    (hchange : ∀ record, (change record).sessionId = record.sessionId ∧
      (change record).branch = record.branch ∧ (change record).head = record.head)
    (h : store.modifyRecord sessionId change = .ok (store', result)) : store'.Sound := by
  unfold Store.modifyRecord at h
  obtain ⟨record, hrecord, h⟩ := bind_eq_ok.mp h
  obtain ⟨rfl, -⟩ := Prod.mk.inj (Except.ok.inj h)
  have hstored := record_eq_ok.mp hrecord
  refine sound.of_same ?_ ?_ ?_
  · rfl
  · intro id hid
    rcases OrdMap.mem_keys_insert.mp hid with rfl | hid
    · exact OrdMap.mem_keys.mpr ⟨record, hstored⟩
    · exact hid
  · intro id found hfound
    by_cases hid : sessionId = id
    · subst hid
      obtain rfl := Option.mem_unique hfound hstored
      exact ⟨_, OrdMap.get?_insert_self .., hchange found⟩
    · exact ⟨found, (OrdMap.get?_insert_ne _ _ hid).trans hfound, rfl, rfl, rfl⟩

theorem Sound.setSessionRetention {duration : Option Nat} (sound : store.Sound)
    (h : store.setSessionRetention sessionId duration = .ok (store', record)) : store'.Sound := by
  unfold Store.setSessionRetention at h
  obtain ⟨-, -, h⟩ := bind_eq_ok.mp h
  obtain ⟨_, -, h⟩ := bind_eq_ok.mp h
  obtain ⟨-, -, h⟩ := bind_eq_ok.mp h
  apply sound.modifyRecord _ h
  intro record
  exact ⟨rfl, rfl, rfl⟩

end Store

end Lightspeed.Storage
