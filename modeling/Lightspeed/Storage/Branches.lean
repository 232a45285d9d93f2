import Lightspeed.Storage.Pages

/-!
# The branches of a store

A session that was delegated hangs on its parent, and a fork on its source. Either way it is kept as long as
the session at the root of its branch, which its record names. `Rooted` follows a branch up to that root.
What takes a session together with all that hangs on it leaves the other branches whole.
-/

namespace Lightspeed.Storage

open Lib Harness

/-- What a session hangs on, and the root of its branch. A record that is out of order has neither. -/
def SessionRecord.trunk (record : SessionRecord) : Option (Option SessionId × SessionId) :=
  match record.origin, record.sourceSeq, record.sourceSessionId with
  | none, none, _ => some (none, record.retentionRootSessionId)
  | some origin, none, _ => some (some origin.parentSessionId, record.retentionRootSessionId)
  | none, some _, some source => some (some source, record.retentionRootSessionId)
  | _, _, _ => none

variable {store store' : Store} {sessionId parent root : SessionId} {gone : List SessionId}
  {record record' : SessionRecord} {walks : CoreAgentEvent → Bool}

theorem SessionRecord.childOf_of_trunk (h : record.trunk = some (some parent, root)) :
    record.childOf parent = true := by
  unfold SessionRecord.trunk at h
  unfold SessionRecord.childOf SessionRecord.forksFrom
  split at h <;> simp_all

theorem commitUncommittedEvents_trunk (record : SessionRecord) (events : List UncommittedStoredEvent) :
    (commitUncommittedEvents record events).1.sessionId = record.sessionId ∧
      (commitUncommittedEvents record events).1.trunk = record.trunk := by
  induction events generalizing record with
  | nil => exact ⟨rfl, rfl⟩
  | cons event events ih =>
    obtain ⟨hid, htrunk⟩ := ih (record.advance (event.commit record))
    obtain ⟨hid', hsource, hseq, hroot⟩ :=
      applyLifecycleProjection_keeps record.toSessionRecord (event.commit record)
    refine ⟨hid.trans hid', htrunk.trans ?_⟩
    unfold SessionRecord.trunk SessionRecord.advance
    dsimp only
    rw [hsource, hseq, hroot]

namespace Store

def trunk (store : Store) (sessionId : SessionId) : Option (Option SessionId × SessionId) :=
  (store.records.get? sessionId).bind SessionRecord.trunk

theorem trunk_of_stored (h : store.records.get? sessionId = some record) :
    store.trunk sessionId = record.trunk := by
  unfold trunk
  rw [h, Option.bind_some]

/-- A session whose branch leads to a root, which the record of each session on the way names. -/
inductive Rooted (store : Store) (root : SessionId) : SessionId → Prop
  | own (h : store.trunk root = some (none, root)) : Rooted store root root
  | child {sessionId parent : SessionId} (h : store.trunk sessionId = some (some parent, root))
      (above : Rooted store root parent) : Rooted store root sessionId

/-- Every session's branch leads to a root. -/
def Forest (store : Store) : Prop :=
  ∀ sessionId ∈ store.records.keys, ∃ root, store.Rooted root sessionId

theorem Rooted.exists_record (h : store.Rooted root sessionId) : ∃ record,
    store.records.get? sessionId = some record ∧ record.retentionRootSessionId = root := by
  obtain ⟨on, htrunk⟩ : ∃ on, store.trunk sessionId = some (on, root) := by
    cases h with
    | own h | child h above => exact ⟨_, h⟩
  obtain ⟨record, hrecord, htrunk⟩ := Option.bind_eq_some_iff.mp htrunk
  refine ⟨record, hrecord, ?_⟩
  unfold SessionRecord.trunk at htrunk
  split at htrunk <;> cases htrunk <;> rfl

theorem Rooted.root_mem (h : store.Rooted root sessionId) : root ∈ store.records.keys := by
  induction h with
  | own h =>
    obtain ⟨record, hrecord, -⟩ := Option.bind_eq_some_iff.mp h
    exact OrdMap.mem_keys.mpr ⟨record, hrecord⟩
  | child h above ih => exact ih

/-- A branch stays when what goes takes all that hangs on it. -/
theorem Rooted.stays (gone : List SessionId) (h : store.Rooted root sessionId)
    (hkeeps : ∀ id ∉ gone, ∀ t, store.trunk id = some t → store'.trunk id = some t)
    (hclosed : ∀ parent ∈ gone, ∀ child ∈ store.children parent, child ∈ gone)
    (hstays : sessionId ∉ gone) : store'.Rooted root sessionId := by
  induction h with
  | own h => exact .own (hkeeps _ hstays _ h)
  | child h above ih =>
    refine .child (hkeeps _ hstays _ h) (ih fun hgone => hstays (hclosed _ hgone _ ?_))
    obtain ⟨record, hrecord, htrunk⟩ := Option.bind_eq_some_iff.mp h
    exact mem_children.mpr ⟨record, hrecord, record.childOf_of_trunk htrunk⟩

theorem Forest.remove (gone : List SessionId) (forest : store.Forest)
    (hkeeps : ∀ id ∉ gone, ∀ t, store.trunk id = some t → store'.trunk id = some t)
    (hclosed : ∀ parent ∈ gone, ∀ child ∈ store.children parent, child ∈ gone)
    (hkeys : ∀ id ∈ store'.records.keys, id ∈ store.records.keys ∧ id ∉ gone) : store'.Forest := by
  intro id hid
  obtain ⟨hthere, hstays⟩ := hkeys id hid
  obtain ⟨root, hrooted⟩ := forest id hthere
  exact ⟨root, hrooted.stays gone hkeeps hclosed hstays⟩

/-- A stored record that hangs on what it hung on. -/
theorem Forest.insert (forest : store.Forest) (hstored : store.records.get? sessionId = some record)
    (htrunk : record'.trunk = record.trunk) (hrecords : store'.records = store.records.insert sessionId record') :
    store'.Forest := by
  refine forest.remove [] (fun id _ t ht => ?_) nofun fun id hid => ⟨?_, List.not_mem_nil⟩
  · unfold trunk at ht ⊢
    rw [hrecords, OrdMap.get?_insert]
    split_ifs with heq
    · rw [← heq, hstored, Option.bind_some, ← htrunk] at ht
      exact ht
    · exact ht
  · rcases OrdMap.mem_keys_insert.mp (hrecords ▸ hid) with rfl | hid
    · exact OrdMap.mem_keys.mpr ⟨record, hstored⟩
    · exact hid

/-- A new session is the root of a branch of its own, or joins the branch that it hangs on. -/
theorem Forest.insertSession {own : List CoreAgentEntry} (forest : store.Forest)
    (hnew : store.records.get? record.sessionId = none)
    (hroot : record.trunk = some (none, record.sessionId) ∨ ∃ parent above,
      store.records.get? parent = some above ∧ record.trunk = some (some parent, above.retentionRootSessionId)) :
    (store.insertSession record own).Forest := by
  have hself : (store.insertSession record own).trunk record.sessionId = record.trunk :=
    trunk_of_stored (OrdMap.get?_insert_self ..)
  have hold : ∀ id root, store.Rooted root id → (store.insertSession record own).Rooted root id := by
    intro id root hrooted
    refine hrooted.stays [] (fun id _ t ht => ?_) nofun List.not_mem_nil
    obtain ⟨found, hfound, ht⟩ := Option.bind_eq_some_iff.mp ht
    have hne : record.sessionId ≠ id := fun heq => by simp [← heq, hnew] at hfound
    exact (trunk_of_stored ((OrdMap.get?_insert_ne _ _ hne).trans hfound)).trans ht
  intro id hid
  rcases OrdMap.mem_keys_insert.mp hid with rfl | hid
  · rcases hroot with htrunk | ⟨parent, above, habove, htrunk⟩
    · exact ⟨record.sessionId, .own (hself.trans htrunk)⟩
    · obtain ⟨root, hrooted⟩ := forest parent (OrdMap.mem_keys.mpr ⟨above, habove⟩)
      obtain ⟨found, hfound, rfl⟩ := hrooted.exists_record
      obtain rfl := Option.mem_unique hfound habove
      exact ⟨_, .child (hself.trans htrunk) (hold _ _ hrooted)⟩
  · obtain ⟨root, hrooted⟩ := forest id hid
    exact ⟨root, hold _ _ hrooted⟩

/-! ## Calls -/

theorem Forest.createSession {request : CreateSession} (forest : store.Forest)
    (h : store.createSession request = .ok (store', record)) : store'.Forest := by
  unfold Store.createSession at h
  obtain ⟨_, hnew, h⟩ := bind_eq_ok.mp h
  obtain ⟨-, -, h⟩ := bind_eq_ok.mp h
  have hnone := get?_of_not_contains (require_eq_ok.mp hnew)
  dsimp only at h
  split at h
  · rename_i origin horigin
    obtain ⟨_, hchecked, h⟩ := bind_eq_ok.mp h
    obtain ⟨rfl, -⟩ := Prod.mk.inj (Except.ok.inj h)
    obtain ⟨-, -, hchecked⟩ := bind_eq_ok.mp hchecked
    obtain ⟨_, hthere, -⟩ := bind_eq_ok.mp hchecked
    have hparent := require_eq_ok.mp (forM_eq_ok.mp hthere _ List.mem_cons_self)
    obtain ⟨above, habove⟩ := Option.isSome_iff_exists.mp hparent
    refine forest.insertSession hnone (.inr ⟨_, above, habove, ?_⟩)
    simp only [SessionRecord.trunk, horigin, Option.bind_some, habove, Option.elim_some]
  · rename_i horigin
    obtain ⟨-, -, h⟩ := bind_eq_ok.mp h
    obtain ⟨rfl, -⟩ := Prod.mk.inj (Except.ok.inj h)
    refine forest.insertSession hnone (.inl ?_)
    simp only [SessionRecord.trunk, horigin, Option.bind_none, Option.elim_none]

theorem Forest.createClonedSession {request : CreateClonedSession} (forest : store.Forest)
    (h : store.createClonedSession walks request = .ok (store', record)) : store'.Forest := by
  unfold Store.createClonedSession at h
  obtain ⟨_, hbranch, h⟩ := bind_eq_ok.mp h
  obtain ⟨-, -, h⟩ := bind_eq_ok.mp h
  obtain ⟨rfl, -⟩ := Prod.mk.inj (Except.ok.inj h)
  obtain ⟨-, hnone⟩ := checkBranch_eq_ok hbranch
  have hsame := fun record => commitUncommittedEvents_trunk record request.openingEvents
  refine forest.insertSession ?_ (.inl ((hsame _).2.trans ?_))
  · rwa [(hsame _).1]
  · rw [(hsame _).1]
    rfl

theorem Forest.createForkedSession {request : CreateForkedSession} (forest : store.Forest)
    (h : store.createForkedSession request = .ok (store', record)) : store'.Forest := by
  unfold Store.createForkedSession at h
  obtain ⟨_, hbranch, h⟩ := bind_eq_ok.mp h
  obtain ⟨_, -, h⟩ := bind_eq_ok.mp h
  obtain ⟨_, -, h⟩ := bind_eq_ok.mp h
  obtain ⟨_, -, h⟩ := bind_eq_ok.mp h
  obtain ⟨hsource, hnone⟩ := checkBranch_eq_ok hbranch
  obtain ⟨rfl, -⟩ := Prod.mk.inj (Except.ok.inj h)
  exact forest.insertSession hnone (.inr ⟨_, _, hsource, rfl⟩)

theorem Forest.modifyRecord {change : SessionRecord → SessionRecord} {result : SessionRecord}
    (forest : store.Forest) (hchange : ∀ record, (change record).trunk = record.trunk)
    (h : store.modifyRecord sessionId change = .ok (store', result)) : store'.Forest := by
  unfold Store.modifyRecord at h
  obtain ⟨record, hrecord, h⟩ := bind_eq_ok.mp h
  obtain ⟨rfl, -⟩ := Prod.mk.inj (Except.ok.inj h)
  exact forest.insert (record_eq_ok.mp hrecord) (hchange record) rfl

/-- Whether a call discards a session that never opened, and that another one hangs on. -/
def orphans (store : Store) : StoreCall → Bool
  | .discardUnopenedSession sessionId =>
    (store.records.get? sessionId).any
        (fun record => record.lifecycleStatus = .new ∧ record.head = none) &&
      !(store.children sessionId).isEmpty
  | _ => false

theorem severs_of_orphans {call : StoreCall} (h : store.orphans call = false) : store.severs call = false := by
  cases call with
  | discardUnopenedSession sessionId =>
    unfold orphans at h
    unfold severs
    rw [Bool.and_eq_false_iff] at h ⊢
    refine h.imp_right fun hnone => List.any_eq_false.mpr fun record hrecord hforks => ?_
    obtain ⟨id, hget⟩ := OrdMap.mem_values.mp hrecord
    have hchild : id ∈ store.children sessionId :=
      mem_children.mpr ⟨record, hget, by simp [SessionRecord.childOf, hforks]⟩
    rw [Bool.not_eq_false', List.isEmpty_iff] at hnone
    rw [hnone] at hchild
    cases hchild
  | _ => rfl

theorem Forest.discardUnopenedSession (forest : store.Forest)
    (hkeeps : store.orphans (.discardUnopenedSession sessionId) = false) :
    (store.discardUnopenedSession sessionId).1.Forest := by
  unfold Store.discardUnopenedSession
  dsimp only [orphans] at hkeeps
  dsimp only
  split_ifs with hunopened
  · rw [hunopened, Bool.true_and, Bool.not_eq_false', List.isEmpty_iff] at hkeeps
    refine forest.remove [sessionId] (fun id hid t ht => ?_) (fun parent hparent child hchild => ?_) fun id hid => ?_
    · unfold trunk at ht ⊢
      rwa [OrdMap.get?_erase, if_neg fun heq => hid (List.mem_singleton.mpr heq)]
    · rw [List.mem_singleton.mp hparent, hkeeps] at hchild
      cases hchild
    · obtain ⟨record, hrecord⟩ := OrdMap.mem_keys.mp hid
      rw [OrdMap.get?_erase] at hrecord
      split_ifs at hrecord with heq
      exact ⟨OrdMap.mem_keys.mpr ⟨record, hrecord⟩, fun hmem => heq (List.mem_singleton.mp hmem)⟩
  · exact forest

theorem Forest.removeSessions (forest : store.Forest)
    (hclosed : ∀ parent ∈ gone, ∀ child ∈ store.children parent, child ∈ gone) :
    (store.removeSessions gone).Forest := by
  refine forest.remove gone (fun id hstays t ht => ?_) hclosed fun id hid => ?_
  · obtain ⟨record, hrecord, ht⟩ := Option.bind_eq_some_iff.mp ht
    refine (trunk_of_stored (get?_removeSessions hstays hrecord)).trans (Eq.trans ?_ ht)
    split_ifs with hsource
    · -- The session was cloned from one that goes, and a clone hangs on nothing.
      obtain ⟨source, hsome, hgone⟩ := (Option.any_eq_true ..).mp hsource
      have hseq : record.sourceSeq = none := by
        by_contra hseq
        refine hstays (hclosed source (of_decide_eq_true hgone) id (mem_children.mpr ⟨record, hrecord, ?_⟩))
        simp [SessionRecord.childOf, SessionRecord.forksFrom, Option.ne_none_iff_isSome.mp hseq, hsome]
      simp only [SessionRecord.trunk, hseq]
      cases record.origin <;> rfl
    · rfl
  · unfold Store.removeSessions at hid
    rw [OrdMap.keys_mapValues] at hid
    obtain ⟨record, hrecord⟩ := OrdMap.mem_keys.mp hid
    rw [OrdMap.get?_filter, Option.filter_eq_some_iff] at hrecord
    exact ⟨OrdMap.mem_keys.mpr ⟨record, hrecord.1⟩, of_decide_eq_true hrecord.2⟩

/-- A call that discards no session that another one hangs on leaves a forest. -/
theorem Forest.call {call : StoreCall} (sound : store.Sound) (forest : store.Forest)
    (hkeeps : store.orphans call = false) (h : store.call walks call = .ok store') : store'.Forest := by
  unfold Store.call at h
  cases call with
  | createSession request =>
    obtain ⟨_, h⟩ := map_fst_eq_ok h
    exact forest.createSession h
  | createClonedSession request =>
    obtain ⟨_, h⟩ := map_fst_eq_ok h
    exact forest.createClonedSession h
  | createForkedSession request =>
    obtain ⟨_, h⟩ := map_fst_eq_ok h
    exact forest.createForkedSession h
  | append request =>
    obtain ⟨_, h⟩ := map_fst_eq_ok h
    obtain ⟨record, own, hrecord, -, -, rfl⟩ := append_eq_ok h
    exact forest.insert hrecord (commitUncommittedEvents_trunk record request.events).2 rfl
  | setSessionDisplayName | setSessionMetadata =>
    obtain ⟨_, h⟩ := map_fst_eq_ok h
    apply forest.modifyRecord _ h
    exact fun _ => rfl
  | setSessionRetention id duration =>
    obtain ⟨_, h⟩ := map_fst_eq_ok h
    unfold Store.setSessionRetention at h
    obtain ⟨-, -, h⟩ := bind_eq_ok.mp h
    obtain ⟨_, -, h⟩ := bind_eq_ok.mp h
    obtain ⟨-, -, h⟩ := bind_eq_ok.mp h
    apply forest.modifyRecord _ h
    exact fun _ => rfl
  | discardUnopenedSession id =>
    obtain rfl := Except.ok.inj h
    exact forest.discardUnopenedSession hkeeps
  | deleteClosedSessions request =>
    obtain ⟨_, h⟩ := map_fst_eq_ok h
    obtain ⟨gone, hgone, rfl⟩ := sound.deleted h
    exact forest.removeSessions hgone
  | advanceCheckpoint checkpoint =>
    obtain ⟨_, h⟩ := map_fst_eq_ok h
    unfold Store.advanceCheckpoint at h
    obtain ⟨-, -, h⟩ := bind_eq_ok.mp h
    have hrecords : store'.records = store.records := by
      split_ifs at h
      all_goals
        obtain ⟨rfl, -⟩ := Prod.mk.inj (Except.ok.inj h)
        rfl
    refine forest.remove [] (fun id _ t ht => ?_) nofun fun id hid => ⟨hrecords ▸ hid, List.not_mem_nil⟩
    unfold trunk
    rwa [hrecords]

/-! ## Runs -/

/-- What a session's record says of its branch is so. -/
structure Branches (store : Store) (sessionId : SessionId) (record : SessionRecord) : Prop where
  rooted : record.retentionRootSessionId ∈ store.records.keys
  own : record.origin = none → record.sourceSeq = none → record.retentionRootSessionId = sessionId
  delegated : ∀ origin, record.origin = some origin →
    ∃ parent, store.records.get? origin.parentSessionId = some parent ∧
      record.retentionRootSessionId = parent.retentionRootSessionId
  forked : ∀ seq, record.sourceSeq = some seq →
    ∃ sourceId source, record.sourceSessionId = some sourceId ∧ store.records.get? sourceId = some source ∧
      seq ≤ source.head.getD 0 ∧ record.retentionRootSessionId = source.retentionRootSessionId

/-- A fork leaves its source within what the source has. -/
theorem Readable.source_head {lineage : List SessionId} {log : List CoreAgentEntry} {source : SessionId}
    {seq : EventSeq} (readable : store.Readable (sessionId :: lineage) log)
    (hrecord : store.records.get? sessionId = some record) (hbranch : record.branch = some (source, seq))
    (hsource : store.records.get? source = some record') : seq ≤ record'.head.getD 0 := by
  cases readable with
  | root holds =>
    obtain rfl := Option.mem_unique hrecord holds.stored
    cases hbranch.symm.trans holds.branches
  | fork readable within holds fresh =>
    obtain rfl := Option.mem_unique hrecord holds.stored
    obtain ⟨rfl, rfl⟩ := Prod.mk.inj (Option.some.inj (hbranch.symm.trans holds.branches))
    obtain ⟨found, hfound, -, hhead⟩ := readable.exists_record
    obtain rfl := Option.mem_unique hfound hsource
    rwa [hhead, getD_positionFromNonzeroSeq]

theorem branches_of_sound (sound : store.Sound) (forest : store.Forest)
    (hrecord : store.records.get? sessionId = some record) : store.Branches sessionId record := by
  have hkey := OrdMap.mem_keys.mpr ⟨record, hrecord⟩
  obtain ⟨root, hrooted⟩ := forest sessionId hkey
  have hroot := hrooted.root_mem
  obtain ⟨found, hfound, rfl⟩ := hrooted.exists_record
  obtain rfl : record = found := Option.mem_unique hrecord hfound
  obtain ⟨on, htrunk, hon⟩ : ∃ on, record.trunk = some (on, record.retentionRootSessionId) ∧
      on.elim (sessionId = record.retentionRootSessionId) (store.Rooted record.retentionRootSessionId) := by
    cases hrooted with
    | own h => exact ⟨none, (trunk_of_stored hrecord).symm.trans h, rfl⟩
    | child h above => exact ⟨_, (trunk_of_stored hrecord).symm.trans h, above⟩
  unfold SessionRecord.trunk at htrunk
  split at htrunk
  next horigin hseq =>
    obtain ⟨rfl, -⟩ := Prod.mk.inj (Option.some.inj htrunk)
    exact ⟨hroot, fun _ _ => hon.symm, fun _ h => (nomatch horigin.symm.trans h),
      fun _ h => (nomatch hseq.symm.trans h)⟩
  next origin horigin hseq =>
    obtain ⟨rfl, -⟩ := Prod.mk.inj (Option.some.inj htrunk)
    obtain ⟨above, habove, hnames⟩ := hon.exists_record
    refine ⟨hroot, fun h => (nomatch horigin.symm.trans h), fun other h => ?_,
      fun _ h => (nomatch hseq.symm.trans h)⟩
    obtain rfl := Option.mem_unique h horigin
    exact ⟨above, habove, hnames.symm⟩
  next seq source horigin hseq hsource =>
    obtain ⟨rfl, -⟩ := Prod.mk.inj (Option.some.inj htrunk)
    obtain ⟨above, habove, hnames⟩ := hon.exists_record
    refine ⟨hroot, fun _ h => (nomatch hseq.symm.trans h), fun _ h => (nomatch horigin.symm.trans h), fun other h => ?_⟩
    obtain rfl := Option.mem_unique h hseq
    obtain ⟨lineage, log, hreadable⟩ := sound sessionId hkey
    refine ⟨_, above, hsource, habove, hreadable.source_head hrecord ?_ habove, hnames.symm⟩
    unfold SessionRecord.branch
    rw [hsource, hseq]
  next => cases htrunk

/-- In a run that discards no session that another one hangs on, each session's branch leads over sessions
that are there, of which it forks within what they have, to the root that its record names; and a page of
any session is never missing one. -/
theorem branches_kept {steps : List (Store × StoreCall)} (run : (sessionStore walks).Run steps store)
    (hkeeps : ∀ step ∈ steps, step.1.orphans step.2 = false)
    (hrecord : store.records.get? sessionId = some record) :
    store.Branches sessionId record ∧ ∀ after limit missing,
      store.readAfter ⟨sessionId, after, limit⟩ ≠ .error (.sessionNotFound missing) := by
  have hinv : store.Sound ∧ store.Forest := by
    apply run.invariant (M := fun store call => store.orphans call = false) _ _ hkeeps
    · rintro _ rfl
      exact ⟨nofun, nofun⟩
    · rintro store call store' - ⟨sound, forest⟩ hcall hstep
      have hok := step_eq_some.mp hstep
      exact ⟨sound.call (severs_of_orphans hcall) hok, forest.call sound hcall hok⟩
  refine ⟨branches_of_sound hinv.1 hinv.2 hrecord, fun after limit missing h => ?_⟩
  obtain ⟨lineage, log, hreadable⟩ := hinv.1 sessionId (OrdMap.mem_keys.mpr ⟨record, hrecord⟩)
  unfold readAfter at h
  rw [hreadable.effectiveEntries, ok_bind] at h
  unfold require at h
  split_ifs at h <;> cases h

theorem branches_kept_forked : ∃ store record, (sessionStore fun _ => true).Reaches store ∧
    record.sourceSeq = some 1 ∧ store.Branches "fork" record ∧ ∀ after limit missing,
      store.readAfter ⟨"fork", after, limit⟩ ≠ .error (.sessionNotFound missing) := by
  obtain ⟨⟨steps, store⟩, htrace, hkeeps, hfork⟩ : ∃ r ∈ (sessionStore fun _ => true).trace {} forkedCalls,
      (∀ step ∈ r.1, step.1.orphans step.2 = false) ∧
        (r.2.records.get? "fork").any (fun record => record.sourceSeq = some 1) := by decide +kernel
  obtain ⟨record, hrecord, hseq⟩ := (Option.any_eq_true ..).mp hfork
  have hrun := (Machine.Run.init rfl).trace htrace
  exact ⟨store, record, ⟨_, hrun⟩, of_decide_eq_true hseq, branches_kept hrun hkeeps hrecord⟩

/-- A session that never opened is discarded, and the fork of it is left without its source. -/
theorem orphaned_fork : ∃ store record, (sessionStore fun _ => true).Reaches store ∧
    store.records.get? "fork" = some record ∧ ¬ store.Branches "fork" record := by
  obtain ⟨⟨steps, store⟩, htrace, hsource, hfork⟩ : ∃ r ∈ (sessionStore fun _ => true).trace {} severedCalls,
      r.2.records.get? "source" = none ∧ (r.2.records.get? "fork").any (fun record =>
        record.sourceSeq = some 0 ∧ record.sourceSessionId = some "source") := by decide +kernel
  obtain ⟨record, hrecord, hbranch⟩ := (Option.any_eq_true ..).mp hfork
  obtain ⟨hseq, hid⟩ := of_decide_eq_true hbranch
  have hrun := (Machine.Run.init rfl).trace htrace
  refine ⟨store, record, ⟨_, hrun⟩, hrecord, fun hbranches => ?_⟩
  obtain ⟨sourceId, source, hnamed, hfound, -⟩ := hbranches.forked 0 hseq
  obtain rfl := Option.mem_unique hnamed hid
  rw [hsource] at hfound
  cases hfound

end Store

end Lightspeed.Storage
