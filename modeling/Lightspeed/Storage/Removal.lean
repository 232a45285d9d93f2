import Lightspeed.Storage.Kept

/-!
# Sessions that go

A deletion takes a session and its descendants. `descend` walks the children of each session that it has
found, and it is done when the children of every one of them are found: what it found is closed under
children, whatever the sessions are to each other. A store without a closed set of sessions is as sound as
it was.
-/

namespace Lightspeed.Storage

open Lib Harness

variable {store store' : Store} {sessionId root parent : SessionId}
  {pending descendants gone : List SessionId} {record : SessionRecord}
  {walks : CoreAgentEvent → Bool}

/-! ## Descendants -/

/-- What `discover` adds is what it had not found before, on the stack and among the descendants. -/
theorem discover_spec (pending descendants children : List SessionId) (hnodup : descendants.Nodup) :
    ∃ found, (discover pending descendants children).2 = descendants ++ found ∧
      (∀ id, id ∈ (discover pending descendants children).1 ↔ id ∈ found ∨ id ∈ pending) ∧
      (discover pending descendants children).1.length = pending.length + found.length ∧
      (descendants ++ found).Nodup ∧ (∀ child ∈ children, child ∈ descendants ++ found) ∧
      ∀ id ∈ found, id ∈ children := by
  induction children generalizing pending descendants with
  | nil =>
    have happend : descendants ++ [] = descendants := List.append_nil _
    refine ⟨[], happend.symm, fun id => ?_, rfl, happend.symm ▸ hnodup, ?_, ?_⟩
    · rw [or_iff_right List.not_mem_nil]
      rfl
    · exact fun child hchild => absurd hchild List.not_mem_nil
    · exact fun id hid => absurd hid List.not_mem_nil
  | cons child rest ih =>
    unfold discover
    split_ifs with hknown
    · obtain ⟨found, hall, hpending, hlength, hapart, hchildren, hfrom⟩ := ih pending descendants hnodup
      refine ⟨found, hall, hpending, hlength, hapart, ?_, fun id hid => List.mem_cons_of_mem _ (hfrom id hid)⟩
      intro other hother
      rcases List.mem_cons.mp hother with rfl | hother
      · exact List.mem_append_left _ hknown
      · exact hchildren other hother
    · have hmore : (descendants ++ [child]).Nodup := by
        rw [← List.concat_eq_append]
        exact hnodup.concat hknown
      obtain ⟨found, hall, hpending, hlength, hapart, hchildren, hfrom⟩ :=
        ih (child :: pending) (descendants ++ [child]) hmore
      have hsplit : descendants ++ [child] ++ found = descendants ++ child :: found := by
        rw [List.append_assoc, List.singleton_append]
      rw [hsplit] at hall hapart hchildren
      refine ⟨child :: found, hall, fun id => ?_, ?_, hapart, ?_, ?_⟩
      · rw [hpending, List.mem_cons, List.mem_cons]
        tauto
      · rw [hlength, List.length_cons, List.length_cons]
        omega
      · intro other hother
        rcases List.mem_cons.mp hother with rfl | hother
        · exact List.mem_append_right _ List.mem_cons_self
        · exact hchildren other hother
      · intro id hid
        rcases List.mem_cons.mp hid with rfl | hid
        · exact List.mem_cons_self
        · exact List.mem_cons_of_mem _ (hfrom id hid)

namespace Store

theorem mem_children {child : SessionId} :
    child ∈ store.children parent ↔
      ∃ record, store.records.get? child = some record ∧ record.childOf parent = true := by
  unfold children
  simp only [List.mem_map, List.mem_filter, OrdMap.get?_eq_some_iff]
  grind

/-- The walk under way: what was found is in the store, and of each session that was found, either the
children are found too or the session is on the stack. -/
structure Descends (store : Store) (root : SessionId) (pending descendants : List SessionId) : Prop where
  nodup : descendants.Nodup
  known : ∀ id ∈ descendants, id ∈ store.records.keys
  settled : ∀ parent ∈ root :: descendants,
    parent ∈ pending ∨ ∀ child ∈ store.children parent, child ∈ descendants

/-- No more sessions are found than the store has. -/
theorem Descends.length_le (h : store.Descends root pending descendants) :
    descendants.length ≤ store.records.entries.length := by
  have hle := (List.subperm_of_subset h.nodup h.known).length_le
  rwa [OrdMap.keys, List.length_map] at hle

/-- A turn takes one session off the stack, and puts on it what it finds. -/
theorem Descends.turn (h : store.Descends root (parent :: pending) descendants) :
    store.Descends root (discover pending descendants (store.children parent)).1
        (discover pending descendants (store.children parent)).2 ∧
      (discover pending descendants (store.children parent)).1.length + descendants.length =
        pending.length + (discover pending descendants (store.children parent)).2.length := by
  obtain ⟨found, hall, hpending, hlength, hapart, hchildren, hfrom⟩ :=
    discover_spec pending descendants (store.children parent) h.nodup
  rw [hall]
  refine ⟨⟨hapart, ?_, ?_⟩, ?_⟩
  · intro id hid
    rcases List.mem_append.mp hid with hid | hid
    · exact h.known id hid
    · obtain ⟨record, hrecord, -⟩ := mem_children.mp (hfrom id hid)
      exact OrdMap.mem_keys.mpr ⟨record, hrecord⟩
  · intro other hother
    rw [hpending]
    rw [← List.cons_append, List.mem_append] at hother
    rcases hother with hother | hother
    · rcases h.settled other hother with hstack | hdone
      · rcases List.mem_cons.mp hstack with rfl | hstack
        · exact .inr hchildren
        · exact .inl (.inr hstack)
      · exact .inr fun child hchild => List.mem_append_left _ (hdone child hchild)
    · exact .inl (.inl hother)
  · rw [hlength, List.length_append]
    omega

/-- With as many turns as there are sessions to come, the walk finds the children of all that it finds. -/
theorem Descends.descend {steps : Nat} (h : store.Descends root pending descendants)
    (hsteps : pending.length + store.records.entries.length < steps + descendants.length) :
    ∀ parent ∈ root :: store.descend steps pending descendants,
      ∀ child ∈ store.children parent, child ∈ store.descend steps pending descendants := by
  induction steps generalizing pending descendants with
  | zero =>
    have hle := h.length_le
    omega
  | succ steps ih =>
    cases pending with
    | nil =>
      intro parent hparent
      rcases h.settled parent hparent with hstack | hdone
      · cases hstack
      · exact hdone
    | cons parent pending =>
      obtain ⟨hturn, hlength⟩ := h.turn
      have hrest : (discover pending descendants (store.children parent)).1.length +
          store.records.entries.length <
            steps + (discover pending descendants (store.children parent)).2.length := by
        rw [List.length_cons] at hsteps
        omega
      exact ih hturn hrest

/-- A session and its descendants hold the children of each of them. -/
theorem retentionDescendants_closed (root : SessionId) :
    ∀ parent ∈ store.retentionDescendants root ++ [root], ∀ child ∈ store.children parent,
      child ∈ store.retentionDescendants root := by
  have hstart : store.Descends root [root] [] := by
    refine ⟨List.nodup_nil, fun id hid => absurd hid List.not_mem_nil, fun parent hparent => .inl hparent⟩
  have hsteps : [root].length + store.records.entries.length <
      store.records.entries.length + 2 + ([] : List SessionId).length := by
    rw [List.length_singleton, List.length_nil]
    omega
  have hwalk := hstart.descend hsteps
  intro parent hparent child hchild
  unfold retentionDescendants at hparent ⊢
  rw [List.mem_append, List.mem_reverse, List.mem_singleton] at hparent
  rw [List.mem_reverse]
  apply hwalk parent _ child hchild
  rw [List.mem_cons]
  exact hparent.symm

/-! ## Stores without some sessions -/

/-- The record of a session that stays: a source that goes is forgotten. -/
theorem get?_removeSessions (hstays : sessionId ∉ gone) (hrecord : store.records.get? sessionId = some record) :
    (store.removeSessions gone).records.get? sessionId =
      some (if record.sourceSessionId.any (· ∈ gone) then
        { record with toSessionRecord := { record.toSessionRecord with sourceSessionId := none } }
        else record) := by
  have hkept : (store.records.filter fun id _ => id ∉ gone).get? sessionId = some record := by
    rw [OrdMap.get?_filter, hrecord]
    exact Option.filter_some_pos (decide_eq_true hstays)
  unfold removeSessions
  rw [OrdMap.get?_mapValues, hkept]
  rfl

/-- A session that stays keeps its record and its entries, as far as its log is concerned. -/
theorem grows_removeSessions (hclosed : store.Closed gone) (hstays : sessionId ∉ gone) :
    store.Grows (store.removeSessions gone) (fun _ => []) sessionId := by
  have hentries : (store.removeSessions gone).entries.get? sessionId = store.entries.get? sessionId := by
    unfold removeSessions
    rw [OrdMap.get?_filter]
    cases store.entries.get? sessionId with
    | none => rfl
    | some own => exact Option.filter_some_pos (decide_eq_true hstays)
  apply grows_of_same hentries
  intro record hrecord
  refine ⟨_, get?_removeSessions hstays hrecord, ?_⟩
  split_ifs with hsource
  · refine ⟨rfl, ?_, rfl⟩
    -- The session was cloned from one that goes: were it forked, it would go too.
    obtain ⟨source, hsome, hgone⟩ := (Option.any_eq_true ..).mp hsource
    have hclone : record.sourceSeq = none := by
      cases hseq : record.sourceSeq with
      | none => rfl
      | some branchSeq =>
        have hfork : record.forksFrom source := by
          unfold SessionRecord.forksFrom
          rw [hseq, hsome]
          simp
        exact absurd (hclosed sessionId record hrecord source (of_decide_eq_true hgone) hfork) hstays
    unfold SessionRecord.branch
    rw [hsome, hclone]
  · exact ⟨rfl, rfl, rfl⟩

theorem Sound.removeSessions (sound : store.Sound) (hclosed : store.Closed gone) :
    (store.removeSessions gone).Sound := by
  intro id hid
  have hkeys : id ∈ (store.records.filter fun id _ => id ∉ gone).keys := by
    unfold Store.removeSessions at hid
    rwa [OrdMap.keys_mapValues] at hid
  obtain ⟨record, hrecord⟩ := OrdMap.mem_keys.mp hkeys
  rw [OrdMap.get?_filter, Option.filter_eq_some_iff] at hrecord
  obtain ⟨lineage, log, -, hreadable⟩ :=
    sound.readable hclosed (fun _ hstays => grows_removeSessions hclosed hstays)
      (OrdMap.mem_keys.mpr ⟨record, hrecord.1⟩) (of_decide_eq_true hrecord.2)
  exact ⟨lineage, _, hreadable⟩

/-- What a deletion takes: with each session, all its children. -/
theorem Sound.deleted {request : DeleteClosedSessions} {result : DeleteClosedSessionsResult}
    (sound : store.Sound) (h : store.deleteClosedSessions request = .ok (store', result)) :
    ∃ gone, (∀ parent ∈ gone, ∀ child ∈ store.children parent, child ∈ gone) ∧
      store' = store.removeSessions gone := by
  unfold Store.deleteClosedSessions at h
  obtain ⟨record, hrecord, h⟩ := bind_eq_ok.mp h
  obtain ⟨-, -, h⟩ := bind_eq_ok.mp h
  have hresult : (request.cascade ∨ store.retentionDescendants request.sessionId = []) ∧
      store' = store.removeSessions
        ((if request.cascade then store.retentionDescendants request.sessionId else []) ++
          [record.sessionId]) := by
    dsimp only at h
    split at h
    all_goals
      obtain ⟨-, -, h⟩ := bind_eq_ok.mp h
      obtain ⟨_, hcascade, h⟩ := bind_eq_ok.mp h
      obtain ⟨-, -, h⟩ := bind_eq_ok.mp h
      exact ⟨require_eq_ok.mp hcascade, (Prod.mk.inj (Except.ok.inj h)).1.symm⟩
  obtain ⟨hcascade, rfl⟩ := hresult
  have hstored := record_eq_ok.mp hrecord
  have hkeyed : record.sessionId = request.sessionId := by
    obtain ⟨lineage, log, hreadable⟩ := sound _ (OrdMap.mem_keys.mpr ⟨record, hstored⟩)
    obtain ⟨found, hfound, hid, -⟩ := hreadable.exists_record
    exact Option.mem_unique hfound hstored ▸ hid
  have hall : (if request.cascade then store.retentionDescendants request.sessionId else []) =
      store.retentionDescendants request.sessionId := by
    split_ifs with hyes
    · rfl
    · exact (hcascade.resolve_left hyes).symm
  rw [hall, hkeyed]
  refine ⟨_, fun parent hparent child hchild => ?_, rfl⟩
  exact List.mem_append_left _ (retentionDescendants_closed request.sessionId parent hparent child hchild)

theorem Sound.deleteClosedSessions {request : DeleteClosedSessions} {result : DeleteClosedSessionsResult}
    (sound : store.Sound) (h : store.deleteClosedSessions request = .ok (store', result)) :
    store'.Sound := by
  obtain ⟨gone, hgone, rfl⟩ := sound.deleted h
  apply sound.removeSessions
  intro id fork hfork source hsource hforks
  exact hgone source hsource id (mem_children.mpr ⟨fork, hfork, by simp [SessionRecord.childOf, hforks]⟩)

/-! ## Sessions that never opened -/

/-- Whether a call discards a session that never opened, and that a fork reads its log out of. -/
def severs (store : Store) : StoreCall → Bool
  | .discardUnopenedSession sessionId =>
    (store.records.get? sessionId).any
        (fun record => record.lifecycleStatus = .new ∧ record.head = none) &&
      store.records.values.any fun record => record.forksFrom sessionId
  | _ => false

theorem Sound.discardUnopenedSession (sound : store.Sound)
    (hkeeps : store.severs (.discardUnopenedSession sessionId) = false) :
    (store.discardUnopenedSession sessionId).1.Sound := by
  unfold Store.discardUnopenedSession
  dsimp only [severs] at hkeeps
  dsimp only
  split_ifs with hunopened
  · rw [hunopened, Bool.true_and] at hkeeps
    have hclosed : store.Closed [sessionId] := by
      intro id record hrecord source hsource hforks
      obtain rfl := List.mem_singleton.mp hsource
      have hany := List.any_eq_false.mp hkeeps record (OrdMap.mem_values.mpr ⟨id, hrecord⟩)
      exact absurd hforks hany
    have hgrows : ∀ id, id ∉ [sessionId] → store.Grows
        { store with
          records := store.records.erase sessionId
          entries := store.entries.erase sessionId } (fun _ => []) id := by
      intro id hid
      have hne : id ≠ sessionId := fun heq => hid (List.mem_singleton.mpr heq)
      apply grows_of_same
      · rw [OrdMap.get?_erase, if_neg hne]
      · intro record hrecord
        refine ⟨record, ?_, rfl, rfl, rfl⟩
        rw [OrdMap.get?_erase, if_neg hne, hrecord]
    intro id hid
    obtain ⟨record, hrecord⟩ := OrdMap.mem_keys.mp hid
    rw [OrdMap.get?_erase] at hrecord
    split_ifs at hrecord with heq
    obtain ⟨lineage, log, -, hreadable⟩ :=
      sound.readable hclosed hgrows (OrdMap.mem_keys.mpr ⟨record, hrecord⟩)
        fun hmem => heq (List.mem_singleton.mp hmem)
    exact ⟨lineage, _, hreadable⟩
  · exact sound

/-! ## Calls and runs -/

theorem Sound.advanceCheckpoint {checkpoint : SessionCheckpoint} {advanced : Bool} (sound : store.Sound)
    (h : store.advanceCheckpoint checkpoint = .ok (store', advanced)) : store'.Sound := by
  unfold Store.advanceCheckpoint at h
  obtain ⟨-, -, h⟩ := bind_eq_ok.mp h
  split_ifs at h
  · exact (Prod.mk.inj (Except.ok.inj h)).1 ▸ sound
  · obtain ⟨rfl, -⟩ := Prod.mk.inj (Except.ok.inj h)
    refine sound.of_same ?_ (fun _ hid => hid) fun _ record hrecord => ⟨record, hrecord, rfl, rfl, rfl⟩
    rfl

theorem map_fst_eq_ok {α ε β : Type} {x : Except ε (α × β)} {a : α} (h : x.map Prod.fst = .ok a) :
    ∃ b, x = .ok (a, b) := by
  cases x with
  | error => cases h
  | ok pair => exact ⟨pair.2, congrArg Except.ok (Prod.ext (Except.ok.inj h) rfl)⟩

/-- A call that does not sever a fork from its source leaves a sound store sound. -/
theorem Sound.call {call : StoreCall} (sound : store.Sound) (hkeeps : store.severs call = false)
    (h : store.call walks call = .ok store') : store'.Sound := by
  unfold Store.call at h
  cases call with
  | createSession request =>
    obtain ⟨_, h⟩ := map_fst_eq_ok h
    exact sound.createSession h
  | createClonedSession request =>
    obtain ⟨_, h⟩ := map_fst_eq_ok h
    exact sound.createClonedSession h
  | createForkedSession request =>
    obtain ⟨_, h⟩ := map_fst_eq_ok h
    exact sound.createForkedSession h
  | append request =>
    obtain ⟨_, h⟩ := map_fst_eq_ok h
    exact sound.append h
  | setSessionDisplayName | setSessionMetadata =>
    obtain ⟨_, h⟩ := map_fst_eq_ok h
    apply sound.modifyRecord _ h
    exact fun _ => ⟨rfl, rfl, rfl⟩
  | setSessionRetention id duration =>
    obtain ⟨_, h⟩ := map_fst_eq_ok h
    exact sound.setSessionRetention h
  | discardUnopenedSession id =>
    obtain rfl := Except.ok.inj h
    exact sound.discardUnopenedSession hkeeps
  | deleteClosedSessions request =>
    obtain ⟨_, h⟩ := map_fst_eq_ok h
    exact sound.deleteClosedSessions h
  | advanceCheckpoint checkpoint =>
    obtain ⟨_, h⟩ := map_fst_eq_ok h
    exact sound.advanceCheckpoint h

theorem step_eq_some {call : StoreCall} :
    (sessionStore walks).step store call = some store' ↔ store.call walks call = .ok store' := by
  show (store.call walks call).toOption = some store' ↔ _
  cases store.call walks call with
  | error e => exact ⟨nofun, nofun⟩
  | ok result => exact ⟨fun h => congrArg _ (Option.some.inj h), fun h => congrArg _ (Except.ok.inj h)⟩

/-- Every session can be read in every state of a run that severs no fork from its source. -/
theorem run_sound {steps : List (Store × StoreCall)} (run : (sessionStore walks).Run steps store)
    (hkeeps : ∀ step ∈ steps, step.1.severs step.2 = false) : store.Sound := by
  apply run.invariant (M := fun store call => store.severs call = false) _ _ hkeeps
  · rintro _ rfl id hid
    cases hid
  · intro store call store' _ sound hcall hstep
    exact sound.call hcall (step_eq_some.mp hstep)

end Store

end Lightspeed.Storage
