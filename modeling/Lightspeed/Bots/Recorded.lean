import Lightspeed.Bots.Admission

/-!
# What was admitted is recorded

Where no row is deleted under another admission that found it, every admission that succeeded, and
every event that a controller was woken with, has its row.
-/

namespace Lightspeed.Bots

open Lib

variable {store store' : BotEventStore} {call next : AdmissionCall} {answer : AdmissionAnswer}
  {woken : List BotEvent} {s t : Admissions} {input : Admissions.Input}

def HasRow (store : BotEventStore) (botId : BotId) (eventId : String) : Prop :=
  (store.events.get? (toLex (botId, eventId))).isSome = true

/-- Whether a call counts on its row: it is about to wake the controller with it, or it succeeded. -/
def AdmissionPc.relies : AdmissionPc → Bool
  | .waking _ | .done (.ok _) => true
  | _ => false

/-- Whether a call is about to delete the row that it inserted. -/
def AdmissionPc.isDiscarding : AdmissionPc → Bool
  | .discarding .. => true
  | _ => false

def AdmissionPc.isSuccess : AdmissionPc → Bool
  | .done (.ok _) => true
  | _ => false

namespace AdmissionCall

def Relies (call : AdmissionCall) : Prop := call.pc.relies = true

instance (call : AdmissionCall) : Decidable call.Relies := inferInstanceAs (Decidable (_ = true))

/-- The row that a call holds is its own event's. -/
def Sound (call : AdmissionCall) : Prop :=
  match call.pc with
  | .inserting record => record.botId = call.botId ∧ record.eventId = call.input.eventId
  | .waking stored | .discarding stored _ | .done (.ok stored) =>
    stored.record.eventId = call.input.eventId ∧ stored.event.id = call.input.eventId
  | _ => True

/-- What going on with an answer does. -/
structure Resumed (store : BotEventStore) (call : AdmissionCall) (answer : AdmissionAnswer)
    (store' : BotEventStore) (next : AdmissionCall) (woken : List BotEvent) : Prop where
  botId : next.botId = call.botId
  input : next.input = call.input
  sound : next.Sound
  consistent : store'.Consistent
  /-- A call comes to count on a row that is in the store. -/
  relies : next.Relies → call.Relies ∨ HasRow store' call.botId call.input.eventId
  /-- A call that succeeded does not go on. -/
  unfinished : ∀ stored, call.pc ≠ .done (.ok stored)
  /-- The controller is woken by a call that succeeds. -/
  woken : ∀ event ∈ woken, event.id = call.input.eventId ∧ ∃ stored, next.pc = .done (.ok stored)
  /-- Rows stay, unless the call discards its own. -/
  rows : (∀ key, (store.events.get? key).isSome = true → (store'.events.get? key).isSome = true) ∨
    (∃ stored message, call.pc = .discarding stored message ∧ answer = .done) ∧ ¬ next.Relies ∧
      ∀ key, key ≠ toLex (call.botId, call.input.eventId) →
        store'.events.get? key = store.events.get? key

theorem Resumed.of_same (hsound : next.Sound) (hconsistent : store'.Consistent)
    (hbotId : next.botId = call.botId) (hinput : next.input = call.input)
    (hrelies : ¬ next.Relies) (hpc : ∀ stored, call.pc ≠ .done (.ok stored))
    (hevents : store'.events = store.events) : Resumed store call answer store' next [] where
  botId := hbotId
  input := hinput
  sound := hsound
  consistent := hconsistent
  relies h := absurd h hrelies
  unfinished := hpc
  woken _ h := nomatch h
  rows := .inl fun key h => by rwa [hevents]

/-- A call that goes on as it is, with the store as it was. -/
theorem Resumed.of_eq {again : AdmissionCall} (h : some (store, again, []) = some (store', next, woken))
    (hstore : store.Consistent) (hsound : again.Sound) (hbotId : again.botId = call.botId)
    (hinput : again.input = call.input)
    (hrelies : ¬ again.Relies) (hpc : ∀ stored, call.pc ≠ .done (.ok stored)) :
    Resumed store call answer store' next woken := by
  obtain ⟨rfl, rfl, rfl⟩ := by simpa only [Option.some.injEq, Prod.mk.injEq] using h
  exact .of_same hsound hstore hbotId hinput hrelies hpc rfl

theorem finish_error_sound (error : BotError) : (call.finish (.error error)).Sound := trivial

theorem finish_error_relies (error : BotError) : ¬ (call.finish (.error error)).Relies := fun h => (nomatch h)

theorem inserted_resumed {record : BotEventRecord} {outcome : InsertBotEventOutcome}
    (hstore : store.Consistent) (hpc : call.pc = .inserting record)
    (hsound : call.Sound) (h : store.insertBotEvent record = .ok (store', outcome)) :
    Resumed store call answer store' (call.inserted outcome) [] := by
  have hrecord : record.botId = call.botId ∧ record.eventId = call.input.eventId := by
    unfold Sound at hsound
    rwa [hpc] at hsound
  obtain ⟨hrow, hrows⟩ := BotEventStore.get?_insertBotEvent h
  have hconsistent : store'.Consistent := BotEventStore.consistent_insert hstore h
  rw [hrecord.1, hrecord.2] at hrow
  -- The row that comes back is the one of the event, whether it was there or not.
  have hid : ∀ stored, (outcome = .inserted stored ∨ outcome = .duplicate stored) →
      stored.eventId = call.input.eventId := by
    intro stored houtcome
    rcases BotEventStore.insertBotEvent_eq_ok h with
      ⟨found, hfound, -, rfl⟩ | ⟨-, -, -, -, rfl⟩
    · have hkey := hstore.keyed _ found hfound
      have hfoundId : record.eventId = found.eventId :=
        congrArg (fun key => (ofLex key).2) hkey
      rcases houtcome with houtcome | houtcome
      · cases houtcome
      · obtain rfl := InsertBotEventOutcome.duplicate.inj houtcome
        rw [← hfoundId, hrecord.2]
    · rcases houtcome with houtcome | houtcome
      · obtain rfl := InsertBotEventOutcome.inserted.inj houtcome
        exact hrecord.2
      · cases houtcome
  have hnext : (call.inserted outcome).Sound ∧ (call.inserted outcome).botId = call.botId ∧
      (call.inserted outcome).input = call.input := by
    unfold inserted
    cases outcome with
    | inserted stored =>
      have hstored := hid stored (.inl rfl)
      dsimp only
      split_ifs
      · exact ⟨⟨hstored, hstored⟩, rfl, rfl⟩
      · exact ⟨⟨hstored, hstored⟩, rfl, rfl⟩
    | duplicate stored =>
      have hstored := hid stored (.inr rfl)
      dsimp only
      split_ifs
      · exact ⟨⟨hstored, hstored⟩, rfl, rfl⟩
      · exact ⟨⟨hstored, hstored⟩, rfl, rfl⟩
  exact ⟨hnext.2.1, hnext.2.2, hnext.1, hconsistent, fun _ => .inr hrow, by simp [hpc],
    fun _ h => (nomatch h), .inl hrows⟩

/-- What a call does with an answer. -/
theorem resume_resumed (hstore : store.Consistent) (hsound : call.Sound)
    (h : call.resume store answer = some (store', next, woken)) :
    Resumed store call answer store' next woken := by
  unfold resume at h
  split at h
  next hpc =>
    have hne : ∀ stored, call.pc ≠ .done (.ok stored) := by simp [hpc]
    cases halloc : store.allocateBotEventSeq call.botId with
    | error error =>
      rw [halloc] at h
      obtain ⟨rfl, rfl, rfl⟩ : store = store' ∧ call.finish (.error error) = next ∧ [] = woken := by
        simpa using h
      exact .of_same (finish_error_sound _) hstore rfl rfl (finish_error_relies _) hne rfl
    | ok allocated =>
      obtain ⟨store₁, seq⟩ := allocated
      have hevents := BotEventStore.allocateBotEventSeq_events halloc
      have hconsistent := BotEventStore.consistent_allocate hstore halloc
      rw [halloc] at h
      cases hdocument : call.input.documentRef with
      | none | some documentRef =>
        simp only [hdocument, Option.some.injEq, Prod.mk.injEq] at h
        obtain ⟨rfl, rfl, rfl⟩ := h
        exact .of_same trivial hconsistent rfl rfl (fun h => (nomatch h)) hne hevents
  next hpc =>
    exact .of_eq h hstore trivial rfl rfl (fun h => (nomatch h)) (by simp [hpc])
  next hpc =>
    exact .of_eq h hstore trivial rfl rfl (fun h => (nomatch h)) (by simp [hpc])
  next hpc =>
    exact .of_eq h hstore trivial rfl rfl (fun h => (nomatch h)) (by simp [hpc])
  next hpc =>
    exact .of_eq h hstore ⟨rfl, rfl⟩ rfl rfl (fun h => (nomatch h)) (by simp [hpc])
  next hpc =>
    exact .of_eq h hstore trivial rfl rfl (fun h => (nomatch h)) (by simp [hpc])
  next record hpc =>
    cases hinsert : store.insertBotEvent record with
    | error error =>
      rw [hinsert] at h
      exact .of_eq h hstore trivial rfl rfl (fun h => (nomatch h)) (by simp [hpc])
    | ok written =>
      obtain ⟨store₁, outcome⟩ := written
      simp only [hinsert, Option.some.injEq, Prod.mk.injEq] at h
      obtain ⟨rfl, rfl, rfl⟩ := h
      exact inserted_resumed hstore hpc hsound hinsert
  next hpc =>
    exact .of_eq h hstore trivial rfl rfl (fun h => (nomatch h)) (by simp [hpc])
  next stored hpc =>
    obtain ⟨rfl, rfl, rfl⟩ := by simpa only [Option.some.injEq, Prod.mk.injEq] using h
    unfold Sound at hsound
    rw [hpc] at hsound
    have hrelies : call.Relies := by
      unfold Relies
      rw [hpc]
      rfl
    refine ⟨rfl, rfl, hsound, hstore, fun _ => .inl hrelies, by simp [hpc], ?_, .inl fun _ h => h⟩
    intro event hevent
    rw [List.mem_singleton.mp hevent]
    exact ⟨hsound.2, stored, rfl⟩
  next stored message hpc =>
    obtain ⟨rfl, rfl, rfl⟩ := by simpa only [Option.some.injEq, Prod.mk.injEq] using h
    unfold Sound at hsound
    rw [hpc] at hsound
    unfold wakeFailed
    split_ifs
    · exact .of_same trivial hstore rfl rfl (fun h => (nomatch h)) (by simp [hpc]) rfl
    · exact .of_same hsound hstore rfl rfl (fun h => (nomatch h)) (by simp [hpc]) rfl
  next stored message hpc =>
    obtain ⟨rfl, rfl, rfl⟩ := by simpa only [Option.some.injEq, Prod.mk.injEq] using h
    unfold Sound at hsound
    rw [hpc] at hsound
    refine ⟨rfl, rfl, trivial, BotEventStore.consistent_deleteBotEvent hstore,
      fun h => absurd h (finish_error_relies _), by simp [hpc], fun _ h => (nomatch h),
      .inr ⟨⟨stored, message, hpc, rfl⟩, finish_error_relies _, fun key hkey => ?_⟩⟩
    rw [BotEventStore.get?_deleteBotEvent, hsound.1, if_neg hkey]
  next hpc =>
    exact .of_eq h hstore trivial rfl rfl (fun h => (nomatch h)) (by simp [hpc])
  · cases h

end AdmissionCall

/-! ## Runs -/

namespace Admissions

/-- What holds of calls side by side when no row is deleted under a call that counts on it. -/
structure Inv (s : Admissions) : Prop where
  consistent : s.store.Consistent
  sound : ∀ call ∈ s.calls, call.Sound
  relied : ∀ call ∈ s.calls, call.botId ∉ s.deleted → call.Relies →
    HasRow s.store call.botId call.input.eventId
  received : ∀ pair ∈ s.received, ∃ call ∈ s.calls, call.botId = pair.1 ∧
    call.input.eventId = pair.2.id ∧ ∃ stored, call.pc = .done (.ok stored)

/-- The call that an input lets delete the row that it inserted. -/
def discards (s : Admissions) : Input → Option AdmissionCall
  | .resume index .done => s.calls[index]?.filter fun call => call.pc.isDiscarding
  | _ => none

/-- When a call deletes the row that it inserted, no other admission of the event counts on it. -/
def DiscardsAlone (s : Admissions) (input : Input) : Prop :=
  ∀ call ∈ s.discards input, ∀ other ∈ s.calls, other.botId = call.botId →
    other.input.eventId = call.input.eventId → ¬ other.Relies

instance (s : Admissions) (input : Input) : Decidable (s.DiscardsAlone input) :=
  inferInstanceAs (Decidable (∀ call ∈ s.discards input, _))

theorem inv_createBot {botId : BotId} (hs : s.Inv) (h : s.step (.createBot botId) = some t) :
    t.Inv := by
  obtain ⟨store, hstore, rfl⟩ := Option.map_eq_some_iff.mp h
  have hcreate : s.store.createBot botId = .ok store := eq_ok_of_toOption hstore
  have hevents := BotEventStore.createBot_events hcreate
  refine ⟨BotEventStore.consistent_createBot hs.consistent hcreate, hs.sound, ?_, hs.received⟩
  intro call hcall hdeleted hrelies
  have hrow := hs.relied call hcall hdeleted hrelies
  unfold HasRow at hrow ⊢
  rwa [hevents]

theorem inv_deleteBot {botId : BotId} (hs : s.Inv) (h : s.step (.deleteBot botId) = some t) :
    t.Inv := by
  obtain ⟨store, hstore, rfl⟩ := Option.map_eq_some_iff.mp h
  have hdelete : s.store.deleteBot botId = .ok store := eq_ok_of_toOption hstore
  refine ⟨BotEventStore.consistent_deleteBot hs.consistent hdelete, hs.sound, ?_, hs.received⟩
  intro call hcall hdeleted hrelies
  obtain ⟨hne, hearlier⟩ := not_or.mp (List.mem_cons.not.mp hdeleted)
  have hrow := hs.relied call hcall hearlier hrelies
  unfold HasRow at hrow ⊢
  rwa [BotEventStore.get?_deleteBot hdelete (toLex (call.botId, call.input.eventId)) hne]

theorem inv_admit {botId : BotId} {closed : Bool} {admitted : StoreBotEventInput} (hs : s.Inv)
    (h : s.step (.beginAdmission botId closed admitted) = some t) : t.Inv := by
  obtain rfl := Option.some.inj h
  have hbegin : (AdmissionCall.begin botId closed admitted).Sound ∧
      ¬ (AdmissionCall.begin botId closed admitted).Relies := by
    unfold AdmissionCall.begin
    cases closed
    · exact ⟨trivial, fun h => (nomatch h)⟩
    · exact ⟨trivial, fun h => (nomatch h)⟩
  refine ⟨hs.consistent, fun call hcall => ?_, fun call hcall hdeleted hrelies => ?_,
    fun pair hpair => ?_⟩
  · rcases List.mem_append.mp hcall with hold | hnew
    · exact hs.sound call hold
    · rw [List.mem_singleton.mp hnew]
      exact hbegin.1
  · rcases List.mem_append.mp hcall with hold | hnew
    · exact hs.relied call hold hdeleted hrelies
    · rw [List.mem_singleton.mp hnew] at hrelies
      exact absurd hrelies hbegin.2
  · obtain ⟨call, hcall, hrest⟩ := hs.received pair hpair
    exact ⟨call, List.mem_append_left _ hcall, hrest⟩

/-- What a step of one call does to the calls that counted on their rows. -/
theorem inv_resume {index : Nat} (hs : s.Inv) (halone : s.DiscardsAlone (.resume index answer))
    (h : s.step (.resume index answer) = some t) : t.Inv := by
  obtain ⟨call, hindex, h⟩ := Option.bind_eq_some_iff.mp h
  obtain ⟨⟨store, next, woken⟩, hresume, h⟩ := Option.bind_eq_some_iff.mp h
  obtain rfl := Option.some.inj h
  have hcall : call ∈ s.calls := List.mem_of_getElem? hindex
  have hresumed := AdmissionCall.resume_resumed hs.consistent (hs.sound call hcall) hresume
  obtain ⟨hlt, hget⟩ := List.getElem?_eq_some_iff.mp hindex
  have hnext : next ∈ s.calls.set index next := List.mem_set hlt next
  -- A call that succeeded is not the one that went on.
  have hstays : ∀ other ∈ s.calls, (∃ stored, other.pc = .done (.ok stored)) →
      other ∈ s.calls.set index next := by
    intro other hother ⟨stored, hdone⟩
    obtain ⟨place, hlt', hat⟩ := List.mem_iff_getElem.mp hother
    have hne : index ≠ place := by
      rintro rfl
      rw [hget] at hat
      exact hresumed.unfinished stored (hat ▸ hdone)
    refine List.mem_iff_getElem.mpr ⟨place, by rwa [List.length_set], ?_⟩
    rw [List.getElem_set_ne hne]
    exact hat
  refine ⟨hresumed.consistent, fun other hother => ?_, fun other hother hdeleted hrelies => ?_,
    fun pair hpair => ?_⟩
  · rcases List.mem_or_eq_of_mem_set hother with hold | rfl
    · exact hs.sound other hold
    · exact hresumed.sound
  · have hearlier : other ∈ s.calls ∨ other = next := List.mem_or_eq_of_mem_set hother
    rcases hresumed.rows with hrows | ⟨⟨stored, message, hpc, rfl⟩, hnot, hrows⟩
    · rcases hearlier with hold | rfl
      · exact hrows _ (hs.relied other hold hdeleted hrelies)
      · rw [hresumed.botId, hresumed.input]
        rcases hresumed.relies hrelies with hbefore | hrow
        · rw [hresumed.botId] at hdeleted
          exact hrows _ (hs.relied call hcall hdeleted hbefore)
        · exact hrow
    · rcases hearlier with hold | rfl
      · have hrow := hs.relied other hold hdeleted hrelies
        unfold HasRow at hrow ⊢
        rw [hrows _ ?_]
        · exact hrow
        · intro hsame
          have hbot : other.botId = call.botId := congrArg (fun key => (ofLex key).1) hsame
          have hid : other.input.eventId = call.input.eventId :=
            congrArg (fun key => (ofLex key).2) hsame
          have hdiscards : call ∈ s.discards (.resume index .done) :=
            Option.filter_eq_some_iff.mpr ⟨hindex, by rw [hpc]; rfl⟩
          exact halone call hdiscards other hold hbot hid hrelies
      · exact absurd hrelies hnot
  · rcases List.mem_append.mp hpair with hold | hnew
    · obtain ⟨other, hother, hbot, hid, hdone⟩ := hs.received pair hold
      exact ⟨other, hstays other hother hdone, hbot, hid, hdone⟩
    · obtain ⟨event, hevent, rfl⟩ := List.mem_map.mp hnew
      obtain ⟨hid, hdone⟩ := hresumed.woken event hevent
      exact ⟨next, hnext, hresumed.botId, by rw [hresumed.input, hid], hdone⟩

theorem run_inv {steps : List (Admissions × Input)} (hrun : admissions.Run steps s)
    (halone : ∀ step ∈ steps, step.1.DiscardsAlone step.2) : s.Inv := by
  refine hrun.invariant (P := Inv) (M := DiscardsAlone) ?_ ?_ halone
  · rintro s rfl
    exact ⟨BotEventStore.consistent_empty, fun _ h => (nomatch h), fun _ h => (nomatch h),
      fun _ h => (nomatch h)⟩
  · intro s input t _ hs halone hstep
    cases input with
    | createBot botId => exact inv_createBot hs hstep
    | deleteBot botId => exact inv_deleteBot hs hstep
    | beginAdmission botId closed admitted => exact inv_admit hs hstep
    | resume index answer => exact inv_resume hs halone hstep

end Admissions

/-- In a run where rows are discarded alone: until its bot is deleted, an admission that succeeded has
its row, and so has every event that a controller was woken with; and a bot has one row of an id, and
one of a number. -/
theorem admitted_recorded {steps : List (Admissions × Admissions.Input)}
    (hrun : admissions.Run steps s) (halone : ∀ step ∈ steps, step.1.DiscardsAlone step.2) :
    (∀ call ∈ s.calls, call.botId ∉ s.deleted → ∀ stored, call.pc = .done (.ok stored) →
      HasRow s.store call.botId call.input.eventId) ∧
    (∀ botId event, (botId, event) ∈ s.received → botId ∉ s.deleted →
      HasRow s.store botId event.id) ∧
    ∀ left ∈ s.store.events.values, ∀ right ∈ s.store.events.values, left.botId = right.botId →
      (left.eventId = right.eventId ∨ left.seq = right.seq) → left = right := by
  have hs := Admissions.run_inv hrun halone
  have hsucceeded : ∀ call ∈ s.calls, call.botId ∉ s.deleted →
      (∃ stored, call.pc = .done (.ok stored)) → HasRow s.store call.botId call.input.eventId := by
    intro call hcall hdeleted ⟨stored, hdone⟩
    refine hs.relied call hcall hdeleted ?_
    unfold AdmissionCall.Relies
    rw [hdone]
    rfl
  refine ⟨fun call hcall hdeleted stored hdone => hsucceeded call hcall hdeleted ⟨stored, hdone⟩, ?_,
    fun left hleft right hright => hs.consistent.unique hleft hright⟩
  intro botId event hreceived hdeleted
  obtain ⟨call, hcall, hbot, hid, hdone⟩ := hs.received _ hreceived
  have hdeleted : call.botId ∉ s.deleted := hbot ▸ hdeleted
  have hrow := hsucceeded call hcall hdeleted hdone
  rwa [hbot, hid] at hrow

/-! ## Two admissions of one event -/

def nightly : BotId := ⟨"nightly", by decide +kernel⟩

/-- An admission begins, and goes on until its row is in the store. -/
def admitUntilInserted (index : Nat) : List Admissions.Input :=
  [.beginAdmission nightly false { eventId := "e" }, .resume index .done, .resume index (.blob "document"),
    .resume index (.blob "prompt"), .resume index .done]

/-- An admission whose wake fails deletes its row, and the retry succeeds. -/
theorem admitted_recorded_nightly : ∃ steps s, admissions.Run steps s ∧
    s.received.map Prod.fst = [nightly] ∧
    (∀ call ∈ s.calls, call.botId ∉ s.deleted → ∀ stored, call.pc = .done (.ok stored) →
      HasRow s.store call.botId call.input.eventId) ∧
    (∀ botId event, (botId, event) ∈ s.received → botId ∉ s.deleted →
      HasRow s.store botId event.id) ∧
    ∀ left ∈ s.store.events.values, ∀ right ∈ s.store.events.values, left.botId = right.botId →
      (left.eventId = right.eventId ∨ left.seq = right.seq) → left = right := by
  obtain ⟨⟨steps, s⟩, htrace, halone, hreceived⟩ :
      ∃ run ∈ admissions.trace {} (.createBot nightly :: admitUntilInserted 0 ++
      [.resume 0 (.failed "unavailable"), .resume 0 .done] ++ admitUntilInserted 1 ++
        [.resume 1 .done]), (∀ step ∈ run.1, step.1.DiscardsAlone step.2) ∧
      run.2.received.map Prod.fst = [nightly] := by decide +kernel
  have hrun : admissions.Run steps s := (Machine.Run.init (m := admissions) rfl).trace htrace
  exact ⟨steps, s, hrun, hreceived, admitted_recorded hrun halone⟩

/-- A second admission finds the row and wakes the controller with it; then the wake of the first fails,
and it deletes the row. -/
theorem admitted_unrecorded : ∃ s, admissions.Reaches s ∧ s.deleted = [] ∧
    (∃ call ∈ s.calls, call.botId = nightly ∧ call.input.eventId = "e" ∧ call.pc.isSuccess = true) ∧
    s.received.map (fun pair => (pair.1, pair.2.id)) = [(nightly, "e")] ∧
    ¬ HasRow s.store nightly "e" := by
  obtain ⟨s, hs, hstate⟩ : ∃ s ∈ admissions.exec {} (.createBot nightly :: admitUntilInserted 0 ++
      admitUntilInserted 1 ++ [.resume 1 .done, .resume 0 (.failed "unavailable"),
        .resume 0 .done]), s.deleted = [] ∧
      (∃ call ∈ s.calls, call.botId = nightly ∧ call.input.eventId = "e" ∧ call.pc.isSuccess = true) ∧
      s.received.map (fun pair => (pair.1, pair.2.id)) = [(nightly, "e")] ∧
      ¬ (s.store.events.get? (toLex (nightly, "e"))).isSome = true := by decide +kernel
  exact ⟨s, Machine.exec_reaches rfl hs, hstate⟩

end Lightspeed.Bots
