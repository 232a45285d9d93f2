import Std.Data.String.ToNat
import Lightspeed.Lib.Recent
import Lightspeed.Bots.Carry
import Lightspeed.Bots.Traced
import Lightspeed.Bots.Sweeps

/-!
# What the dedupe memory holds

The ids of the events that a controller accepted as new, in order, over all of its executions. The memory
holds the newest of them, as many as its cap, and every step but an acceptance leaves both alone.
-/

namespace Lightspeed.Bots

open Lib Harness ControllerState

variable {sha256Hex : String → String} {s t : System} {nowMs : Int} {answer : Answer}

/-! ## The newest ids -/

/-- The memory holds the newest ids, as many as its cap. -/
def SeenIds.Recalls {cap : Nat} (seen : SeenIds cap) (ids : List String) : Prop :=
  seen.order = ids.drop (ids.length - cap)

theorem SeenIds.Recalls.insert {cap : Nat} {seen : SeenIds cap} {ids : List String} {id : String}
    (h : seen.Recalls ids) (hid : id ∉ seen.order) : (seen.insert id).2.Recalls (ids ++ [id]) := by
  have hinsert : seen.insert id = (true, seen.push id hid) := dif_neg hid
  have hlength : seen.order.length = ids.length - (ids.length - cap) := by rw [h, List.length_drop]
  have hcut : ids.length - cap ≤ ids.length := Nat.sub_le ..
  unfold Recalls
  rw [hinsert]
  calc (seen.order ++ [id]).drop (seen.order.length + 1 - cap)
      = ((ids ++ [id]).drop (ids.length - cap)).drop (seen.order.length + 1 - cap) := by
        rw [List.drop_append_of_le_length hcut, ← h]
    _ = (ids ++ [id]).drop ((ids ++ [id]).length - cap) := by
        rw [List.drop_drop, List.length_append, List.length_singleton]
        congr 1
        omega

/-- An id with fewer newer ones than the cap is in the memory. -/
theorem SeenIds.Recalls.mem {cap : Nat} {seen : SeenIds cap} {ids : List String} {id : String}
    (h : seen.Recalls ids) (hid : id ∈ ids) (hnewer : newer ids id < cap) : id ∈ seen.order := by
  rw [h]
  exact (mem_drop_of_newer hid hnewer).1

/-! ## Acceptances -/

namespace ControllerState

variable {s : ControllerState} {event : BotEvent}

/-- An event whose id is in the memory is counted, and nothing else. -/
theorem acceptEvent_seen (hvalid : validateEvent event = .ok ())
    (hseen : event.id ∈ s.seenEventIds.order) :
    s.acceptEvent sha256Hex event nowMs = .ok { s with
      eventTick := s.eventTick + 1
      duplicateEvents := s.duplicateEvents + 1 } := by
  have hinsert : s.seenEventIds.insert event.id = (false, s.seenEventIds) := dif_pos hseen
  unfold acceptEvent
  rw [hvalid]
  dsimp only
  rw [hinsert]
  rfl

theorem acceptEvent_new (hvalid : validateEvent event = .ok ())
    (hseen : event.id ∉ s.seenEventIds.order) :
    s.acceptEvent sha256Hex event nowMs = .ok (queueEvent sha256Hex { s with
      eventTick := s.eventTick + 1
      seenEventIds := (s.seenEventIds.insert event.id).2 } event nowMs) := by
  have hinsert : s.seenEventIds.insert event.id = (true, s.seenEventIds.push event.id hseen) :=
    dif_neg hseen
  unfold acceptEvent
  rw [hvalid]
  dsimp only
  rw [hinsert]
  rfl

theorem acceptEvent_invalid {message : String} (hinvalid : validateEvent event = .error message) :
    s.acceptEvent sha256Hex event nowMs = .error message := by
  unfold acceptEvent
  rw [hinvalid]

end ControllerState

theorem acceptedIds_queuedSince (before after : ControllerState) :
    acceptedIds (System.queuedSince before after) = [] := acceptedIds_queued _

/-! ## The memory along a run -/

/-- The memory holds the newest ids that were accepted. -/
def System.Recalls (s : System) : Prop := s.state.seenEventIds.Recalls (acceptedIds s.log)

theorem System.AcceptsNone.recalls (h : s.AcceptsNone t) (hs : s.Recalls) : t.Recalls := by
  unfold System.Recalls
  rw [h.seen, h.log]
  exact hs

theorem botEvent_recalls {event : BotEvent} (h : s.Recalls) :
    (s.botEvent sha256Hex event).Recalls := by
  cases hvalid : validateEvent event with
  | error message =>
    unfold System.botEvent
    dsimp only
    rw [acceptEvent_invalid hvalid]
    exact h
  | ok =>
    unfold System.botEvent System.Recalls
    dsimp only
    by_cases hseen : event.id ∈ s.tickClock.seenEventIds.order
    · have hcontains : s.tickClock.seenEventIds.contains event.id = true := List.contains_iff_mem.mpr hseen
      rw [acceptEvent_seen hvalid hseen]
      dsimp only
      rw [if_pos hcontains, System.withLog, acceptedIds_append, acceptedIds_append,
        acceptedIds_queuedSince]
      show SeenIds.Recalls _ (acceptedIds s.log ++ [])
      rw [List.append_nil]
      exact h
    · have hcontains : ¬ s.tickClock.seenEventIds.contains event.id = true :=
        fun hmem => hseen (List.contains_iff_mem.mp hmem)
      rw [acceptEvent_new hvalid hseen]
      dsimp only
      rw [if_neg hcontains, System.withLog, acceptedIds_append, acceptedIds_append,
        acceptedIds_queuedSince, queueEvent_keeps.2]
      exact SeenIds.Recalls.insert h hseen

/-- The next execution remembers what this one does: nothing is pending that was not accepted. -/
theorem System.Recalls.renewed (h : s.Recalls) (htraced : s.board.Traced) :
    (renewed s.state nowMs).seenEventIds = s.state.seenEventIds := by
  by_cases hempty : s.state.seenEventIds.order = []
  · have hnone : acceptedIds s.log = [] := by
      have hdrop : (acceptedIds s.log).drop ((acceptedIds s.log).length - botSeenIdCap) = [] :=
        h.symm.trans hempty
      have hlength := List.drop_eq_nil_iff.mp hdrop
      have hcap : 0 < botSeenIdCap := by decide
      exact List.eq_nil_of_length_eq_zero (by omega)
    have hpending : s.state.pendingDeliveries.flatMap BotDelivery.eventIds = [] := by
      rw [List.flatMap_eq_nil_iff]
      intro d hd
      refine List.map_eq_nil_iff.mpr (List.eq_nil_iff_forall_not_mem.mpr fun event hevent => ?_)
      have haccepted : event.id ∈ acceptedIds s.log :=
        List.mem_map_of_mem (List.mem_flatMap_of_mem (htraced.pending d hd event hevent)
          List.mem_cons_self)
      rw [hnone] at haccepted
      cases haccepted
    have hcarry : s.state.seenEventIds.tail.isEmpty = true := List.isEmpty_iff.mpr hempty
    apply SeenIds.ext_order
    show (if s.state.seenEventIds.tail.isEmpty then
      SeenIds.fromIds (s.state.pendingDeliveries.flatMap BotDelivery.eventIds) else _).order = _
    rw [if_pos hcarry, hpending, hempty]
    rfl
  · exact seenEventIds_renewed hempty

theorem continueAsNew_recalls {suggested : Bool} (h : s.Recalls) (htraced : s.board.Traced) :
    (s.continueAsNew suggested).Recalls := by
  unfold System.continueAsNew
  split_ifs
  · show (Bots.renewed s.state s.nowMs).seenEventIds.Recalls (acceptedIds s.log)
    rw [h.renewed htraced]
    exact h
  · exact h

theorem step_recalls {input : System.Input} (h : s.Recalls) (htraced : s.board.Traced)
    (hstep : s.step sha256Hex input = some t) : t.Recalls := by
  unfold System.step at hstep
  split at hstep
  next stage suggested hloop =>
    rw [← Option.some.inj hstep]
    by_cases hstage : stage = .renew
    · rw [hstage]
      exact continueAsNew_recalls h htraced
    · exact (runStage_stays hstage).toAcceptsNone.recalls h
  · exact (resumeLoop_stays hstep).toAcceptsNone.recalls h
  · split_ifs at hstep
    exact Option.some.inj hstep ▸ h
  · split_ifs at hstep
    exact Option.some.inj hstep ▸ botEvent_recalls h
  next wait config hloop =>
    have hnone : s.AcceptsNone (s.botConfig config) := by
      unfold System.botConfig
      dsimp only
      split
      · exact ⟨rfl, rfl⟩
      next next haccept =>
        unfold acceptConfig at haccept
        split_ifs at haccept
        rw [← Except.ok.inj haccept]
        refine ⟨rfl, ?_⟩
        rw [System.withLog, acceptedIds_append]
        exact List.append_nil _
    exact Option.some.inj hstep ▸ hnone.recalls h
  next wait sessionId hloop =>
    have hnone : s.AcceptsNone (s.botSessionRotate sessionId) := by
      unfold System.botSessionRotate requestRotation
      split_ifs <;> exact ⟨rfl, rfl⟩
    exact Option.some.inj hstep ▸ hnone.recalls h
  · exact Option.some.inj hstep ▸ h
  · unfold System.resumeTask at hstep
    split at hstep
    · cases hstep
    · obtain ⟨turn, hturn, ht⟩ := Option.map_eq_some_iff.mp hstep
      rw [← ht]
      refine System.AcceptsNone.recalls ⟨(resume_rests hturn).seen, ?_⟩ h
      rw [System.withLog, acceptedIds_append, (resume_rests hturn).quiet, List.append_nil]
  · cases hstep

/-- In every execution, the memory holds the newest ids that were accepted in all of them. -/
theorem reaches_recalls (h : (System.controller sha256Hex).Reaches s) : s.Recalls := by
  refine h.invariant (P := System.Recalls) ?_ fun s input t hreach hs hstep =>
    step_recalls hs (reaches_traced hreach) hstep
  intro s hinit
  obtain ⟨config, mainGeneration, sessionGenerations, nowMs, rfl⟩ := hinit.eq_start
  exact List.drop_nil.symm

/-! ## Held events -/

/-- An event id in a pending delivery, a coalesce buffer or a lane. -/
def ControllerState.HoldsEvent (s : ControllerState) (eventId : String) : Prop :=
  (∃ delivery ∈ s.pendingDeliveries, eventId ∈ delivery.eventIds) ∨
    (∃ buffer ∈ s.buffers.values, eventId ∈ buffer.events.map (·.id)) ∨
      ∃ lane ∈ s.activeBySession.values, eventId ∈ lane.delivery.eventIds

/-- What a controller holds was accepted. -/
theorem mem_acceptedIds_of_holds {eventId : String} (htraced : s.board.Traced)
    (h : s.state.HoldsEvent eventId) : eventId ∈ acceptedIds s.log := by
  have hlogged : ∀ event : BotEvent, .accepted event ∈ s.log → event.id ∈ acceptedIds s.log :=
    fun event hmem => List.mem_map_of_mem (List.mem_flatMap_of_mem hmem List.mem_cons_self)
  rcases h with ⟨delivery, hdelivery, hid⟩ | ⟨buffer, hbuffer, hid⟩ | ⟨lane, hlane, hid⟩
  · obtain ⟨event, hevent, rfl⟩ := List.mem_map.mp hid
    exact hlogged event (htraced.pending delivery hdelivery event hevent)
  · obtain ⟨event, hevent, rfl⟩ := List.mem_map.mp hid
    exact hlogged event (htraced.buffers buffer (Multiset.mem_coe.mpr hbuffer) event hevent)
  · obtain ⟨event, hevent, rfl⟩ := List.mem_map.mp hid
    obtain ⟨entry, hentry, rfl⟩ := List.mem_map.mp hlane
    have hhold : laneHold entry ∈ s.board.view.lanes :=
      Multiset.mem_coe.mpr (List.mem_map_of_mem hentry)
    exact hlogged event (htraced.lanes _ hhold event hevent)

/-- An event that a controller holds, with fewer events accepted after it than the memory's cap, is not
accepted again: it is refused, or it is counted as a duplicate. -/
theorem held_event_not_accepted_again {event : BotEvent} (h : (System.controller sha256Hex).Reaches s)
    (hheld : s.state.HoldsEvent event.id)
    (hrecent : newer (acceptedIds s.log) event.id < botSeenIdCap) (nowMs : Int) :
    (∃ message, s.state.acceptEvent sha256Hex event nowMs = .error message) ∨
      s.state.acceptEvent sha256Hex event nowMs = .ok { s.state with
        eventTick := s.state.eventTick + 1
        duplicateEvents := s.state.duplicateEvents + 1 } := by
  have haccepted := mem_acceptedIds_of_holds (reaches_traced h) hheld
  have hseen : event.id ∈ s.state.seenEventIds.order := (reaches_recalls h).mem haccepted hrecent
  cases hvalid : validateEvent event with
  | error message => exact .inl ⟨message, acceptEvent_invalid hvalid⟩
  | ok => exact .inr (acceptEvent_seen hvalid hseen)

/-- Whatever a controller holds was accepted, and its memory is the newest of the ids that were. -/
theorem accepted_ids_recalled (h : (System.controller sha256Hex).Reaches s) :
    s.Recalls ∧ ∀ eventId, s.state.HoldsEvent eventId → eventId ∈ acceptedIds s.log :=
  ⟨reaches_recalls h, fun _ => mem_acceptedIds_of_holds (reaches_traced h)⟩

theorem accepted_ids_recalled_triage : ∃ s, (System.controller id).Reaches s ∧ acceptedIds s.log = ["e"] ∧
    s.Recalls ∧ ∀ eventId, s.state.HoldsEvent eventId → eventId ∈ acceptedIds s.log := by
  obtain ⟨s, hs, hids⟩ : ∃ s ∈ (System.controller id).exec triageStart [.botEvent triageEvent],
      acceptedIds s.log = ["e"] := by decide +kernel
  have hreach := Machine.exec_reaches triageStart_initial hs
  exact ⟨s, hreach, hids, accepted_ids_recalled hreach⟩

/-- An event that waits for the first pass, and comes once more. -/
theorem held_event_not_accepted_again_triage : ∃ s, (System.controller id).Reaches s ∧
    s.state.HoldsEvent triageEvent.id ∧ s.state.acceptEvent id triageEvent s.nowMs = .ok { s.state with
      eventTick := s.state.eventTick + 1
      duplicateEvents := s.state.duplicateEvents + 1 } := by
  obtain ⟨s, hs, hpending, hlog⟩ : ∃ s ∈ (System.controller id).exec triageStart [.botEvent triageEvent],
      s.state.pendingDeliveries = [.single triageEvent] ∧ s.log = [.configured triageConfig,
        .accepted triageEvent, .queued (.single triageEvent)] := by decide +kernel
  have hreach := Machine.exec_reaches triageStart_initial hs
  have hheld : s.state.HoldsEvent triageEvent.id :=
    .inl ⟨.single triageEvent, hpending ▸ List.mem_cons_self, List.mem_cons_self⟩
  have hrecent : newer (acceptedIds s.log) triageEvent.id < botSeenIdCap := by
    rw [hlog]
    decide +kernel
  have hvalid : validateEvent triageEvent = .ok () := by decide +kernel
  refine ⟨s, hreach, hheld, ?_⟩
  rcases held_event_not_accepted_again hreach hheld hrecent s.nowMs with ⟨message, herror⟩ | hok
  · rw [acceptEvent_seen hvalid ((reaches_recalls hreach).mem
      (mem_acceptedIds_of_holds (reaches_traced hreach) hheld) hrecent)] at herror
    cases herror
  · exact hok

/-! ## More events than the memory holds -/

def numbered (n : Nat) : BotEvent := { id := Nat.repr n, seq := n, documentRef := "d" }

/-- A number with few digits is a short text. -/
theorem utf8ByteSize_repr_le {n k : Nat} (h : n < 10 ^ (k + 1)) : n.repr.utf8ByteSize ≤ 4 * (k + 1) := by
  induction k generalizing n with
  | zero =>
    rw [Nat.repr_of_lt h, String.utf8ByteSize_singleton]
    exact Char.utf8Size_le_four _
  | succ k ih =>
    have hlast := Char.utf8Size_le_four (n % 10).digitChar
    by_cases hten : n < 10
    · rw [Nat.repr_of_lt hten, String.utf8ByteSize_singleton]
      have hone := Char.utf8Size_le_four n.digitChar
      omega
    · have htenth : (n / 10).repr.utf8ByteSize ≤ 4 * (k + 1) :=
        ih (Nat.div_lt_of_lt_mul (by rwa [mul_comm, ← pow_succ]))
      rw [Nat.repr_of_ge (by omega), String.utf8ByteSize_append, String.utf8ByteSize_singleton]
      omega

theorem numbered_valid {n : Nat} (hn : n < botSeenIdCap + 1) : validateEvent (numbered n) = .ok () := by
  have hsize : n.repr.utf8ByteSize ≤ 4 * (3 + 1) := utf8ByteSize_repr_le (hn.trans (by decide))
  have hsome : n.repr.isEmpty = false := by
    rw [← Bool.not_eq_true, String.isEmpty_iff]
    intro hempty
    have hpos : 0 < n.repr.length := Nat.length_repr_pos
    rw [hempty] at hpos
    exact absurd hpos (by decide)
  have hid : ((numbered n).id.isEmpty || decide ((numbered n).id.utf8ByteSize > eventIdMaxLen)) = false := by
    have hfits : n.repr.utf8ByteSize ≤ eventIdMaxLen := hsize.trans (by decide)
    rw [numbered, hsome, Bool.false_or, decide_eq_false_iff_not]
    exact not_lt.mpr hfits
  unfold validateEvent
  rw [hid]
  rfl

/-- Numbered events come before the first pass, and each is a delivery of its own. -/
theorem numbered_accepted {n : Nat} (hn : n ≤ botSeenIdCap + 1) : ∃ s,
    (System.controller id).Reaches s ∧ s.loop = .waiting .begin ∧
      acceptedIds s.log = (List.range n).map Nat.repr ∧
        s.state.pendingDeliveries = (List.range n).map fun i => .single (numbered i) := by
  induction n with
  | zero => exact ⟨triageStart, ⟨[], .init triageStart_initial⟩, rfl, rfl, rfl⟩
  | succ n ih =>
    obtain ⟨s, ⟨steps, hrun⟩, hloop, haccepted, hpending⟩ := ih (by omega)
    have hvalid : validateEvent (numbered n) = .ok () := numbered_valid (by omega)
    have hseen : (numbered n).id ∉ s.tickClock.seenEventIds.order := by
      intro hmem
      have hmem : Nat.repr n ∈ acceptedIds s.log := by
        have horder : s.state.seenEventIds.order = _ := reaches_recalls ⟨steps, hrun⟩
        exact List.mem_of_mem_drop (horder ▸ hmem)
      rw [haccepted] at hmem
      obtain ⟨i, hi, heq⟩ := List.mem_map.mp hmem
      have hlt := List.mem_range.mp hi
      have hsame : i = n := Nat.repr_injective heq
      omega
    have hcontains : ¬ s.tickClock.seenEventIds.contains (numbered n).id = true :=
      fun hmem => hseen (List.contains_iff_mem.mp hmem)
    have hstep : s.step id (.botEvent (numbered n)) = some (s.botEvent id (numbered n)) := by
      have hrouted : (numbered n).RoutedFor s.state.config.botId := nofun
      unfold System.step
      rw [hloop]
      exact if_pos hrouted
    refine ⟨s.botEvent id (numbered n), ⟨_, hrun.step hstep⟩, ?_, ?_, ?_⟩
    · unfold System.botEvent
      dsimp only
      rw [acceptEvent_new hvalid hseen]
      exact hloop
    · unfold System.botEvent
      dsimp only
      rw [acceptEvent_new hvalid hseen]
      dsimp only
      rw [if_neg hcontains, System.withLog, acceptedIds_append, acceptedIds_append,
        acceptedIds_queuedSince, haccepted, List.range_succ, List.map_append]
      rfl
    · unfold System.botEvent
      dsimp only
      rw [acceptEvent_new hvalid hseen]
      show s.state.pendingDeliveries ++ [.single (numbered n)] = _
      rw [hpending, List.range_succ, List.map_append]
      rfl

/-- The first of more events than the memory holds still waits for delivery, and is accepted again. -/
theorem held_event_accepted_again : ∃ s event nowMs t, (System.controller id).Reaches s ∧
    s.state.HoldsEvent event.id ∧ s.state.acceptEvent id event nowMs = .ok t ∧
      t.pendingDeliveries = s.state.pendingDeliveries ++ [.single event] := by
  obtain ⟨s, hreach, -, haccepted, hpending⟩ := numbered_accepted (le_refl (botSeenIdCap + 1))
  have hvalid : validateEvent (numbered 0) = .ok () := numbered_valid (by decide)
  have horder : s.state.seenEventIds.order =
      ((List.range botSeenIdCap).map Nat.succ).map Nat.repr := by
    have hrecalls : s.state.seenEventIds.order = _ := reaches_recalls hreach
    rw [hrecalls, haccepted, List.length_map, List.length_range, Nat.add_sub_cancel_left,
      List.range_succ_eq_map]
    rfl
  have hseen : (numbered 0).id ∉ s.state.seenEventIds.order := by
    rw [horder]
    intro hmem
    obtain ⟨i, hi, heq⟩ := List.mem_map.mp hmem
    obtain ⟨j, -, rfl⟩ := List.mem_map.mp hi
    cases Nat.repr_injective heq
  have hheld : s.state.HoldsEvent (numbered 0).id := by
    refine .inl ⟨.single (numbered 0), ?_, List.mem_cons_self⟩
    rw [hpending]
    exact List.mem_map.mpr ⟨0, List.mem_range.mpr (by decide), rfl⟩
  exact ⟨s, numbered 0, s.nowMs, _, hreach, hheld, acceptEvent_new hvalid hseen, rfl⟩

end Lightspeed.Bots
