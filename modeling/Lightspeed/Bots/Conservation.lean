import Mathlib.Data.Multiset.Bind
import Mathlib.Tactic.Abel
import Lightspeed.Bots.LaneTable

/-!
# No event is lost or doubled

What a controller accepted is what waits in its queue and its buffers, what its lanes and sidecars hold,
and what it remembers as delivered, each acceptance once.
-/

namespace Lightspeed.Bots

open Lib Harness Relation

variable {rules : Rules} {sha256Hex : String → String} {a b : Board} {s : System}

/-- The events of deliveries, each as often as it stands there. -/
def eventsOf (deliveries : Multiset BotDelivery) : Multiset BotEvent :=
  deliveries.bind fun delivery => (delivery.events : Multiset BotEvent)

def bufferedEvents (buffers : Multiset CoalesceBuffer) : Multiset BotEvent :=
  buffers.bind fun buffer => (buffer.events : Multiset BotEvent)

def acceptedOf : Obs → List BotEvent
  | .accepted event => [event]
  | _ => []

def rememberedOf : Obs → List BotEvent
  | .remembered delivery => delivery.events
  | _ => []

/-- The events that were accepted as new. -/
def acceptedEvents (log : List Obs) : Multiset BotEvent := (log.flatMap acceptedOf : List BotEvent)

/-- The events of the deliveries that were remembered. -/
def rememberedEvents (log : List Obs) : Multiset BotEvent := (log.flatMap rememberedOf : List BotEvent)

theorem acceptedEvents_append (log more : List Obs) :
    acceptedEvents (log ++ more) = acceptedEvents log + acceptedEvents more := by
  unfold acceptedEvents
  rw [List.flatMap_append, Multiset.coe_add]

theorem rememberedEvents_append (log more : List Obs) :
    rememberedEvents (log ++ more) = rememberedEvents log + rememberedEvents more := by
  unfold rememberedEvents
  rw [List.flatMap_append, Multiset.coe_add]

@[simp] theorem eventsOf_cons (d : BotDelivery) (rest : Multiset BotDelivery) :
    eventsOf (d ::ₘ rest) = (d.events : Multiset BotEvent) + eventsOf rest := Multiset.cons_bind ..

@[simp] theorem eventsOf_zero : eventsOf 0 = 0 := rfl

@[simp] theorem eventsOf_add (left right : Multiset BotDelivery) :
    eventsOf (left + right) = eventsOf left + eventsOf right := Multiset.add_bind ..

@[simp] theorem bufferedEvents_cons (buffer : CoalesceBuffer) (rest : Multiset CoalesceBuffer) :
    bufferedEvents (buffer ::ₘ rest) = (buffer.events : Multiset BotEvent) + bufferedEvents rest :=
  Multiset.cons_bind ..

/-- What the board has of events that are not yet delivered. -/
def Board.events (b : Board) : Multiset BotEvent :=
  eventsOf (b.view.pending : List BotDelivery) + bufferedEvents b.view.buffers +
    eventsOf (b.view.lanes.map Hold.delivery) + eventsOf b.asides

/-- Every acceptance is accounted for, until the bot is torn down. -/
def Board.Conserved (b : Board) : Prop :=
  b.tearingDown = false → acceptedEvents b.log = b.events + rememberedEvents b.log

theorem eventsOf_append (left right : List BotDelivery) :
    eventsOf (left ++ right : List BotDelivery) =
      eventsOf (left : List BotDelivery) + eventsOf (right : List BotDelivery) := by
  rw [← Multiset.coe_add, eventsOf_add]

theorem eventsOf_singleton (d : BotDelivery) :
    eventsOf ([d] : List BotDelivery) = (d.events : Multiset BotEvent) := by
  show eventsOf (d ::ₘ 0) = _
  rw [eventsOf_cons, eventsOf_zero, add_zero]

/-- A delivery in the middle of the queue. -/
theorem eventsOf_middle (before after : List BotDelivery) (d : BotDelivery) :
    eventsOf (before ++ d :: after : List BotDelivery) =
      (d.events : Multiset BotEvent) + eventsOf (before ++ after : List BotDelivery) := by
  have hperm : ((before ++ d :: after : List BotDelivery) : Multiset BotDelivery) =
      d ::ₘ ((before ++ after : List BotDelivery) : Multiset BotDelivery) :=
    Multiset.coe_eq_coe.mpr List.perm_middle
  rw [hperm, eventsOf_cons]

/-- What a lane holds, of an owned board. -/
theorem eventsOf_lanes {h : Hold} {rest : Multiset Hold} (ha : a.Owned)
    (hholds : a.holds = h ::ₘ rest) :
    eventsOf (a.view.lanes.map Hold.delivery) =
      (h.delivery.events : Multiset BotEvent) + eventsOf (rest.map Hold.delivery) := by
  rw [ha.lanes, hholds, Multiset.map_cons, eventsOf_cons]

/-- A move that accounts for what it accepts and remembers keeps the account. -/
theorem Board.Conserved.of_balance {more : List Obs} (ha : a.Conserved)
    (hlog : b.log = a.log ++ more) (htearing : b.tearingDown = a.tearingDown)
    (hbalance : acceptedEvents more + a.events = b.events + rememberedEvents more) :
    b.Conserved := by
  intro hb
  have ha := ha (htearing ▸ hb)
  calc acceptedEvents b.log = acceptedEvents more + (a.events + rememberedEvents a.log) := by
        rw [hlog, acceptedEvents_append, ha, add_comm]
    _ = (acceptedEvents more + a.events) + rememberedEvents a.log := (add_assoc ..).symm
    _ = b.events + (rememberedEvents a.log + rememberedEvents more) := by
        rw [hbalance, add_assoc, add_comm (rememberedEvents more)]
    _ = b.events + rememberedEvents b.log := by rw [hlog, rememberedEvents_append]

/-- A move that neither accepts nor remembers. -/
theorem Board.Conserved.of_events (ha : a.Conserved) (hlog : b.log = a.log)
    (htearing : b.tearingDown = a.tearingDown) (hevents : b.events = a.events) : b.Conserved := by
  refine ha.of_balance (hlog.trans (List.append_nil _).symm) htearing ?_
  rw [hevents]
  exact (zero_add _).trans (add_zero _).symm

theorem acceptedEvents_singleton (event : BotEvent) : acceptedEvents [.accepted event] = {event} := rfl

theorem rememberedEvents_singleton (d : BotDelivery) :
    rememberedEvents [.remembered d] = (d.events : Multiset BotEvent) := by
  unfold rememberedEvents rememberedOf
  rw [List.flatMap_cons, List.flatMap_nil, List.append_nil]

/-- Every move keeps the account. -/
theorem Board.Conserved.move (hmove : Move rules a b) (howned : a.Owned) (hnone : NoneDisplaced b.log)
    (ha : a.Conserved) : b.Conserved := by
  cases hmove with
  | configure next hid | ready request profileRevision hr current =>
    exact ha.of_balance rfl rfl ((zero_add _).trans (add_zero _).symm)
  | accept event hroute =>
    refine ha.of_balance rfl rfl ?_
    have haccepted : acceptedEvents [.accepted event, .queued (.single event)] = {event} := rfl
    have hremembered : rememberedEvents [.accepted event, .queued (.single event)] = 0 := rfl
    have hsingle : ((BotDelivery.single event).events : Multiset BotEvent) = {event} := rfl
    unfold Board.events View.queue
    rw [haccepted, hremembered, eventsOf_append, eventsOf_singleton, hsingle]
    abel
  | openBuffer event buffer hroute hevents hsession =>
    refine ha.of_balance rfl rfl ?_
    have hremembered : rememberedEvents [.accepted event] = 0 := rfl
    unfold Board.events
    dsimp only
    rw [acceptedEvents_singleton, hremembered, bufferedEvents_cons, hevents, Multiset.coe_singleton]
    abel
  | joinBuffer event buffer joined rest hbuffers hevents hsession =>
    refine ha.of_balance rfl rfl ?_
    have hremembered : rememberedEvents [.accepted event] = 0 := rfl
    unfold Board.events
    dsimp only
    rw [acceptedEvents_singleton, hremembered, hbuffers, bufferedEvents_cons, bufferedEvents_cons,
      hevents, ← Multiset.coe_add, Multiset.coe_singleton]
    abel
  | flush buffer rest delivery hbuffers hevents hsession hcore =>
    refine ha.of_balance rfl rfl ?_
    have haccepted : acceptedEvents [.queued delivery] = 0 := rfl
    have hremembered : rememberedEvents [.queued delivery] = 0 := rfl
    unfold Board.events View.queue
    dsimp only
    rw [haccepted, hremembered, hbuffers, bufferedEvents_cons, eventsOf_append, eventsOf_singleton,
      hevents]
    abel
  | dropBuffer buffer rest hbuffers hevents =>
    refine ha.of_events rfl rfl ?_
    unfold Board.events
    dsimp only
    rw [hbuffers, bufferedEvents_cons, hevents, Multiset.coe_nil, zero_add]
  | rollDay =>
    refine ha.of_events rfl rfl ?_
    unfold Board.events
    simp only [View.roll_pending, View.roll_buffers, View.roll_lanes]
  | take before after delivery target hpending hfree hfirst hid hday hbudget aligned =>
    refine ha.of_events rfl rfl ?_
    unfold Board.events
    dsimp only
    rw [hpending, eventsOf_middle, Multiset.map_cons, eventsOf_cons]
    abel
  | aside before after delivery hpending hbusy =>
    refine ha.of_events rfl rfl ?_
    unfold Board.events
    dsimp only
    rw [hpending, eventsOf_middle, eventsOf_cons]
    abel
  | rekey h rest target displaced hholds hdisplaced hid =>
    refine ha.of_balance rfl rfl ?_
    have hb := howned.move (.rekey a h rest target displaced hholds hdisplaced hid) hnone
    have haccepted : acceptedEvents [.rekeyed h.target target displaced] = 0 := rfl
    have hremembered : rememberedEvents [.rekeyed h.target target displaced] = 0 := rfl
    have hlanes : (a.view.rekey h.target target).lanes = { h with target } ::ₘ rest := hb.lanes
    unfold Board.events
    dsimp only
    rw [haccepted, hremembered, hlanes, eventsOf_lanes howned hholds, Multiset.map_cons,
      eventsOf_cons]
    show 0 + _ = _ + 0
    rw [zero_add, add_zero]
    rfl
  | requeue h rest delivery hholds hstarted hcore =>
    refine ha.of_events rfl rfl ?_
    obtain ⟨hlanes, -, -⟩ := howned.freed hholds
    unfold Board.events View.requeue
    dsimp only
    rw [hlanes, eventsOf_lanes howned hholds, ← Multiset.cons_coe, eventsOf_cons,
      events_eq_of_core hcore]
    show _ + eventsOf (a.view.pending : List BotDelivery) + bufferedEvents a.view.buffers + _ + _ = _
    abel
  | begin h rest runId hholds hstarted hparked hbusy =>
    refine ha.of_balance rfl rfl ?_
    obtain ⟨hlanes, -⟩ := howned.marked (f := fun l => { l with started := true }) hholds rfl
    have haccepted : acceptedEvents [.begun h.delivery h.target runId a.nowMs] = 0 := rfl
    have hremembered : rememberedEvents [.begun h.delivery h.target runId a.nowMs] = 0 := rfl
    unfold Board.events
    simp only [View.roll_pending, View.roll_buffers, View.roll_lanes]
    rw [haccepted, hremembered, hlanes, eventsOf_lanes howned hholds, Multiset.map_cons,
      eventsOf_cons]
    show 0 + _ = _ + 0
    rw [zero_add, add_zero]
    rfl
  | park h rest hholds hstarted =>
    refine ha.of_events rfl rfl ?_
    obtain ⟨hlanes, -⟩ := howned.marked (f := fun l => { l with parked := true }) hholds rfl
    unfold Board.events
    dsimp only
    rw [hlanes, eventsOf_lanes howned hholds, Multiset.map_cons, eventsOf_cons]
    rfl
  | finish h rest hholds =>
    refine ha.of_balance rfl rfl ?_
    obtain ⟨hlanes, -, -⟩ := howned.freed hholds
    have haccepted : acceptedEvents [.remembered h.delivery] = 0 := rfl
    unfold Board.events
    dsimp only
    rw [haccepted, rememberedEvents_singleton, hlanes, eventsOf_lanes howned hholds]
    show 0 + _ = eventsOf (a.view.pending : List BotDelivery) + bufferedEvents a.view.buffers + _ + _ + _
    abel
  | drop h rest hholds hevents =>
    refine ha.of_events rfl rfl ?_
    obtain ⟨hlanes, -, -⟩ := howned.freed hholds
    unfold Board.events
    dsimp only
    rw [hlanes, eventsOf_lanes howned hholds, hevents, Multiset.coe_nil, zero_add]
    rfl
  | asideBack held rest delivery hasides hcore =>
    refine ha.of_events rfl rfl ?_
    unfold Board.events View.requeue
    dsimp only
    rw [hasides, ← Multiset.cons_coe, eventsOf_cons, eventsOf_cons, events_eq_of_core hcore]
    abel
  | asideDone held rest hasides =>
    refine ha.of_balance rfl rfl ?_
    have haccepted : acceptedEvents [.remembered held] = 0 := rfl
    unfold Board.events
    dsimp only
    rw [haccepted, rememberedEvents_singleton, hasides, eventsOf_cons]
    abel
  | asideDrop held rest hasides hevents =>
    refine ha.of_events rfl rfl ?_
    unfold Board.events
    dsimp only
    rw [hasides, eventsOf_cons, hevents, Multiset.coe_nil, zero_add]
  | archive log hlog => exact fun htearing => nomatch htearing
  | clear htearing =>
    intro hb
    have hb : a.tearingDown = false := hb
    rw [htearing] at hb
    cases hb
  | renew dirty seen hdirty hseen hparked hcount =>
    refine ha.of_events rfl rfl ?_
    -- Every lane waits, so it has a run, and there is one task for each lane: no sidecar is left.
    have hall : a.view.lanes.filter (fun l => l.started = true) = a.view.lanes :=
      Multiset.filter_eq_self.mpr fun l hl => howned.started l (howned.lanes ▸ hl) (hparked l hl)
    have hasides : a.asides = 0 := by
      rw [howned.lanes] at hcount
      exact Multiset.card_eq_zero.mp (by omega)
    unfold Board.events
    dsimp only
    rw [hall, hasides]
  | _ => exact ha.of_events rfl rfl rfl

theorem initial_conserved (h : System.Initial s) : s.board.Conserved := by
  obtain ⟨config, mainGeneration, sessionGenerations, nowMs, rfl⟩ := h.eq_start
  exact fun _ => rfl

/-- Until the bot is torn down or a lane is put in another's place, each acceptance of an event is in
exactly one place: the queue, a buffer, a lane of the table, the delivery of a sidecar, or once among
the deliveries that are remembered. -/
theorem accepted_events_conserved (h : (System.controller sha256Hex).Reaches s)
    (hnone : NoneDisplaced s.log) (htearing : s.loop.tearingDown = false) :
    acceptedEvents s.log =
      eventsOf (s.state.pendingDeliveries : List BotDelivery) +
        bufferedEvents (s.state.buffers.values : List CoalesceBuffer) +
        eventsOf (s.state.activeBySession.values.map (·.delivery) : List BotDelivery) +
        eventsOf (asidesOf s.tasks) + rememberedEvents s.log := by
  have hmove : ∀ a b, Move ⟨False, False⟩ a b → a.Owned → NoneDisplaced b.log → a.Conserved →
      b.Conserved := fun _ _ hmove howned hnone => Board.Conserved.move hmove howned hnone
  have hb := (reaches_owned_board (fun _ => initial_conserved) hmove h hnone).2 htearing
  have hlanes : s.board.view.lanes.map Hold.delivery =
      (s.state.activeBySession.values.map (·.delivery) : List BotDelivery) := by
    show Multiset.map Hold.delivery (s.state.activeBySession.lanes.entries.map laneHold : List Hold) = _
    rw [LaneMap.values, OrdMap.values, Multiset.map_coe, List.map_map, List.map_map]
    rfl
  rw [← hlanes]
  exact hb

/-- An event that is accepted and taken by a lane. -/
theorem accepted_events_conserved_triage : ∃ s, (System.controller id).Reaches s ∧
    eventsOf (s.state.activeBySession.values.map (·.delivery) : List BotDelivery) = {triageEvent} ∧
    acceptedEvents s.log =
      eventsOf (s.state.pendingDeliveries : List BotDelivery) +
        bufferedEvents (s.state.buffers.values : List CoalesceBuffer) +
        eventsOf (s.state.activeBySession.values.map (·.delivery) : List BotDelivery) +
        eventsOf (asidesOf s.tasks) + rememberedEvents s.log := by
  obtain ⟨s, hs, hlane, hlog, htearing⟩ : ∃ s ∈ (System.controller id).exec triageStart triageDispatched,
      s.state.activeBySession.values.map (·.delivery) = [.single triageEvent] ∧
        s.log = [.configured triageConfig, .accepted triageEvent, .queued (.single triageEvent),
          .ready triageRequest 1] ∧ s.loop.tearingDown = false := by decide +kernel
  have hreach := Machine.exec_reaches triageStart_initial hs
  have hnone : NoneDisplaced s.log := by
    rw [hlog]
    simp [NoneDisplaced]
  refine ⟨s, hreach, ?_, accepted_events_conserved hreach hnone htearing⟩
  rw [hlane]
  rfl

end Lightspeed.Bots
