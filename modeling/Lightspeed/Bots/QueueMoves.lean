import Lightspeed.Bots.LaneMoves

/-!
# What the queue's functions do to the board

Events that are accepted, buffers that are flushed and deliveries that are dispatched, as chains of
moves.
-/

namespace Lightspeed.Bots

open Lib Harness Relation ControllerState

variable {rules : Rules} {sha256Hex : String → String} {s t u : ControllerState} {nowMs : Int}
  {event : BotEvent} {key : String} {b : Board} {cap : Nat} {kept rest : List BotDelivery}
  {waiting : List String}

/-! ## Buffers -/

/-- What a map shows of its values after an insertion. -/
theorem coe_values_insert (m : OrdMap String CoalesceBuffer) (key : String) (buffer : CoalesceBuffer) :
    ((m.insert key buffer).values : Multiset CoalesceBuffer) =
      buffer ::ₘ ((m.erase key).values : Multiset CoalesceBuffer) :=
  Multiset.coe_eq_coe.mpr ((m.entries_insert_perm key buffer).map Prod.snd)

theorem coe_values_of_get? {m : OrdMap String CoalesceBuffer} {buffer : CoalesceBuffer}
    (h : m.get? key = some buffer) :
    (m.values : Multiset CoalesceBuffer) =
      buffer ::ₘ ((m.erase key).values : Multiset CoalesceBuffer) :=
  Multiset.coe_eq_coe.mpr ((OrdMap.entries_perm_of_get? h).map Prod.snd)

/-- The queue of the second state begins with the one of the first. -/
def Extends (s t : ControllerState) : Prop :=
  ∃ more, t.pendingDeliveries = s.pendingDeliveries ++ more

theorem Extends.refl (s : ControllerState) : Extends s s := ⟨[], (List.append_nil _).symm⟩

theorem Extends.trans (hst : Extends s t) (htu : Extends t u) : Extends s u := by
  obtain ⟨more, hmore⟩ := hst
  obtain ⟨more', hmore'⟩ := htu
  exact ⟨more ++ more', by rw [hmore', hmore, List.append_assoc]⟩

theorem queuedSince_of_pending {more : List BotDelivery}
    (h : t.pendingDeliveries = s.pendingDeliveries ++ more) :
    System.queuedSince s t = more.map .queued := by
  rw [System.queuedSince, h, List.drop_left]

theorem queuedSince_append (hst : Extends s t) (htu : Extends t u) :
    System.queuedSince s u = System.queuedSince s t ++ System.queuedSince t u := by
  obtain ⟨more, hmore⟩ := hst
  obtain ⟨more', hmore'⟩ := htu
  have hsu : u.pendingDeliveries = s.pendingDeliveries ++ (more ++ more') := by
    rw [hmore', hmore, List.append_assoc]
  rw [queuedSince_of_pending hsu, queuedSince_of_pending hmore, queuedSince_of_pending hmore',
    List.map_append]

/-- What a queue function does on the board: it only adds to the end of the queue. -/
structure QueueFits (rules : Rules) (s t : ControllerState) : Prop where
  moves : ∀ b : Board, b.view = s.view →
    ReflTransGen (Move rules) b
      { b with view := t.view, log := b.log ++ System.queuedSince s t }
  grows : Extends s t

theorem QueueFits.refl : QueueFits rules s s where
  moves b hb := by
    rw [queuedSince_of_pending (List.append_nil s.pendingDeliveries).symm, ← hb]
    exact (List.append_nil b.log).symm ▸ .refl
  grows := .refl s

theorem QueueFits.trans (hst : QueueFits rules s t) (htu : QueueFits rules t u) :
    QueueFits rules s u where
  moves b hb := by
    have hfirst := hst.moves b hb
    have hrest := htu.moves { b with view := t.view, log := b.log ++ System.queuedSince s t } rfl
    rw [queuedSince_append hst.grows htu.grows, ← List.append_assoc]
    exact hfirst.trans hrest
  grows := hst.grows.trans htu.grows

theorem QueueFits.of_move {more : List BotDelivery}
    (hpending : t.pendingDeliveries = s.pendingDeliveries ++ more)
    (hmove : ∀ b : Board, b.view = s.view →
      Move rules b { b with view := t.view, log := b.log ++ more.map .queued }) :
    QueueFits rules s t where
  moves b hb := by
    rw [queuedSince_of_pending hpending]
    exact .single (hmove b hb)
  grows := ⟨more, hpending⟩

/-- A buffer leaves as one delivery, or with nothing. -/
theorem flushBuffer_fits : QueueFits rules s (s.flushBuffer sha256Hex key) := by
  unfold flushBuffer
  split
  · exact .refl
  next buffer hbuffer =>
    have hbuffers : s.view.buffers = buffer ::ₘ ((s.buffers.erase key).values : List _) :=
      coe_values_of_get? hbuffer
    dsimp only
    split_ifs with hevents
    · refine .of_move (List.append_nil s.pendingDeliveries).symm fun b hb => ?_
      rw [← hb] at hbuffers
      have hmove : Move rules b _ := .dropBuffer b buffer _ hbuffers (List.isEmpty_iff.mp hevents)
      rw [List.map_nil, List.append_nil]
      rw [hb] at hmove
      exact hmove
    · have hpending : (s.pendingDeliveries ++ [buffer.intoDelivery sha256Hex]) =
          s.pendingDeliveries ++ [buffer.intoDelivery sha256Hex] := rfl
      refine .of_move hpending fun b hb => ?_
      rw [← hb] at hbuffers
      have hmove : Move rules b _ :=
        .flush b buffer _ (buffer.intoDelivery sha256Hex) hbuffers rfl rfl rfl
      rw [hb] at hmove
      exact hmove

theorem foldl_flushBuffer_fits (keys : List String) :
    QueueFits rules s (keys.foldl (fun s key => s.flushBuffer sha256Hex key) s) := by
  induction keys generalizing s with
  | nil => exact .refl
  | cons key keys ih => exact flushBuffer_fits.trans ih

theorem flushRipeBuffers_fits : QueueFits rules s (s.flushRipeBuffers sha256Hex nowMs) :=
  foldl_flushBuffer_fits _

/-! ## Events -/

/-- What has seen an id is not empty. -/
theorem push_order_ne_nil (hcap : 0 < cap) (seen : SeenIds cap) (id : String) (h : id ∉ seen.order) :
    (seen.push id h).order ≠ [] := by
  intro hnil
  have hlen := congrArg List.length hnil
  unfold SeenIds.push at hlen
  rw [List.length_drop, List.length_append, List.length_singleton, List.length_nil] at hlen
  omega

theorem insert_of_contains {seen : SeenIds cap} {id : String} (h : seen.contains id = true) :
    seen.insert id = (false, seen) :=
  dif_pos (List.contains_iff_mem.mp h)

theorem insert_of_not_contains {seen : SeenIds cap} {id : String} (hcap : 0 < cap)
    (h : seen.contains id = false) : ∃ more, seen.insert id = (true, more) ∧ more.order ≠ [] := by
  have hmem : id ∉ seen.order := fun hmem => by
    rw [SeenIds.contains, List.contains_iff_mem.mpr hmem] at h
    cases h
  exact ⟨_, dif_neg hmem, push_order_ne_nil hcap seen id hmem⟩

/-- An event joins the buffer of its key, or opens it. -/
theorem bufferWith_moves {params : BotCoalesceParams} {b : Board}
    (hb : s.view = { b.view with seen := true }) (hroute : event.RoutedFor b.view.main.config.botId) :
    Move rules b
      { b with
        view := { s.view with
          buffers := ((s.buffers.insert params.key (s.bufferWith params event nowMs)).values : List _) }
        log := b.log ++ [.accepted event] } := by
  have hbuffers : b.view.buffers = (s.buffers.values : List CoalesceBuffer) :=
    (congrArg View.buffers hb).symm
  rw [coe_values_insert, hb]
  cases hget : s.buffers.get? params.key with
  | none =>
    have hnew : (s.bufferWith params event nowMs).events = [event] ∧
        (s.bufferWith params event nowMs).session = event.session := by
      unfold bufferWith
      rw [hget]
      exact ⟨rfl, rfl⟩
    rw [OrdMap.erase_of_get?_eq_none hget, ← hbuffers]
    exact .openBuffer b event _ hroute hnew.1 hnew.2
  | some buffer =>
    have hjoined : (s.bufferWith params event nowMs).events = buffer.events ++ [event] ∧
        (s.bufferWith params event nowMs).session = buffer.session := by
      unfold bufferWith
      rw [hget]
      exact ⟨rfl, rfl⟩
    exact .joinBuffer b event buffer _ _ (hbuffers.trans (coe_values_of_get? hget)) hjoined.1 hjoined.2

theorem flushBuffer_if_fits {full : Prop} [Decidable full] :
    QueueFits rules s (if full then s.flushBuffer sha256Hex key else s) := by
  split_ifs
  · exact flushBuffer_fits
  · exact .refl

/-- What the queue does once an event has joined a buffer. -/
theorem moves_after_join {joined : ControllerState} {b : Board}
    (hjoin : Move rules b { b with view := joined.view, log := b.log ++ [.accepted event] })
    (hpending : joined.pendingDeliveries = s.pendingDeliveries) (hrest : QueueFits rules joined t) :
    ReflTransGen (Move rules) b
      { b with
        view := t.view, log := b.log ++ (.accepted event :: System.queuedSince s t) } := by
  have hsince : System.queuedSince s t = System.queuedSince joined t := by
    rw [System.queuedSince, System.queuedSince, hpending]
  have hmoves := hrest.moves { b with view := joined.view, log := b.log ++ [.accepted event] } rfl
  rw [List.append_assoc, List.singleton_append, ← hsince] at hmoves
  exact .head hjoin hmoves

/-- An event that is new. -/
theorem queueEvent_moves {b : Board} (hb : s.view = { b.view with seen := true })
    (hroute : event.RoutedFor b.view.main.config.botId) :
    ReflTransGen (Move rules) b
      { b with
        view := (s.queueEvent sha256Hex event nowMs).view
        log := b.log ++
          (.accepted event :: System.queuedSince s (s.queueEvent sha256Hex event nowMs)) } := by
  unfold queueEvent
  split
  · have hqueued : System.queuedSince s
        { s with pendingDeliveries := s.pendingDeliveries ++ [.single event] } =
          [BotDelivery.single event].map .queued := queuedSince_of_pending rfl
    have hview : ({ s with
        pendingDeliveries := s.pendingDeliveries ++ [.single event] } : ControllerState).view =
          { b.view.queue (.single event) with seen := true } :=
      congrArg (fun v : View => v.queue (.single event)) hb
    rw [hqueued, hview]
    exact .single (.accept b event hroute)
  · dsimp only
    refine moves_after_join ?_ ?_ flushBuffer_if_fits
    · exact bufferWith_moves hb hroute
    · rfl

/-- The `bot_event` signal, when its event is valid. -/
theorem acceptEvent_moves (hb : b.view = s.view) (hroute : event.RoutedFor b.view.main.config.botId)
    (h : s.acceptEvent sha256Hex event nowMs = .ok t) :
    ReflTransGen (Move rules) b
      { b with
        view := t.view
        log := b.log ++ ((if s.seenEventIds.contains event.id then [] else [.accepted event]) ++
          System.queuedSince s t) } := by
  unfold acceptEvent at h
  split at h
  · cases h
  · dsimp only at h
    cases hseen : s.seenEventIds.contains event.id with
    | true =>
      rw [insert_of_contains hseen] at h
      have ht := Except.ok.inj h
      have hview : t.view = s.view := by rw [← ht]; rfl
      have hpending : t.pendingDeliveries = s.pendingDeliveries ++ [] := by
        rw [← ht, List.append_nil]
      rw [queuedSince_of_pending hpending, hview, ← hb, if_pos rfl]
      show ReflTransGen _ b { b with log := b.log ++ [] }
      rw [List.append_nil]
    | false =>
      obtain ⟨more, hinsert, hmore⟩ := insert_of_not_contains (by decide) hseen
      rw [hinsert] at h
      have hempty : (!more.order.isEmpty) = true := by simpa using hmore
      rw [if_neg (by simp), List.singleton_append, ← Except.ok.inj h]
      refine queueEvent_moves ?_ hroute
      rw [hb, ← hempty]
      rfl

/-! ## Dispatch -/

/-- A pending delivery that dispatch would hand to a lane if it came to it: the day has budget, no
delivery before it waits for the same session, and the session is neither held nor taken. -/
structure Startable (s : ControllerState) (nowMs : Int) (delivery : BotDelivery) : Prop where
  budget : (s.rollBudgetDay nowMs).budgetExhaustedView nowMs = false
  pending : ∃ index < s.pendingDeliveries.length, s.pendingDeliveries[index]? = some delivery ∧
    ∀ other ∈ s.pendingDeliveries.take index, other.waiting nowMs = true →
      s.targetOf other ≠ s.targetOf delivery
  ripe : delivery.waiting nowMs = false
  unheld : s.targetHeld (s.targetOf delivery) = false
  free : s.activeBySession.get? (s.targetOf delivery) = none

/-- A walk of the queue, some way in: what the deliveries so far left behind. -/
structure Walk (s₀ s : ControllerState) (nowMs : Int) (front kept rest : List BotDelivery)
    (waiting : List String) : Prop where
  pending : s₀.pendingDeliveries = front ++ rest
  config : s.config = s₀.config
  target : ∀ delivery, s.targetOf delivery = s₀.targetOf delivery
  held : ∀ key, s.targetHeld key = s₀.targetHeld key
  lanes : ∀ key, s.activeBySession.get? key = none → s₀.activeBySession.get? key = none
  budget : front ≠ [] → (s₀.rollBudgetDay nowMs).budgetExhaustedView nowMs = false
  atStart : front = [] → s.rollBudgetDay nowMs = s₀.rollBudgetDay nowMs
  waited : ∀ other ∈ front, other.waiting nowMs = true → s₀.targetOf other ∈ waiting
  blocked : ∀ other ∈ kept, s₀.targetOf other ∈ waiting ∨ s₀.targetHeld (s₀.targetOf other) = true ∨
    (s.activeBySession.get? (s₀.targetOf other)).isSome = true

theorem targetOf_rollBudgetDay (delivery : BotDelivery) :
    (s.rollBudgetDay nowMs).targetOf delivery = s.targetOf delivery := by
  unfold rollBudgetDay
  split_ifs <;> rfl

theorem targetHeld_rollBudgetDay (key : String) :
    (s.rollBudgetDay nowMs).targetHeld key = s.targetHeld key := by
  unfold rollBudgetDay
  split_ifs <;> rfl

@[simp] theorem activeBySession_rollBudgetDay :
    (s.rollBudgetDay nowMs).activeBySession = s.activeBySession := by
  unfold rollBudgetDay
  split_ifs <;> rfl

@[simp] theorem config_rollBudgetDay : (s.rollBudgetDay nowMs).config = s.config := by
  unfold rollBudgetDay
  split_ifs <;> rfl

theorem runDay_rollBudgetDay (s : ControllerState) (nowMs : Int) :
    (s.rollBudgetDay nowMs).runDay = utcDay nowMs := by
  unfold rollBudgetDay
  split_ifs with hday
  · rfl
  · exact (not_not.mp hday).symm

theorem rollBudgetDay_of_runDay (h : s.runDay = utcDay nowMs) : s.rollBudgetDay nowMs = s :=
  if_neg (not_not.mpr h.symm)

/-- The session id that a delivery goes to is one of its target's. -/
theorem idOf_targetOf (delivery : BotDelivery) :
    IdOf s.config.botId delivery.session (s.targetOf delivery) := by
  unfold targetOf
  split
  next hsession =>
    rw [hsession]
    exact ⟨s.mainGeneration, rfl⟩
  next session hsession =>
    rw [hsession]
    exact ⟨s.routedGeneration session.sessionId, rfl⟩

/-- Deliveries of one logical target go to one session id. -/
theorem targetOf_eq_of_logical {a b : BotDelivery} (h : a.logical = b.logical) :
    s.targetOf a = s.targetOf b := by
  unfold BotDelivery.logical at h
  unfold targetOf
  cases ha : a.session with
  | none =>
    cases hb : b.session with
    | none => rfl
    | some session' => rw [ha, hb] at h; cases h
  | some session =>
    cases hb : b.session with
    | none => rw [ha, hb] at h; cases h
    | some session' =>
      rw [ha, hb] at h
      exact congrArg s.resolveRoutedSessionId (Option.some.inj h)

/-- A day that is not exhausted has room for one more run. -/
theorem budget_room (hday : s.runDay = utcDay nowMs) (h : s.budgetExhaustedView nowMs = false) :
    ∀ limit ∈ s.view.main.config.runsPerDay, s.view.runsToday + s.view.pendingStarts < limit := by
  intro limit hlimit
  have hlimit : s.config.runsPerDay = some limit := hlimit
  unfold budgetExhaustedView at h
  rw [hlimit] at h
  dsimp only at h
  rw [hday, beq_self_eq_true, Bool.true_and, decide_eq_false_iff_not] at h
  have hruns : s.view.runsToday = s.runsToday := rfl
  rw [view_pendingStarts, hruns]
  unfold reservedRuns at h
  omega

namespace Walk

variable {s₀ : ControllerState} {front kept rest : List BotDelivery} {waiting : List String}
  {delivery : BotDelivery}

theorem start (s₀ : ControllerState) (nowMs : Int) :
    Walk s₀ s₀ nowMs [] [] s₀.pendingDeliveries [] where
  pending := rfl
  config := rfl
  target _ := rfl
  held _ := rfl
  lanes _ h := h
  budget h := absurd rfl h
  atStart _ := rfl
  waited _ h := nomatch h
  blocked _ h := nomatch h

theorem roll (h : Walk s₀ s nowMs front kept rest waiting) :
    Walk s₀ (s.rollBudgetDay nowMs) nowMs front kept rest waiting where
  pending := h.pending
  config := config_rollBudgetDay.trans h.config
  target d := (targetOf_rollBudgetDay d).trans (h.target d)
  held key := (targetHeld_rollBudgetDay key).trans (h.held key)
  lanes := by simpa using h.lanes
  budget := h.budget
  atStart hfront := (rollBudgetDay_of_runDay (runDay_rollBudgetDay s nowMs)).trans (h.atStart hfront)
  waited := h.waited
  blocked := by simpa using h.blocked

/-- The day had budget when the walk began, if it has some left. -/
theorem hasBudget (h : Walk s₀ s nowMs front kept rest waiting) (hday : s.runDay = utcDay nowMs)
    (hbudget : s.budgetExhaustedView nowMs = false) :
    (s₀.rollBudgetDay nowMs).budgetExhaustedView nowMs = false := by
  by_cases hfront : front = []
  · rw [← h.atStart hfront, rollBudgetDay_of_runDay hday]
    exact hbudget
  · exact h.budget hfront

/-- A delivery stays in the queue. -/
theorem keep {waiting' : List String} (h : Walk s₀ s nowMs front kept (delivery :: rest) waiting)
    (hopen : (s₀.rollBudgetDay nowMs).budgetExhaustedView nowMs = false)
    (hsub : ∀ key ∈ waiting, key ∈ waiting')
    (hwait : delivery.waiting nowMs = true → s₀.targetOf delivery ∈ waiting')
    (hblocked : s₀.targetOf delivery ∈ waiting' ∨ s₀.targetHeld (s₀.targetOf delivery) = true ∨
      (s.activeBySession.get? (s₀.targetOf delivery)).isSome = true) :
    Walk s₀ s nowMs (front ++ [delivery]) (kept ++ [delivery]) rest waiting' where
  pending := by rw [h.pending, List.append_assoc]; rfl
  config := h.config
  target := h.target
  held := h.held
  lanes := h.lanes
  budget _ := hopen
  atStart hnil := by simp at hnil
  waited other hmem hother := by
    rcases List.mem_append.mp hmem with hfront | hlast
    · exact hsub _ (h.waited other hfront hother)
    · rw [List.mem_singleton.mp hlast] at hother ⊢
      exact hwait hother
  blocked other hmem := by
    rcases List.mem_append.mp hmem with hkept | hlast
    · exact (h.blocked other hkept).imp_left (hsub _)
    · rw [List.mem_singleton.mp hlast]
      exact hblocked

/-- A delivery is taken, by what only adds to the lanes. -/
theorem take (h : Walk s₀ s nowMs front kept (delivery :: rest) waiting)
    (hopen : (s₀.rollBudgetDay nowMs).budgetExhaustedView nowMs = false)
    (hripe : delivery.waiting nowMs = false) (hconfig : t.config = s.config)
    (htarget : ∀ other, t.targetOf other = s.targetOf other)
    (hheld : ∀ key, t.targetHeld key = s.targetHeld key)
    (hlanes : ∀ key, t.activeBySession.get? key = none → s.activeBySession.get? key = none) :
    Walk s₀ t nowMs (front ++ [delivery]) kept rest waiting where
  pending := by rw [h.pending, List.append_assoc]; rfl
  config := hconfig.trans h.config
  target other := (htarget other).trans (h.target other)
  held key := (hheld key).trans (h.held key)
  lanes key hnone := h.lanes key (hlanes key hnone)
  budget _ := hopen
  atStart hnil := by simp at hnil
  waited other hmem hother := by
    rcases List.mem_append.mp hmem with hfront | hlast
    · exact h.waited other hfront hother
    · rw [List.mem_singleton.mp hlast, hripe] at hother
      cases hother
  blocked other hmem := by
    refine (h.blocked other hmem).imp_right (Or.imp_right fun hsome => ?_)
    by_contra hnone
    rw [Bool.not_eq_true, Option.isSome_eq_false_iff, Option.isNone_iff_eq_none] at hnone
    rw [hlanes _ hnone] at hsome
    cases hsome

/-- No delivery that stays before one that is taken goes to its target. -/
theorem first (h : Walk s₀ s nowMs front kept (delivery :: rest) waiting)
    (hwaiting : s₀.targetOf delivery ∉ waiting)
    (hheld : s₀.targetHeld (s₀.targetOf delivery) = false)
    (hfree : s.activeBySession.get? (s₀.targetOf delivery) = none) :
    ∀ other ∈ kept, other.logical ≠ delivery.logical := by
  intro other hother hlogical
  have htarget : s₀.targetOf other = s₀.targetOf delivery := targetOf_eq_of_logical hlogical
  rcases h.blocked other hother with hblocked | hblocked | hblocked
  · exact hwaiting (htarget ▸ hblocked)
  · rw [htarget, hheld] at hblocked
    cases hblocked
  · rw [htarget, hfree] at hblocked
    cases hblocked

/-- What the walk hands to a lane could be handed to one when it began. -/
theorem startable (h : Walk s₀ s nowMs front kept (delivery :: rest) waiting)
    (hopen : (s₀.rollBudgetDay nowMs).budgetExhaustedView nowMs = false)
    (hripe : delivery.waiting nowMs = false) (hwaiting : s₀.targetOf delivery ∉ waiting)
    (hheld : s₀.targetHeld (s₀.targetOf delivery) = false)
    (hfree : s.activeBySession.get? (s₀.targetOf delivery) = none) :
    Startable s₀ nowMs delivery where
  budget := hopen
  pending := by
    have hlen : front.length < s₀.pendingDeliveries.length := by
      rw [h.pending, List.length_append, List.length_cons]
      omega
    refine ⟨front.length, hlen, ?_, ?_⟩
    · rw [h.pending, List.getElem?_append_right (le_refl _), Nat.sub_self]
      rfl
    · rw [h.pending, List.take_left]
      intro other hmem hother htarget
      exact hwaiting (htarget ▸ h.waited other hmem hother)
  ripe := hripe
  unheld := hheld
  free := h.lanes _ hfree

end Walk

theorem get?_takeLane_eq_none {delivery : BotDelivery} {target : String}
    (h : (s.takeLane delivery target nowMs).activeBySession.get? key = none) :
    s.activeBySession.get? key = none := by
  unfold takeLane LaneMap.insert LaneMap.get? at h
  rw [OrdMap.get?_insert] at h
  split_ifs at h
  exact h

/-- A lane that takes the delivery the walk has come to. -/
theorem take_moves {s₀ : ControllerState} {front kept rest : List BotDelivery}
    {waiting : List String} {delivery : BotDelivery} {b : Board}
    (hwalk : Walk s₀ s nowMs front kept (delivery :: rest) waiting)
    (hday : s.runDay = utcDay nowMs) (hbudget : s.budgetExhaustedView nowMs = false)
    (hripe : delivery.waiting nowMs = false) (hwaiting : s₀.targetOf delivery ∉ waiting)
    (hheld : s₀.targetHeld (s₀.targetOf delivery) = false)
    (hfree : s.activeBySession.get? (s₀.targetOf delivery) = none)
    (hb : b.view = { s.view with pending := kept ++ delivery :: rest }) (hnow : b.nowMs = nowMs)
    (halign : rules.aligned → ∀ h ∈ b.holds, h.target = s₀.targetOf h.delivery ∨
      ∀ d, Startable s₀ nowMs d → h.delivery.logical ≠ d.logical) :
    Move rules b
      { b with
        view := { (s.takeLane delivery (s₀.targetOf delivery) nowMs).view with
          pending := kept ++ rest }
        holds := ⟨delivery, s₀.targetOf delivery, false, false⟩ ::ₘ b.holds } := by
  have hpending : b.view.pending = kept ++ delivery :: rest := by rw [hb]
  have hlanes : ∀ l ∈ b.view.lanes, l.target ≠ s₀.targetOf delivery := by
    rw [hb]
    exact LaneMap.target_ne_of_get?_eq_none hfree
  have hfirst := hwalk.first hwaiting hheld hfree
  have hid : IdOf b.view.main.config.botId delivery.session (s₀.targetOf delivery) := by
    rw [hb, ← hwalk.target]
    exact idOf_targetOf delivery
  have hrunDay : b.view.runDay = utcDay b.nowMs := by
    rw [hb, hnow]
    exact hday
  have hroom : ∀ limit ∈ b.view.main.config.runsPerDay,
      b.view.runsToday + b.view.pendingStarts < limit := by
    rw [hb]
    exact budget_room hday hbudget
  have haligned : rules.aligned → ∀ h ∈ b.holds, h.delivery.logical = delivery.logical →
      h.target = s₀.targetOf delivery := by
    intro haligned h hmem hlogical
    rcases halign haligned h hmem with htarget | hother
    · exact htarget.trans (targetOf_eq_of_logical hlogical)
    · have hopen := hwalk.hasBudget hday hbudget
      exact absurd hlogical (hother delivery (hwalk.startable hopen hripe hwaiting hheld hfree))
  have hmove : Move rules b _ := .take b kept rest delivery (s₀.targetOf delivery) hpending hlanes
    hfirst hid hrunDay hroom haligned
  rw [view_takeLane hfree]
  rw [hb] at hmove
  exact hmove

/-- Dispatch is a chain of moves that take deliveries, each by a lane or by a sidecar. -/
theorem dispatchFrom_moves {s₀ : ControllerState} {front kept rest : List BotDelivery}
    {waiting : List String} (hwalk : Walk s₀ s nowMs front kept rest waiting) {b : Board}
    (hb : b.view = { s.view with pending := kept ++ rest }) (hnow : b.nowMs = nowMs)
    (halign : rules.aligned → ∀ h ∈ b.holds, h.target = s₀.targetOf h.delivery ∨
      ∀ d, Startable s₀ nowMs d → h.delivery.logical ≠ d.logical) :
    ReflTransGen (Move rules) b
      { b with
        view := (s.dispatchFrom nowMs kept rest waiting).1.view
        holds := holdsOf ((s.dispatchFrom nowMs kept rest waiting).2.map System.taskOf) + b.holds
        asides := asidesOf ((s.dispatchFrom nowMs kept rest waiting).2.map System.taskOf) + b.asides } := by
  induction rest generalizing s front kept waiting b with
  | nil =>
    have hview : ({ s with pendingDeliveries := kept } : ControllerState).view = b.view := by
      rw [hb, List.append_nil]
      rfl
    show ReflTransGen _ b { b with
      view := ({ s with pendingDeliveries := kept } : ControllerState).view
      holds := 0 + b.holds, asides := 0 + b.asides }
    rw [hview, zero_add, zero_add]
  | cons delivery rest ih =>
    have hroll : Move rules b { b with
        view := { (s.rollBudgetDay nowMs).view with pending := kept ++ delivery :: rest } } := by
      have hmove : Move rules b _ := .rollDay b
      have hview : b.view.roll b.nowMs =
          { (s.rollBudgetDay nowMs).view with pending := kept ++ delivery :: rest } := by
        rw [view_rollBudgetDay, hb, hnow]
        unfold View.roll
        dsimp only
        split_ifs <;> rfl
      rwa [hview] at hmove
    refine .head hroll ?_
    have hwalk := hwalk.roll
    have hday := runDay_rollBudgetDay s nowMs
    rw [dispatchFrom]
    generalize s.rollBudgetDay nowMs = s at hwalk hday ⊢
    dsimp only
    split_ifs with hspent hwait hheld
    · show ReflTransGen _ _ { b with
        view := { s.view with pending := kept ++ delivery :: rest }
        holds := 0 + b.holds, asides := 0 + b.asides }
      rw [zero_add, zero_add]
    · -- It waits: it stays, and so does what is behind it.
      have hopen := hwalk.hasBudget hday (Bool.not_eq_true _ ▸ hspent)
      have hsub : ∀ key ∈ waiting, key ∈ s.targetOf delivery :: waiting :=
        fun key => List.mem_cons_of_mem _
      have hmem : s₀.targetOf delivery ∈ s.targetOf delivery :: waiting := by
        rw [hwalk.target]
        exact List.mem_cons_self
      exact ih (hwalk.keep hopen hsub (fun _ => hmem) (.inl hmem)) (by simp) hnow halign
    · -- Its session is held, or behind one that waits.
      have hopen := hwalk.hasBudget hday (Bool.not_eq_true _ ▸ hspent)
      have hkeep := hwalk.keep hopen (fun _ => id) (fun h => absurd h hwait) (by
        rw [Bool.or_eq_true, List.contains_iff_mem, hwalk.target, hwalk.held] at hheld
        exact hheld.imp_right .inl)
      exact ih hkeep (by simp) hnow halign
    · have hbudget : s.budgetExhaustedView nowMs = false := Bool.not_eq_true _ ▸ hspent
      have hripe : delivery.waiting nowMs = false := Bool.not_eq_true _ ▸ hwait
      have hopen := hwalk.hasBudget hday hbudget
      rw [Bool.or_eq_true, List.contains_iff_mem, hwalk.target, hwalk.held, not_or] at hheld
      obtain ⟨hwaiting, hheld⟩ := hheld
      rw [hwalk.target]
      split
      next occupied hoccupied =>
        split_ifs with hfree
        · -- A sidecar takes it.
          have hbusy : delivery.whenBusy ≠ .queue := by
            simp only [Bool.and_eq_true, bne_iff_ne] at hfree
            exact hfree.1.2
          have htake := hwalk.take (t := s.takeSidecar (s₀.targetOf delivery)) hopen hripe rfl
            (fun _ => rfl) (fun _ => rfl) fun _ => id
          have hmove : Move rules { b with
              view := { s.view with pending := kept ++ delivery :: rest } } _ :=
            .aside _ kept rest delivery rfl hbusy
          have hrest := ih htake (b := { b with
            view := { s.view with pending := kept ++ rest }
            asides := delivery ::ₘ b.asides }) rfl hnow halign
          refine .head hmove ?_
          have hasides : ∀ more : Multiset BotDelivery,
              ({delivery} + more) + b.asides = more + delivery ::ₘ b.asides := fun more => by
            rw [Multiset.singleton_add, Multiset.cons_add, Multiset.add_cons]
          have hholds : ∀ more : Multiset Hold, (0 + more) + b.holds = more + b.holds := fun more => by
            rw [zero_add]
          simp only [List.map_cons, holdsOf, asidesOf, List.sum_cons, System.taskOf, Task.holds,
            Task.asides, hasides, hholds]
          exact hrest
        · -- Its session has a lane already.
          have hkeep := hwalk.keep hopen (fun _ => id) (fun h => absurd h hwait)
            (.inr (.inr (by rw [hoccupied]; rfl)))
          exact ih hkeep (by simp) hnow halign
      next hfree =>
        have hmove := take_moves hwalk hday hbudget hripe hwaiting (Bool.not_eq_true _ ▸ hheld) hfree
          (b := { b with view := { s.view with pending := kept ++ delivery :: rest } }) rfl hnow halign
        have htake := hwalk.take (t := s.takeLane delivery (s₀.targetOf delivery) nowMs) hopen hripe
          rfl (fun _ => rfl) (fun _ => rfl) fun _ => get?_takeLane_eq_none
        have hrest := ih htake (b := { b with
          view := { (s.takeLane delivery (s₀.targetOf delivery) nowMs).view with
            pending := kept ++ rest }
          holds := ⟨delivery, s₀.targetOf delivery, false, false⟩ ::ₘ b.holds }) rfl hnow (by
            intro haligned h hmem
            rcases Multiset.mem_cons.mp hmem with rfl | hmem
            · exact .inl rfl
            · exact halign haligned h hmem)
        refine .head hmove ?_
        have hholds : ∀ (hold : Hold) (more : Multiset Hold),
            ({hold} + more) + b.holds = more + hold ::ₘ b.holds := fun hold more => by
          rw [Multiset.singleton_add, Multiset.cons_add, Multiset.add_cons]
        have hasides : ∀ more : Multiset BotDelivery, (0 + more) + b.asides = more + b.asides :=
          fun more => by rw [zero_add]
        simp only [List.map_cons, holdsOf, asidesOf, List.sum_cons, System.taskOf, Task.holds,
          Task.asides, hasides, hholds]
        exact hrest

theorem dispatch_moves (hb : b.view = s.view) (hnow : b.nowMs = nowMs)
    (halign : rules.aligned → ∀ h ∈ b.holds, ∀ d ∈ s.pendingDeliveries, Startable s nowMs d →
      h.delivery.logical ≠ d.logical) :
    ReflTransGen (Move rules) b
      { b with
        view := (s.dispatch nowMs).1.view
        holds := holdsOf ((s.dispatch nowMs).2.map System.taskOf) + b.holds
        asides := asidesOf ((s.dispatch nowMs).2.map System.taskOf) + b.asides } :=
  dispatchFrom_moves (Walk.start s nowMs) hb hnow fun haligned h hmem => .inr fun d hd => by
    obtain ⟨index, -, hget, -⟩ := hd.pending
    exact halign haligned h hmem d (List.mem_of_getElem? hget) hd

/-- Every lane that dispatch takes is sent to an id of its target. -/
theorem dispatchFrom_sound {botId : BotId} (hid : s.config.botId = botId) :
    ∀ task ∈ (s.dispatchFrom nowMs kept rest waiting).2.map System.taskOf, task.Sound botId := by
  induction rest generalizing s kept waiting with
  | nil => exact fun _ hmem => nomatch hmem
  | cons delivery rest ih =>
    have hroll : (s.rollBudgetDay nowMs).config.botId = botId := by rwa [config_rollBudgetDay]
    rw [dispatchFrom]
    generalize s.rollBudgetDay nowMs = s at hroll ⊢
    dsimp only
    split_ifs
    · exact fun _ hmem => nomatch hmem
    · exact ih hroll
    · exact ih hroll
    · split
      · split_ifs
        · exact List.forall_mem_cons.mpr ⟨trivial, ih (s := s.takeSidecar _) hroll⟩
        · exact ih hroll
      · refine List.forall_mem_cons.mpr ⟨fun _ => ?_, ih (s := s.takeLane delivery _ nowMs) hroll⟩
        exact hroll ▸ idOf_targetOf delivery

end Lightspeed.Bots
