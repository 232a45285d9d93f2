import Lightspeed.Bots.QueueMoves

/-!
# Dispatch and the wake-up

A parked loop wakes when a delivery is dispatchable, and the pass that follows dispatches. The two walk the
queue by the same rules, one on the state as it stands and the other while lanes and sidecars are taken.
Here they are brought together: dispatch takes something when there is something to take, leaves nothing
that would wake the loop again, and takes the queue apart in order.
-/

namespace Lightspeed.Bots

open Lib Harness

/-- A list taken apart into two, each in the order of the list. -/
inductive TakenApart {α : Type} : List α → List α → List α → Prop
  | nil : TakenApart [] [] []
  | taken (a : α) {taken left all : List α} : TakenApart taken left all →
      TakenApart (a :: taken) left (a :: all)
  | left (a : α) {taken left all : List α} : TakenApart taken left all →
      TakenApart taken (a :: left) (a :: all)

theorem TakenApart.none {α : Type} (all : List α) : TakenApart [] all all := by
  induction all with
  | nil => exact .nil
  | cons a all ih => exact .left a ih

/-- The delivery that an action carries. -/
def ControllerState.DispatchAction.delivery : ControllerState.DispatchAction → BotDelivery
  | .lane delivery _ | .sidecar delivery _ => delivery

namespace ControllerState

variable {s t : ControllerState} {nowMs : Int} {kept rest deliveries : List BotDelivery}
  {waiting : List String} {delivery : BotDelivery} {target : String}

/-! ## One delivery -/

/-- Whether a target that nothing holds back takes a delivery: it is free, or its run is started and the
delivery may go beside it. -/
def targetTakes (s : ControllerState) (delivery : BotDelivery) : Bool :=
  match s.activeBySession.get? (s.targetOf delivery) with
  | none => true
  | some active =>
    active.runId.isSome && delivery.whenBusy != .queue &&
      !s.sidecarBySession.contains (s.targetOf delivery)

/-- Whether a delivery that comes after those that wait for the given targets could be handed out. -/
def takes (s : ControllerState) (nowMs : Int) (waiting : List String) (delivery : BotDelivery) : Bool :=
  !delivery.waiting nowMs && !waiting.contains (s.targetOf delivery) &&
    !s.targetHeld (s.targetOf delivery) && s.targetTakes delivery

/-- The targets that the deliveries of a queue wait for. -/
def waitingAfter (s : ControllerState) (nowMs : Int) : List String → List BotDelivery → List String
  | waiting, [] => waiting
  | waiting, delivery :: rest =>
    s.waitingAfter nowMs
      (if delivery.waiting nowMs then s.targetOf delivery :: waiting else waiting) rest

theorem dispatchableFrom_cons : s.dispatchableFrom nowMs waiting (delivery :: rest) =
    (s.takes nowMs waiting delivery || s.dispatchableFrom nowMs
      (if delivery.waiting nowMs then s.targetOf delivery :: waiting else waiting) rest) := by
  rw [dispatchableFrom, takes, targetTakes]
  cases hwait : delivery.waiting nowMs with
  | true => simp
  | false =>
    cases hbehind : waiting.contains (s.targetOf delivery) with
    | true => simp
    | false =>
      cases hheld : s.targetHeld (s.targetOf delivery) with
      | true => simp
      | false =>
        cases s.activeBySession.get? (s.targetOf delivery) with
        | none => simp
        | some active => simp

theorem dispatchableFrom_append : s.dispatchableFrom nowMs waiting (kept ++ rest) =
    (s.dispatchableFrom nowMs waiting kept ||
      s.dispatchableFrom nowMs (s.waitingAfter nowMs waiting kept) rest) := by
  induction kept generalizing waiting with
  | nil => rfl
  | cons first kept ih =>
    rw [List.cons_append, dispatchableFrom_cons, dispatchableFrom_cons, ih, waitingAfter, Bool.or_assoc]

theorem waitingAfter_append : s.waitingAfter nowMs waiting (kept ++ rest) =
    s.waitingAfter nowMs (s.waitingAfter nowMs waiting kept) rest := by
  induction kept generalizing waiting with
  | nil => rfl
  | cons first kept ih => rw [List.cons_append, waitingAfter, ih, waitingAfter]

/-! ## What dispatch leaves alone -/

/-- A state in which more lanes and sidecars are taken, and nothing else that a delivery waits for has
changed. -/
structure Busier (s t : ControllerState) : Prop where
  target : ∀ delivery, t.targetOf delivery = s.targetOf delivery
  held : ∀ key, t.targetHeld key = s.targetHeld key
  lanes : ∀ key lane, s.activeBySession.get? key = some lane → t.activeBySession.get? key = some lane
  sidecars : ∀ key, s.sidecarBySession.contains key = true → t.sidecarBySession.contains key = true

theorem busier_rollBudgetDay : s.Busier (s.rollBudgetDay nowMs) := by
  unfold rollBudgetDay
  split_ifs <;> exact ⟨fun _ => rfl, fun _ => rfl, fun _ _ h => h, fun _ h => h⟩

theorem busier_takeSidecar : s.Busier (s.takeSidecar target) := by
  refine ⟨fun _ => rfl, fun _ => rfl, fun _ _ h => h, fun key hkey => ?_⟩
  unfold takeSidecar
  rw [OrdMap.contains_iff_mem_keys] at *
  exact OrdMap.mem_keys_insert.mpr (.inr hkey)

theorem busier_takeLane (hfree : s.activeBySession.get? target = none) :
    s.Busier (s.takeLane delivery target nowMs) := by
  refine ⟨fun _ => rfl, fun _ => rfl, fun key lane hlane => ?_, fun _ h => h⟩
  unfold takeLane LaneMap.insert LaneMap.get?
  rw [OrdMap.get?_insert, if_neg]
  · exact hlane
  · intro heq
    have hkey : target = key := heq
    rw [← hkey, hfree] at hlane
    cases hlane

/-- What a delivery is refused for stays. -/
theorem Busier.takes (h : s.Busier t) (hrefused : s.takes nowMs waiting delivery = false) :
    t.takes nowMs waiting delivery = false := by
  rw [← Bool.not_eq_true] at *
  intro htakes
  apply hrefused
  unfold ControllerState.takes at *
  rw [h.target, h.held, Bool.and_eq_true] at htakes
  rw [Bool.and_eq_true]
  refine ⟨htakes.1, ?_⟩
  have hlater := htakes.2
  unfold targetTakes at *
  rw [h.target] at hlater
  cases hlane : s.activeBySession.get? (s.targetOf delivery) with
  | none => rfl
  | some active =>
    rw [h.lanes _ active hlane] at hlater
    simp only [Bool.and_eq_true, Bool.not_eq_true'] at hlater ⊢
    refine ⟨hlater.1, ?_⟩
    rw [← Bool.not_eq_true]
    intro hsidecar
    rw [h.sidecars _ hsidecar] at hlater
    cases hlater.2

theorem Busier.waitingAfter (h : s.Busier t) :
    t.waitingAfter nowMs waiting deliveries = s.waitingAfter nowMs waiting deliveries := by
  induction deliveries generalizing waiting with
  | nil => rfl
  | cons first rest ih => rw [ControllerState.waitingAfter, ControllerState.waitingAfter, h.target, ih]

theorem Busier.dispatchableFrom (h : s.Busier t)
    (hnone : s.dispatchableFrom nowMs waiting deliveries = false) :
    t.dispatchableFrom nowMs waiting deliveries = false := by
  induction deliveries generalizing waiting with
  | nil => rfl
  | cons first rest ih =>
    rw [dispatchableFrom_cons, Bool.or_eq_false_iff] at *
    rw [h.target]
    exact ⟨h.takes hnone.1, ih hnone.2⟩

/-! ## The walk -/

/-- The deliveries that a walk has kept could not be handed out, and the targets that they wait for are
known. -/
structure Refused (s : ControllerState) (nowMs : Int) (kept : List BotDelivery)
    (waiting : List String) : Prop where
  waiting : waiting = s.waitingAfter nowMs [] kept
  none : s.dispatchableFrom nowMs [] kept = false

theorem Refused.busier (h : s.Refused nowMs kept waiting) (hbusier : s.Busier t) :
    t.Refused nowMs kept waiting :=
  ⟨h.waiting.trans hbusier.waitingAfter.symm, hbusier.dispatchableFrom h.none⟩

theorem Refused.keep (h : s.Refused nowMs kept waiting)
    (hrefused : s.takes nowMs waiting delivery = false) :
    s.Refused nowMs (kept ++ [delivery])
      (if delivery.waiting nowMs then s.targetOf delivery :: waiting else waiting) := by
  constructor
  · rw [waitingAfter_append, ← h.waiting]
    rfl
  · rw [dispatchableFrom_append, h.none, ← h.waiting, dispatchableFrom_cons, hrefused]
    rfl

/-- A walk ends with the day's budget spent, or with nothing in the queue that could be handed out. -/
theorem dispatchFrom_exhausts (h : s.Refused nowMs kept waiting) :
    (s.dispatchFrom nowMs kept rest waiting).1.budgetExhaustedView nowMs = true ∨
      (s.dispatchFrom nowMs kept rest waiting).1.dispatchableFrom nowMs []
        (s.dispatchFrom nowMs kept rest waiting).1.pendingDeliveries = false := by
  induction rest generalizing s kept waiting with
  | nil =>
    have hend : s.Busier { s with pendingDeliveries := kept } :=
      ⟨fun _ => rfl, fun _ => rfl, fun _ _ h => h, fun _ h => h⟩
    exact .inr (hend.dispatchableFrom h.none)
  | cons delivery rest ih =>
    have h := h.busier (busier_rollBudgetDay : s.Busier (s.rollBudgetDay nowMs))
    rw [dispatchFrom]
    generalize s.rollBudgetDay nowMs = s at h ⊢
    dsimp only
    by_cases hspent : s.budgetExhaustedView nowMs = true
    · rw [if_pos hspent]
      exact .inl hspent
    rw [if_neg hspent]
    by_cases hwait : delivery.waiting nowMs = true
    · -- It waits: what is behind it for the same target waits too.
      have hrefused : s.takes nowMs waiting delivery = false := by simp [takes, hwait]
      have hkeep := h.keep hrefused
      rw [if_pos hwait] at hkeep ⊢
      exact ih hkeep
    rw [if_neg hwait]
    have hkeep : s.takes nowMs waiting delivery = false →
        s.Refused nowMs (kept ++ [delivery]) waiting := by
      intro hrefused
      have hkeep := h.keep hrefused
      rwa [if_neg hwait] at hkeep
    by_cases hheld : (waiting.contains (s.targetOf delivery) ||
        s.targetHeld (s.targetOf delivery)) = true
    · rw [if_pos hheld]
      apply ih
      apply hkeep
      rw [← Bool.not_eq_true]
      intro htakes
      simp only [takes, Bool.and_eq_true, Bool.not_eq_true'] at htakes
      rw [htakes.1.1.2, htakes.1.2] at hheld
      cases hheld
    rw [if_neg hheld]
    split
    next occupied hoccupied =>
      by_cases hbeside : (occupied.runId.isSome && delivery.whenBusy != .queue &&
          !s.sidecarBySession.contains (s.targetOf delivery)) = true
      · rw [if_pos hbeside]
        exact ih (h.busier busier_takeSidecar)
      · rw [if_neg hbeside]
        apply ih
        apply hkeep
        have hnot : s.targetTakes delivery = false := by
          unfold targetTakes
          rw [hoccupied]
          exact Bool.not_eq_true _ ▸ hbeside
        rw [takes, hnot, Bool.and_false]
    next hfree => exact ih (h.busier (busier_takeLane hfree))

/-- A walk on the day of the budget hands out a delivery when one could be. -/
theorem dispatchFrom_acts (hday : s.runDay = utcDay nowMs)
    (hbudget : s.budgetExhaustedView nowMs = false)
    (hsome : s.dispatchableFrom nowMs waiting rest = true) :
    (s.dispatchFrom nowMs kept rest waiting).2 ≠ [] := by
  induction rest generalizing kept waiting with
  | nil => cases hsome
  | cons delivery rest ih =>
    rw [dispatchFrom, rollBudgetDay_of_runDay hday]
    dsimp only
    rw [if_neg (Bool.not_eq_true _ ▸ hbudget)]
    rw [dispatchableFrom] at hsome
    by_cases hwait : delivery.waiting nowMs = true
    · rw [if_pos hwait] at hsome ⊢
      exact ih hsome
    rw [if_neg hwait] at hsome ⊢
    by_cases hheld : (waiting.contains (s.targetOf delivery) ||
        s.targetHeld (s.targetOf delivery)) = true
    · rw [if_pos hheld] at hsome ⊢
      exact ih hsome
    rw [if_neg hheld] at hsome ⊢
    split
    next occupied hoccupied =>
      by_cases hbeside : (occupied.runId.isSome && delivery.whenBusy != .queue &&
          !s.sidecarBySession.contains (s.targetOf delivery)) = true
      · rw [if_pos hbeside]
        exact List.cons_ne_nil _ _
      · rw [if_neg hbeside]
        rw [hoccupied, Bool.or_eq_true] at hsome
        exact ih (hsome.resolve_left hbeside)
    next => exact List.cons_ne_nil _ _

/-- A walk takes apart what it has before it, and leaves the rest behind what it kept. -/
theorem dispatchFrom_takesApart : ∃ left,
    (s.dispatchFrom nowMs kept rest waiting).1.pendingDeliveries = kept ++ left ∧
      TakenApart ((s.dispatchFrom nowMs kept rest waiting).2.map DispatchAction.delivery) left rest := by
  induction rest generalizing s kept waiting with
  | nil => exact ⟨[], (List.append_nil kept).symm, .nil⟩
  | cons delivery rest ih =>
    -- What is behind a delivery that is kept or taken is taken apart as before.
    have hkeep : ∀ (s : ControllerState) (waiting : List String), ∃ left,
        (s.dispatchFrom nowMs (kept ++ [delivery]) rest waiting).1.pendingDeliveries = kept ++ left ∧
          TakenApart ((s.dispatchFrom nowMs (kept ++ [delivery]) rest waiting).2.map
            DispatchAction.delivery) left (delivery :: rest) := by
      intro s waiting
      obtain ⟨left, hleft, hapart⟩ := @ih s (kept ++ [delivery]) waiting
      exact ⟨delivery :: left, by rw [hleft, List.append_assoc, List.singleton_append],
        .left delivery hapart⟩
    have htake : ∀ (s : ControllerState) (action : DispatchAction), action.delivery = delivery → ∃ left,
        (s.dispatchFrom nowMs kept rest waiting).1.pendingDeliveries = kept ++ left ∧
          TakenApart ((action :: (s.dispatchFrom nowMs kept rest waiting).2).map
            DispatchAction.delivery) left (delivery :: rest) := by
      intro s action haction
      obtain ⟨left, hleft, hapart⟩ := @ih s kept waiting
      exact ⟨left, hleft, by rw [List.map_cons, haction]; exact .taken delivery hapart⟩
    rw [dispatchFrom]
    generalize s.rollBudgetDay nowMs = s
    dsimp only
    split_ifs with hspent hwait hheld
    · exact ⟨delivery :: rest, rfl, .none _⟩
    · exact hkeep s _
    · exact hkeep s _
    · split
      · split_ifs
        · exact htake _ (.sidecar delivery _) rfl
        · exact hkeep s _
      · exact htake _ (.lane delivery _) rfl

/-- Dispatch leaves nothing that would wake the loop, takes something when the wake-up says that there is
something on the day of the budget, and takes the queue apart into what its actions carry and the rest. -/
theorem dispatch_agrees (s : ControllerState) (nowMs : Int) :
    (s.dispatch nowMs).1.dispatchable nowMs = false ∧
      (s.dispatchable nowMs = true → s.runDay = utcDay nowMs → (s.dispatch nowMs).2 ≠ []) ∧
      TakenApart ((s.dispatch nowMs).2.map DispatchAction.delivery)
        (s.dispatch nowMs).1.pendingDeliveries s.pendingDeliveries := by
  refine ⟨?_, fun hsome hday => ?_, ?_⟩
  · have hstart : s.Refused nowMs [] [] := ⟨rfl, rfl⟩
    unfold dispatchable
    split_ifs with hnone
    · rfl
    · have hexhausts : (s.dispatchFrom nowMs [] s.pendingDeliveries []).1.budgetExhaustedView nowMs = true ∨ _ :=
        dispatchFrom_exhausts hstart
      rcases hexhausts with hspent | hrest
      · have hspent' : (s.dispatch nowMs).1.budgetExhaustedView nowMs = true := hspent
        rw [hspent', Bool.or_true] at hnone
        exact absurd rfl hnone
      · exact hrest
  · unfold dispatchable at hsome
    split_ifs at hsome with hnone
    rw [Bool.not_eq_true, Bool.or_eq_false_iff] at hnone
    exact dispatchFrom_acts hday hnone.2 hsome
  · unfold dispatch
    obtain ⟨left, hleft, hapart⟩ := dispatchFrom_takesApart
    rw [hleft]
    exact hapart

end ControllerState

end Lightspeed.Bots
