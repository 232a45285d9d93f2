import Lightspeed.Bots.LaneTable

/-!
# The daily budget

With a constant number of runs for a day, the runs that were started and the lanes that are about to
start one stay within it, whatever happens at midnight and however often a start is tried again.
-/

namespace Lightspeed.Bots

open Lib Harness Relation

variable {rules : Rules} {sha256Hex : String → String} {a b : Board} {s : System} {limit : Nat}

/-- Whether it is the start of a run on a day. -/
def beginsOn (day : Int) : Obs → Bool
  | .begun _ _ _ atMs => utcDay atMs = day
  | _ => false

/-- The runs that were started on a day. -/
def begunOn (log : List Obs) (day : Int) : Nat := log.countP (beginsOn day)

theorem begunOn_append (log more : List Obs) (day : Int) :
    begunOn (log ++ more) day = begunOn log day + begunOn more day := List.countP_append ..

/-- Every configuration so far has the same budget. -/
def ConstantBudget (limit : Nat) (log : List Obs) : Prop :=
  ∀ config, .configured config ∈ log → config.runsPerDay = some limit

/-- What the moves keep of a budget that does not change. -/
structure Board.Budgeted (limit : Nat) (b : Board) : Prop where
  configured : .configured b.view.main.config ∈ b.log
  reserved : b.view.runsToday + b.view.pendingStarts ≤ limit
  counted : b.view.runsToday = begunOn b.log b.view.runDay
  bounded : ∀ day, begunOn b.log day ≤ limit
  past : ∀ day, b.view.runDay < day → begunOn b.log day = 0
  today : b.view.runDay ≤ utcDay b.nowMs

theorem utcDay_le {n m : Int} (h : n ≤ m) : utcDay n ≤ utcDay m := by
  have hday : ∀ k : Int, utcDay k = k / msPerDay := fun k =>
    Int.fdiv_eq_ediv_of_nonneg k (by decide)
  rw [hday, hday]
  exact Int.ediv_le_ediv (by decide) h

/-- The lanes that are about to start a run, without one and with it. -/
def startsOf (lanes : Multiset Hold) : Nat :=
  lanes.countP fun l => l.started = false ∧ l.delivery.whenBusy ≠ .append

theorem pendingStarts_eq (v : View) : v.pendingStarts = startsOf v.lanes := rfl

theorem startsOf_cons (h : Hold) (rest : Multiset Hold) :
    startsOf (h ::ₘ rest) = startsOf rest +
      if h.started = false ∧ h.delivery.whenBusy ≠ .append then 1 else 0 :=
  Multiset.countP_cons ..

/-- A view with the same lanes and the same count. -/
theorem Board.Budgeted.of_same (ha : a.Budgeted limit)
    (hconfig : .configured b.view.main.config ∈ b.log) (hlanes : startsOf b.view.lanes ≤
      startsOf a.view.lanes) (hruns : b.view.runsToday = a.view.runsToday)
    (hday : b.view.runDay = a.view.runDay) (hlog : ∀ day, begunOn b.log day = begunOn a.log day)
    (hnow : a.nowMs ≤ b.nowMs) : b.Budgeted limit where
  configured := hconfig
  reserved := by
    have := ha.reserved
    rw [pendingStarts_eq] at this ⊢
    rw [hruns]
    omega
  counted := by rw [hruns, hday, hlog, ha.counted]
  bounded day := by rw [hlog]; exact ha.bounded day
  past day hlt := by
    rw [hlog]
    exact ha.past day (hday ▸ hlt)
  today := by
    rw [hday]
    exact ha.today.trans (utcDay_le hnow)

theorem startsOf_le {lanes more : Multiset Hold} (h : lanes ≤ more) : startsOf lanes ≤ startsOf more :=
  Multiset.countP_le_of_le _ h

/-- What a lane reports of its wait does not matter. -/
theorem startsOf_map {f : Hold → Hold} (hf : ∀ l, (f l).started = l.started ∧
    (f l).delivery = l.delivery) (lanes : Multiset Hold) : startsOf (lanes.map f) = startsOf lanes := by
  induction lanes using Multiset.induction_on with
  | empty => rfl
  | cons h rest ih =>
    obtain ⟨hstarted, hdelivery⟩ := hf h
    rw [Multiset.map_cons, startsOf_cons, startsOf_cons, ih, hstarted, hdelivery]

/-- A log that only grew by what starts no run. -/
theorem begunOn_quiet {log more : List Obs} (hmore : ∀ obs ∈ more, ∀ day, beginsOn day obs = false)
    (day : Int) : begunOn (log ++ more) day = begunOn log day := by
  have hzero : begunOn more day = 0 :=
    List.countP_eq_zero.mpr fun obs hobs => by simp [hmore obs hobs day]
  rw [begunOn_append, hzero, Nat.add_zero]

/-- Rolling the day resets the count, and nothing was started on the new day. -/
theorem Board.Budgeted.roll (ha : a.Budgeted limit) :
    ({ a with view := a.view.roll a.nowMs } : Board).Budgeted limit := by
  by_cases hday : utcDay a.nowMs ≠ a.view.runDay
  · have hroll : a.view.roll a.nowMs =
        { a.view with runDay := utcDay a.nowMs, runsToday := 0 } := if_pos hday
    have hlt : a.view.runDay < utcDay a.nowMs := lt_of_le_of_ne ha.today hday.symm
    rw [hroll]
    have hreserved := ha.reserved
    rw [pendingStarts_eq] at hreserved
    refine ⟨ha.configured, ?_, (ha.past _ hlt).symm, ha.bounded, fun day hafter => ?_, le_refl _⟩
    · show 0 + startsOf a.view.lanes ≤ limit
      omega
    · exact ha.past day (hlt.trans hafter)
  · have hroll : a.view.roll a.nowMs = a.view := if_neg hday
    rw [hroll]
    exact ha

theorem runDay_roll (v : View) (nowMs : Int) : (v.roll nowMs).runDay = utcDay nowMs := by
  unfold View.roll
  split_ifs with hday
  · rfl
  · exact (not_not.mp hday).symm

/-- A run that starts on the day that the budget is of, out of a reserve. -/
theorem Board.Budgeted.start (ha : a.Budgeted limit) (delivery : BotDelivery)
    (target runId : String) (hroom : a.view.runsToday + startsOf a.view.lanes + 1 ≤ limit)
    (hday : a.view.runDay = utcDay a.nowMs) :
    ({ a with
      view := { a.view with runsToday := a.view.runsToday + 1 }
      log := a.log ++ [.begun delivery target runId a.nowMs] } : Board).Budgeted limit := by
  have hcount : ∀ day, begunOn (a.log ++ [.begun delivery target runId a.nowMs]) day =
      begunOn a.log day + if utcDay a.nowMs = day then 1 else 0 := by
    intro day
    rw [begunOn_append]
    simp [begunOn, beginsOn, List.countP_cons]
  refine ⟨List.mem_append_left _ ha.configured, ?_, ?_, fun day => ?_, fun day hafter => ?_, ha.today⟩
  · show a.view.runsToday + 1 + startsOf a.view.lanes ≤ limit
    omega
  · show a.view.runsToday + 1 = begunOn _ a.view.runDay
    rw [hcount, if_pos hday.symm, ha.counted]
  · show begunOn _ day ≤ limit
    rw [hcount]
    split_ifs with hsame
    · have hruns : begunOn a.log day = a.view.runsToday := by rw [ha.counted, hday, hsame]
      omega
    · exact ha.bounded day
  · show begunOn _ day = 0
    have hafter : a.view.runDay < day := hafter
    rw [hcount, ha.past day hafter, if_neg]
    omega

/-- Every move keeps a budget that does not change. -/
theorem Board.Budgeted.move (hmove : Move rules a b) (howned : a.Owned) (hnone : NoneDisplaced b.log)
    (hconstant : ConstantBudget limit b.log) (ha : a.Budgeted limit) : b.Budgeted limit := by
  have hquiet : ∀ more : List Obs, (∀ obs ∈ more, ∀ day, beginsOn day obs = false) →
      ∀ day, begunOn (a.log ++ more) day = begunOn a.log day := fun more hmore => begunOn_quiet hmore
  cases hmove with
  | tick nowMs hle => exact ha.of_same ha.configured (le_refl _) rfl rfl (fun _ => rfl) hle
  | configure next hid =>
    refine ha.of_same (List.mem_append_right _ List.mem_cons_self) (le_refl _) rfl rfl ?_ (le_refl _)
    exact hquiet _ (by simp [beginsOn])
  | ready request profileRevision hr current | accept event hroute
  | openBuffer event buffer hroute hevents hsession
  | joinBuffer event buffer joined rest hbuffers hevents hsession
  | flush buffer rest delivery hbuffers hevents hsession hcore | asideDone held rest hasides =>
    refine ha.of_same (List.mem_append_left _ ha.configured) (le_refl _) rfl rfl ?_ (le_refl _)
    exact hquiet _ (by simp [beginsOn])
  | rollDay => exact ha.roll
  | take before after delivery target hpending hfree hfirst hid hday hbudget aligned =>
    have hlimit : a.view.main.config.runsPerDay = some limit := hconstant _ ha.configured
    have hroom := hbudget limit hlimit
    refine ⟨ha.configured, ?_, ha.counted, ha.bounded, ha.past, ha.today⟩
    show a.view.runsToday + startsOf (_ ::ₘ a.view.lanes) ≤ limit
    rw [pendingStarts_eq] at hroom
    rw [startsOf_cons]
    split_ifs <;> omega
  | rekey h rest target displaced hholds hdisplaced hid =>
    have hb := howned.move (.rekey a h rest target displaced hholds hdisplaced hid) hnone
    have hlanes : (a.view.rekey h.target target).lanes = { h with target } ::ₘ rest := hb.lanes
    refine ha.of_same (List.mem_append_left _ ha.configured) ?_ rfl rfl ?_ (le_refl _)
    · rw [hlanes, howned.lanes, hholds, startsOf_cons, startsOf_cons]
    · exact hquiet _ (by simp [beginsOn])
  | requeue h rest delivery hholds hstarted hcore | drop h rest hholds hevents
  | renew dirty seen hdirty hseen hparked hcount =>
    exact ha.of_same ha.configured (startsOf_le (Multiset.filter_le _ _)) rfl rfl (fun _ => rfl)
      (le_refl _)
  | begin h rest runId hholds hstarted hparked hbusy =>
    obtain ⟨hlanes, -⟩ := howned.marked (f := fun l => { l with started := true }) hholds rfl
    have hbefore : startsOf a.view.lanes = startsOf rest + 1 := by
      rw [howned.lanes, hholds, startsOf_cons, if_pos ⟨hstarted, hbusy⟩]
    have hafter : startsOf (a.view.mark h.target fun l => { l with started := true }).lanes =
        startsOf rest := by
      rw [hlanes, startsOf_cons, if_neg (by simp), Nat.add_zero]
    have hreserved := ha.reserved
    rw [pendingStarts_eq] at hreserved
    have hmarked : ({ a with
        view := a.view.mark h.target fun l => { l with started := true } } : Board).Budgeted limit :=
      ha.of_same ha.configured (by rw [hafter, hbefore]; omega) rfl rfl (fun _ => rfl) (le_refl _)
    suffices hroom : ((a.view.mark h.target fun l => { l with started := true }).roll a.nowMs).runsToday +
        startsOf ((a.view.mark h.target fun l => { l with started := true }).roll a.nowMs).lanes + 1 ≤
          limit by
      have hstart := hmarked.roll.start h.delivery h.target runId hroom (runDay_roll _ _)
      exact ⟨hstart.configured, hstart.reserved, hstart.counted, hstart.bounded, hstart.past,
        hstart.today⟩
    -- The run takes the place of the lane's own reserve, on the old day or on a new one.
    rw [View.roll_lanes, hafter]
    have hruns : ((a.view.mark h.target fun l => { l with started := true }).roll a.nowMs).runsToday ≤
        a.view.runsToday := by
      unfold View.roll
      split_ifs
      · exact Nat.zero_le _
      · exact le_refl _
    omega
  | park h rest hholds hstarted =>
    refine ha.of_same ha.configured ?_ rfl rfl (fun _ => rfl) (le_refl _)
    refine le_of_eq (startsOf_map (fun l => ?_) _)
    split_ifs <;> exact ⟨rfl, rfl⟩
  | finish h rest hholds =>
    refine ha.of_same (List.mem_append_left _ ha.configured) (startsOf_le (Multiset.filter_le _ _)) rfl
      rfl ?_ (le_refl _)
    exact hquiet _ (by simp [beginsOn])
  | archive log hlog =>
    refine ha.of_same (List.mem_append_left _ ha.configured) (le_refl _) rfl rfl ?_ (le_refl _)
    refine hquiet _ fun obs hobs day => ?_
    obtain ⟨eventIds, rfl⟩ := hlog obs hobs
    rfl
  | _ => exact ha.of_same ha.configured (le_refl _) rfl rfl (fun _ => rfl) (le_refl _)

theorem initial_budgeted (h : System.Initial s) : s.board.Budgeted limit := by
  obtain ⟨config, mainGeneration, sessionGenerations, nowMs, rfl⟩ := h.eq_start
  exact ⟨List.mem_cons_self, Nat.zero_le _, rfl, fun _ => Nat.zero_le _, fun _ _ => rfl, le_refl _⟩

/-- With `limit` runs for a day throughout, and no lane put in another's place: the runs of the day and
the lanes that are about to start one stay within the limit, the count is that of the runs that were
started on the budget's day, and no day sees more starts than the limit. -/
theorem daily_budget_kept (h : (System.controller sha256Hex).Reaches s)
    (hconstant : ConstantBudget limit s.log) (hnone : NoneDisplaced s.log) :
    s.state.runsToday + s.state.activeBySession.values.countP ControllerState.pendingStart ≤ limit ∧
      (∀ day, begunOn s.log day ≤ limit) ∧ s.state.runsToday = begunOn s.log s.state.runDay := by
  have hmove : ∀ a b, Move ⟨False, False⟩ a b → a.Owned → NoneDisplaced b.log →
      (ConstantBudget limit a.log → a.Budgeted limit) →
        ConstantBudget limit b.log → b.Budgeted limit := by
    intro a b hmove howned hnone ha hconstant
    obtain ⟨more, hmore⟩ := hmove.log_grows
    have hearlier : ConstantBudget limit a.log := fun config hconfig =>
      hconstant config (hmore ▸ List.mem_append_left _ hconfig)
    exact (ha hearlier).move hmove howned hnone hconstant
  have hinit : ∀ s : System, System.Initial s → ConstantBudget limit s.board.log →
      s.board.Budgeted limit := fun _ hs _ => initial_budgeted hs
  have hb := (reaches_owned_board hinit hmove h hnone).2 hconstant
  refine ⟨?_, hb.bounded, hb.counted⟩
  rw [← ControllerState.view_pendingStarts]
  exact hb.reserved

/-- A controller that may start one run a day. -/
def dailyConfig : BotControllerConfig := { triageConfig with runsPerDay := some 1 }

def dailyStart : System :=
  .start { config := dailyConfig, carry := some {} } 1000 [.configured dailyConfig]

theorem dailyStart_initial : System.Initial dailyStart := ⟨dailyConfig, 0, ∅, 1000, rfl⟩

/-- The first pass counts the day's sub-agents, and its event is taken by a lane. -/
def dailyDispatched : List System.Input :=
  [.botEvent triageEvent, .loop .woken] ++ List.replicate 9 (.run false) ++ [.loop (.counted 0)] ++
    List.replicate 3 (.run false) ++ [.loop (.ensured 1 []), .run false]

/-- A lane that is about to start the day's one run. -/
theorem daily_budget_kept_triage : ∃ s, (System.controller id).Reaches s ∧
    s.state.activeBySession.values.countP ControllerState.pendingStart = 1 ∧
    s.state.runsToday + s.state.activeBySession.values.countP ControllerState.pendingStart ≤ 1 ∧
      (∀ day, begunOn s.log day ≤ 1) ∧ s.state.runsToday = begunOn s.log s.state.runDay := by
  obtain ⟨s, hs, hlane, hlog⟩ : ∃ s ∈ (System.controller id).exec dailyStart dailyDispatched,
      s.state.activeBySession.values.countP ControllerState.pendingStart = 1 ∧
        s.log = [.configured dailyConfig, .accepted triageEvent, .queued (.single triageEvent),
          .ready triageRequest 1] := by decide +kernel
  have hreach := Machine.exec_reaches dailyStart_initial hs
  have hconstant : ConstantBudget 1 s.log := by
    rw [hlog]
    simp [ConstantBudget, dailyConfig]
  have hnone : NoneDisplaced s.log := by
    rw [hlog]
    simp [NoneDisplaced]
  exact ⟨s, hreach, hlane, daily_budget_kept hreach hconstant hnone⟩

end Lightspeed.Bots
