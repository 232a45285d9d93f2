import Lightspeed.Harness.TurnStarts

/-!
# Runs at their turn limit

The counter of a run is the number of its turns in the log (`startsInv_step`), as far as a `u32` counts, and
its limit stays what it was for as long as the run is active (`effective_step`).
-/

namespace Lightspeed.Harness

open Lib

variable {sessionId : SessionId} {s t u : CoreAgentState} {run a b : ActiveRun}
  {entry : CoreAgentEntry} {log later : List CoreAgentEntry} {runId : RunId} {limit : Nat}

/-! ## Turns in the log -/

/-- Whether an event starts a turn of a run. -/
def CoreAgentEvent.startsTurnOf (runId : RunId) : CoreAgentEvent → Bool
  | .turn (.started _ id) => id == runId
  | _ => false

/-- How many turns of a run a log starts. -/
def turnStarts (log : List CoreAgentEntry) (runId : RunId) : Nat :=
  log.countP fun entry => entry.event.startsTurnOf runId

/-- How many turns of a run a plan starts. -/
def plannedStarts (proposals : List CoreAgentEventProposal) (runId : RunId) : Nat :=
  proposals.countP fun proposal => proposal.event.startsTurnOf runId

theorem turnStarts_append (first second : List CoreAgentEntry) (runId : RunId) :
    turnStarts (first ++ second) runId = turnStarts first runId + turnStarts second runId :=
  List.countP_append

theorem turnStarts_one : turnStarts [entry] runId =
    if entry.event.startsTurnOf runId then 1 else 0 := by
  simp [turnStarts, List.countP_cons]

theorem startsTurnOf_iff {event : CoreAgentEvent} : event.startsTurnOf runId = true ↔
    ∃ turnId, event = .turn (.started turnId runId) := by
  constructor
  · intro h
    cases event with
    | turn event =>
      cases event with
      | started turnId id =>
        obtain rfl : id = runId := by simpa [CoreAgentEvent.startsTurnOf] using h
        exact ⟨turnId, rfl⟩
      | _ => cases h
    | _ => cases h
  · rintro ⟨turnId, rfl⟩
    simp [CoreAgentEvent.startsTurnOf]

/-- A turn that starts is one of the active run. -/
theorem active_of_start {turnId : TurnId} (hevent : entry.event = .turn (.started turnId runId))
    (happly : applyEvent s entry = .ok t) : ∃ a, s.runs.active = some a ∧ a.runId = runId := by
  obtain ⟨-, m, hm, -⟩ := applyEvent_eq_ok.mp happly
  rw [applyEventKind, hevent] at hm
  obtain ⟨run, hactive, hrun, -⟩ := turnStarted_eq_ok.mp hm
  exact ⟨run, hactive, hrun⟩

/-- The runs of a state have started the turns that its log starts for them. -/
structure StartsInv (s : CoreAgentState) (log : List CoreAgentEntry) : Prop where
  counted : s.ForActive fun run => run.turnCount = min (turnStarts log run.runId) (u32Bound - 1)
  fresh : ∀ runId, ¬ HasStarted s runId → turnStarts log runId = 0

theorem startsInv_init : StartsInv CoreAgentState.new [] where
  counted := by
    intro run hactive
    cases hactive
  fresh := fun _ _ => rfl

theorem startsInv_fresh (hinv : EntriesInv s) (hledger : LedgerInv s log) (h : StartsInv s log)
    (happly : applyEvent s entry = .ok t) :
    ∀ runId, ¬ HasStarted t runId → turnStarts (log ++ [entry]) runId = 0 := by
  intro runId hfresh
  have hbefore : ¬ HasStarted s runId :=
    fun hstarted => hfresh (hasStarted_step hinv hstarted happly).1
  rw [turnStarts_append, h.fresh runId hbefore, turnStarts_one, if_neg]
  rw [startsTurnOf_iff]
  rintro ⟨turnId, hevent⟩
  obtain ⟨a, hactive, rfl⟩ := active_of_start hevent happly
  exact hbefore (hasStarted_of_active hledger hactive)

theorem startsInv_step (hinv : EntriesInv s) (hledger : LedgerInv s log) (h : StartsInv s log)
    (happly : applyEvent s entry = .ok t) : StartsInv t (log ++ [entry]) := by
  refine ⟨?_, startsInv_fresh hinv hledger h happly⟩
  have hquiet : (∀ runId, entry.event.startsTurnOf runId = false) →
      CountsKept s t → t.ForActive fun run =>
        run.turnCount = min (turnStarts (log ++ [entry]) run.runId) (u32Bound - 1) := by
    intro hnone hkept b hb
    obtain ⟨a, ha, hab⟩ := hkept b hb
    rw [turnStarts_append, turnStarts_one, hnone, if_neg nofun, Nat.add_zero, hab.turnCount, hab.runId]
    exact h.counted a ha
  by_cases hcounts : entry.event.counts = true
  swap
  · refine hquiet (fun runId => ?_) (counted_step hinv (by simpa using hcounts) happly)
    rw [Bool.eq_false_iff]
    intro hstarts
    obtain ⟨turnId, hevent⟩ := startsTurnOf_iff.mp hstarts
    exact hcounts (by rw [hevent]; rfl)
  obtain ⟨-, m, hm, rfl⟩ := applyEvent_eq_ok.mp happly
  cases hevent : entry.event with
  | turn event =>
    rw [applyEventKind, hevent] at hm
    obtain ⟨a, b, ha, hb, hab⟩ := turned_active hm
    intro b' hb'
    obtain rfl : b = b' := Option.mem_unique hb hb'
    have hcount := h.counted a ha
    rw [turnStarts_append, turnStarts_one, hab.turnCount, hab.runId, hevent]
    cases event with
    | started turnId startedId =>
      obtain ⟨run, hactive, hrun, -⟩ := turnStarted_eq_ok.mp hm
      obtain rfl : run = a := Option.mem_unique hactive ha
      rw [TurnEvent.starts, if_pos rfl, CoreAgentEvent.startsTurnOf, if_pos (by simp [hrun]), hcount,
        saturatingAdd32]
      omega
    | _ => simpa [TurnEvent.starts, CoreAgentEvent.startsTurnOf] using hcount
  | run event =>
    rw [applyEventKind, hevent] at hm
    cases event with
    | started startedId =>
      obtain ⟨-, -, queued, rest, hqueue, -, rfl⟩ := started_eq_ok.mp hm
      have hwaits : ¬ HasStarted s queued.runId := by
        intro hstarted
        exact hstarted.waiting queued (hqueue ▸ List.mem_cons_self) rfl
      rintro _ ⟨⟩
      have hnone : turnStarts (log ++ [entry]) queued.runId = 0 := by
        rw [turnStarts_append, h.fresh _ hwaits, turnStarts_one, hevent]
        rfl
      change 0 = min (turnStarts (log ++ [entry]) queued.runId) (u32Bound - 1)
      rw [hnone, Nat.zero_min]
    | _ => rw [hevent] at hcounts; cases hcounts
  | context event =>
    rw [applyEventKind, hevent] at hm
    intro b hb
    obtain ⟨a, ha, hab⟩ := (applyContextEvent_frame hinv hm).active b hb
    rw [turnStarts_append, turnStarts_one, hevent, hab.run]
    exact h.counted a ha
  | _ => rw [hevent] at hcounts; cases hcounts

/-! ## The limit -/

/-- The limit of a run does not change while the run is active. -/
theorem effective_step (hinv : Inv s) (happly : applyEvent s entry = .ok t)
    (ha : s.runs.active = some a) (hb : t.runs.active = some b) :
    b.runId = a.runId ∧ effectiveMaxTurns t b.runConfig = effectiveMaxTurns s a.runConfig := by
  have hsame : entry.event.isRun = false →
      b.runId = a.runId ∧ b.runConfig = a.runConfig := by
    intro hrun
    obtain ⟨a', ha', hab⟩ := (applyEvent_runsFrame hinv.entries hrun happly).active b hb
    obtain rfl : a = a' := Option.mem_unique ha ha'
    exact ⟨hab.runId, hab.runConfig⟩
  cases hlifecycle : entry.event.isLifecycle with
  | true =>
    obtain ⟨-, m, hm, rfl⟩ := applyEvent_eq_ok.mp happly
    cases hevent : entry.event with
    | lifecycle event =>
      obtain ⟨hid, hconfig⟩ := hsame (by rw [hevent]; rfl)
      refine ⟨hid, ?_⟩
      rw [applyEventKind, hevent] at hm
      rw [hconfig]
      cases event with
      | opened config =>
        have hnew := (opened_eq_ok.mp hm).1
        rw [(hinv.idle (by simp [hnew])).1] at ha
        cases ha
      | configChanged config revision =>
        rw [configChanged_idle hm] at ha
        cases ha
      | closed =>
        obtain ⟨-, -, -, -, rfl⟩ := closed_eq_ok.mp hm
        rfl
    | _ => rw [hevent] at hlifecycle; cases hlifecycle
  | false =>
    have hconfig := applyEvent_lifecycle hinv.entries hlifecycle happly
    suffices hkept : b.runId = a.runId ∧ b.runConfig = a.runConfig from
      ⟨hkept.1, by rw [effectiveMaxTurns, effectiveMaxTurns, hkept.2, hconfig]⟩
    cases hrun : entry.event.isRun with
    | false => exact hsame hrun
    | true =>
      obtain ⟨-, m, hm, rfl⟩ := applyEvent_eq_ok.mp happly
      cases hevent : entry.event with
      | run event =>
        rw [applyEventKind, hevent] at hm
        by_cases hstarted : ∃ id, event = .started id
        · obtain ⟨id, rfl⟩ := hstarted
          obtain ⟨-, hnone, -⟩ := started_eq_ok.mp hm
          rw [hnone] at ha
          cases ha
        · have hcounts : (CoreAgentEvent.run event).counts = false := by
            cases event <;> first | rfl | exact absurd ⟨_, rfl⟩ hstarted
          obtain ⟨a', ha', hab⟩ := unturned_run hcounts hm b hb
          obtain rfl : a = a' := Option.mem_unique ha ha'
          exact ⟨hab.runId, hab.runConfig⟩
      | _ => rw [hevent] at hrun; cases hrun

/-- A run short of its limit has started fewer turns. -/
theorem starts_lt (h : StartsInv s log) (hactive : s.runs.active = some run)
    (hlimit : effectiveMaxTurns s run.runConfig = some limit) (hbound : limit < u32Bound)
    (hreached : turnLimitReached s run = false) : turnStarts log run.runId < limit := by
  have hcount := h.counted run hactive
  have hless : ¬ limit ≤ run.turnCount := by
    intro hle
    rw [Bool.eq_false_iff] at hreached
    exact hreached (turnLimitReached_iff.mpr ⟨limit, hlimit, hle⟩)
  omega

/-- A turn that starts leaves its run within the limit. -/
theorem within_step (htakes : Takes s entry) (h : StartsInv s log) (hbound : limit < u32Bound)
    (hlimit : s.ForActive fun run => run.runId = runId →
      effectiveMaxTurns s run.runConfig = some limit)
    (hwithin : turnStarts log runId ≤ limit) : turnStarts (log ++ [entry]) runId ≤ limit := by
  rw [turnStarts_append, turnStarts_one]
  split_ifs with hstarts
  swap
  · exact hwithin
  obtain ⟨turnId, hevent⟩ := startsTurnOf_iff.mp hstarts
  have hknew := htakes.plan
  rw [hevent] at hknew
  obtain ⟨run, hplan, rfl, hreached⟩ := hknew
  exact starts_lt h hplan.active (hlimit run hplan.active rfl) hbound hreached

/-- What a log says of the turns of its runs: they are counted, and within the limit of the active run. -/
structure LimitedInv (s : CoreAgentState) (log : List CoreAgentEntry) : Prop where
  ledger : LedgerInv s log
  starts : StartsInv s log
  within : s.ForActive fun run => ∀ limit, effectiveMaxTurns s run.runConfig = some limit →
    limit < u32Bound → turnStarts log run.runId ≤ limit

theorem limitedInv_init : LimitedInv CoreAgentState.new [] where
  ledger := ledgerInv_init
  starts := startsInv_init
  within := by
    intro run hactive
    cases hactive

theorem limitedInv_step (h : LimitedInv s log) (htakes : Takes s entry)
    (happly : applyEvent s entry = .ok t) : LimitedInv t (log ++ [entry]) := by
  have hinv := htakes.inv
  obtain ⟨base, input, hwarrant⟩ := htakes.warrant
  refine ⟨ledger_step hinv h.ledger hwarrant happly,
    startsInv_step hinv.entries h.ledger h.starts happly, ?_⟩
  intro b hb limit hlimit hbound
  cases hactive : s.runs.active with
  | some a =>
    obtain ⟨hid, heffective⟩ := effective_step hinv happly hactive hb
    rw [heffective] at hlimit
    have hwithin := h.within a hactive limit hlimit hbound
    rw [hid]
    refine within_step htakes h.starts hbound (fun run hrun _ => ?_) hwithin
    obtain rfl : a = run := Option.mem_unique hactive hrun
    exact hlimit
  | none =>
    -- The run starts here, and no turn before its run.
    have hfresh : ¬ HasStarted s b.runId := by
      intro hstarted
      obtain ⟨a, ha, -⟩ := (hasStarted_step hinv.entries hstarted happly).2 b hb rfl
      rw [hactive] at ha
      cases ha
    refine within_step htakes h.starts hbound (fun run hrun => ?_) ?_
    · rw [hactive] at hrun
      cases hrun
    · rw [h.starts.fresh _ hfresh]
      exact Nat.zero_le limit

theorem takes_limited (hw : EventSource.Warranted applyEvent Takes CoreAgentState.new log)
    (h : log.foldlM applyEvent CoreAgentState.new = .ok s) : LimitedInv s log :=
  EventSource.Warranted.preserves (P := LimitedInv) []
    (fun _ _ _ _ hs htakes happly => limitedInv_step hs htakes happly) hw h limitedInv_init

/-- A run with a limit, whether it is still active or has ended. -/
structure LimitedRun (runId : RunId) (limit : Nat) (s : CoreAgentState) (log : List CoreAgentEntry) :
    Prop where
  inv : LimitedInv s log
  started : HasStarted s runId
  effective : s.ForActive fun run =>
    run.runId = runId → effectiveMaxTurns s run.runConfig = some limit
  within : turnStarts log runId ≤ limit

theorem limitedRun_step (hbound : limit < u32Bound) (h : LimitedRun runId limit s log)
    (htakes : Takes s entry) (happly : applyEvent s entry = .ok t) :
    LimitedRun runId limit t (log ++ [entry]) := by
  obtain ⟨hstarted, hactive⟩ := hasStarted_step htakes.inv.entries h.started happly
  refine ⟨limitedInv_step h.inv htakes happly, hstarted, fun b hb hid => ?_,
    within_step htakes h.inv.starts hbound h.effective h.within⟩
  obtain ⟨a, ha, haid⟩ := hactive b hb hid
  rw [(effective_step htakes.inv happly ha hb).2]
  exact h.effective a ha haid

theorem limitedRun_of_active (h : LimitedInv s log) (hactive : s.runs.active = some run)
    (hlimit : effectiveMaxTurns s run.runConfig = some limit) (hbound : limit < u32Bound) :
    LimitedRun run.runId limit s log where
  inv := h
  started := hasStarted_of_active h.ledger hactive
  effective := by
    intro run' hactive' _
    obtain rfl : run = run' := Option.mem_unique hactive hactive'
    exact hlimit
  within := h.within run hactive limit hlimit hbound

/-- Neither the log nor the plan that comes next takes a run beyond its limit. -/
theorem planned_within (hinv : Inv s) (hlimits : LimitInv s) (h : LimitedRun runId limit s log)
    (hbound : limit < u32Bound) {proposals : List CoreAgentEventProposal}
    (hplan : planNext s = .ok proposals) :
    turnStarts log runId + plannedStarts proposals runId ≤ limit := by
  by_cases hstarts : ∃ proposal ∈ proposals, proposal.event.startsTurnOf runId = true
  · obtain ⟨proposal, hmem, hstarts⟩ := hstarts
    obtain ⟨turnId, hevent⟩ := startsTurnOf_iff.mp hstarts
    obtain ⟨run, hknew, rfl, rfl⟩ := startsTurn_of_plan hinv hplan hmem hevent
    have hreached := startsTurn_limit hinv hlimits hknew
    have hlt := starts_lt h.inv.starts hknew.active (h.effective run hknew.active rfl) hbound hreached
    have hone : plannedStarts [turnProposal run.runId (s.idCursors.lastTurnId + 1)
        (.turn (.started (s.idCursors.lastTurnId + 1) run.runId))] run.runId ≤ 1 :=
      List.countP_le_length
    omega
  · have hnone : plannedStarts proposals runId = 0 := by
      rw [plannedStarts, List.countP_eq_zero]
      exact fun proposal hmem hstart => hstarts ⟨proposal, hmem, hstart⟩
    rw [hnone]
    exact h.within

end Lightspeed.Harness
