import Lightspeed.Harness.TurnStarts

/-!
# The entry guard

A session whose context holds `entryGuardLimit` entries makes room before another turn, or ends its run. The
first part of `entry_guard` is `startsTurn_entries`. The second is about the one attempt that a run has: the
request spends it (`guard_spent`), nothing but a success below the limit gives it back (`guard_step`), and
the planner asks for nothing while it is spent (`guard_unspent`).
-/

namespace Lightspeed.Harness

open Lib

variable {sessionId : SessionId} {s t u v : CoreAgentState} {entry first second : CoreAgentEntry}
  {log before between after : List CoreAgentEntry} {runId : RunId}

/-- An entry that asks for a compaction of a run at the entry guard. -/
structure GuardRequest (s : CoreAgentState) (runId : RunId) (entry : CoreAgentEntry) : Prop where
  trigger : entry.event.trigger = some .highWatermark
  full : entryGuardLimit ≤ s.context.entries.length
  run : ∃ run, s.runs.active = some run ∧ run.runId = runId

/-- The run is past its attempt at the guard: it is active with the attempt spent, or it has ended. -/
structure GuardSpent (s : CoreAgentState) (runId : RunId) : Prop where
  started : HasStarted s runId
  spent : s.ForActive fun run => run.runId = runId → run.entryGuardAttempted = true

/-- Who asks at the guard has its attempt left. -/
theorem guard_unspent (htakes : Takes s entry) (h : GuardRequest s runId entry) :
    ∃ run, s.runs.active = some run ∧ run.runId = runId ∧ run.entryGuardAttempted = false := by
  obtain ⟨run, hactive, hrun⟩ := h.run
  have hknew := htakes.plan
  cases hevent : entry.event with
  | context event =>
    have htrigger := h.trigger
    rw [hevent] at htrigger hknew
    cases event with
    | compactionRequested baseRevision trigger plan =>
      obtain rfl : trigger = .highWatermark := Option.some.inj htrigger
      obtain ⟨proposal, hnext, hasks⟩ := hknew.resolve_left nofun
      obtain ⟨run', hactive', hunspent⟩ := guard_of_request hnext hasks h.full
      obtain rfl : run = run' := Option.mem_unique hactive hactive'
      exact ⟨run, hactive, hrun, hunspent⟩
    | _ => cases htrigger
  | _ =>
    have htrigger := h.trigger
    rw [hevent] at htrigger
    cases htrigger

/-- The request spends the attempt. -/
theorem guard_spent (hstarted : HasStarted s runId) (hinv : EntriesInv s)
    (h : GuardRequest s runId entry) (happly : applyEvent s entry = .ok t) : GuardSpent t runId := by
  refine ⟨(hasStarted_step hinv hstarted happly).1, ?_⟩
  obtain ⟨-, m, hm, rfl⟩ := applyEvent_eq_ok.mp happly
  change m.ForActive _
  have htrigger := h.trigger
  cases hevent : entry.event with
  | context event =>
    rw [applyEventKind, hevent] at hm
    rw [hevent] at htrigger
    cases event with
    | compactionRequested baseRevision trigger plan =>
      obtain rfl : trigger = .highWatermark := Option.some.inj htrigger
      intro b hb _
      rw [(requested_active hm).1] at hb
      obtain ⟨a, -, rfl⟩ := Option.map_eq_some_iff.mp hb
      rw [recordCompactionAttempt_eq]
      simp [h.full]
    | _ => cases htrigger
  | _ => rw [hevent] at htrigger; cases htrigger

/-- Only a compaction that succeeds below the limit gives the attempt back. -/
theorem guard_step (hinv : EntriesInv s) (h : GuardSpent s runId)
    (happly : applyEvent s entry = .ok t) :
    GuardSpent t runId ∨ t.context.entries.length < entryGuardLimit := by
  obtain ⟨hstarted, hactive⟩ := hasStarted_step hinv h.started happly
  by_cases hcounts : entry.event.counts = true
  swap
  · refine .inl ⟨hstarted, fun b hb hid => ?_⟩
    obtain ⟨a, ha, hab⟩ := counted_step hinv (by simpa using hcounts) happly b hb
    rw [hab.guard]
    exact h.spent a ha (hab.runId ▸ hid)
  obtain ⟨-, m, hm, rfl⟩ := applyEvent_eq_ok.mp happly
  cases hevent : entry.event with
  | turn event =>
    rw [applyEventKind, hevent] at hm
    refine .inl ⟨hstarted, fun b hb hid => ?_⟩
    obtain ⟨a, b', ha, hb', hab⟩ := turned_active hm
    obtain rfl : b' = b := Option.mem_unique hb' hb
    rw [hab.guard]
    exact h.spent a ha (hab.runId ▸ hid)
  | run event =>
    rw [applyEventKind, hevent] at hm
    cases event with
    | started startedId =>
      -- The run that starts is another one.
      refine .inl ⟨hstarted, fun b hb hid => ?_⟩
      obtain ⟨a, ha, -⟩ := hactive b hb hid
      obtain ⟨-, hnone, -⟩ := started_eq_ok.mp hm
      rw [hnone] at ha
      cases ha
    | _ => rw [hevent] at hcounts; cases hcounts
  | context event =>
    rw [applyEventKind, hevent] at hm
    cases event with
    | compactionRequested baseRevision trigger plan =>
      refine .inl ⟨hstarted, fun b hb hid => ?_⟩
      change m.runs.active = some b at hb
      rw [(requested_active hm).1] at hb
      obtain ⟨a, ha, rfl⟩ := Option.map_eq_some_iff.mp hb
      rw [recordCompactionAttempt_runId] at hid
      rw [recordCompactionAttempt_eq]
      simp [h.spent a ha hid]
    | compactionFinished baseRevision status failureRef usage calls =>
      obtain ⟨-, -, -, rfl⟩ := compactionFinished_eq_ok.mp hm
      by_cases hrecovered : status = .succeeded ∧ s.context.entries.length < entryGuardLimit
      · exact .inr hrecovered.2
      · refine .inl ⟨hstarted, fun b hb hid => ?_⟩
        obtain ⟨a, ha, rfl⟩ := Option.map_eq_some_iff.mp hb
        dsimp only
        rw [if_neg hrecovered]
        exact h.spent a ha hid
    | _ => rw [hevent] at hcounts; cases hcounts
  | _ => rw [hevent] at hcounts; cases hcounts

/-- No plan starts a turn of a session whose context holds `entryGuardLimit` entries or more. And where a run
asks for two compactions at the guard, the context was below it in between. -/
theorem entry_guard (h : Reachable sessionId s log) :
    (∀ proposals, planNext s = .ok proposals → entryGuardLimit ≤ s.context.entries.length →
      ∀ proposal ∈ proposals, ∀ turnId runId, proposal.event ≠ .turn (.started turnId runId)) ∧
    ∀ before first between second after u v runId,
      log = before ++ first :: between ++ second :: after →
      before.foldlM applyEvent CoreAgentState.new = .ok u →
      (before ++ first :: between).foldlM applyEvent CoreAgentState.new = .ok v →
      GuardRequest u runId first → GuardRequest v runId second →
      ∃ front back w, between = front ++ back ∧
        (before ++ first :: front).foldlM applyEvent CoreAgentState.new = .ok w ∧
        w.context.entries.length < entryGuardLimit := by
  constructor
  · intro proposals hplan hfull proposal hmem turnId runId hevent
    obtain ⟨hinv, -⟩ := reachable_inv h
    obtain ⟨run, hstarts, -⟩ := startsTurn_of_plan hinv hplan hmem hevent
    have hroom := startsTurn_entries hinv (reachable_limitInv h) hstarts
    omega
  · rintro before first between second after u v runId rfl hu hv hfirst hsecond
    have hall := reachable_warranted h
    have hfront : EventSource.Warranted applyEvent Takes u (first :: between) := hall.left.right hu
    obtain ⟨u', hu', hbetween⟩ := foldlM_append_eq_ok.mp hv
    obtain rfl : u = u' := Except.ok.inj (hu.symm.trans hu')
    obtain ⟨m, hm, hbetween⟩ := foldlM_cons_eq_ok.mp hbetween
    have hspent : GuardSpent m runId := by
      obtain ⟨run, hactive, rfl, -⟩ := guard_unspent hfront.1 hfirst
      have hledger : LedgerInv u before := takes_ledger hall.left.left hu
      exact guard_spent (hasStarted_of_active hledger hactive) hfront.1.inv.entries hfirst hm
    rcases (hfront.2 m hm).keeps_until
        (fun _ _ _ hspent htakes happly => guard_step htakes.inv.entries hspent happly) hbetween
        hspent with hstill | ⟨front, back, w, rfl, hw, hroom⟩
    · -- The second request finds the attempt spent.
      obtain ⟨run, hactive, hid, hunspent⟩ := guard_unspent (hall.right hv).1 hsecond
      rw [hstill.spent run hactive hid] at hunspent
      cases hunspent
    · exact ⟨front, back, w, rfl, foldlM_append_eq_ok.mpr ⟨u, hu, foldlM_cons_eq_ok.mpr ⟨m, hm, hw⟩⟩,
        hroom⟩

theorem entry_guard_twoRuns : ∃ s log, (drive "session").exec twoRuns = some (s, log) ∧
    ∀ proposals, planNext s = .ok proposals → entryGuardLimit ≤ s.context.entries.length →
      ∀ proposal ∈ proposals, ∀ turnId runId, proposal.event ≠ .turn (.started turnId runId) := by
  have hsome : ((drive "session").exec twoRuns).isSome = true := by decide +kernel
  obtain ⟨⟨s, log⟩, hexec⟩ := Option.isSome_iff_exists.mp hsome
  exact ⟨s, log, hexec, (entry_guard (EventSource.exec_reaches hexec)).1⟩

end Lightspeed.Harness
