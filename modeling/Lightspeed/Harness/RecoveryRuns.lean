import Lightspeed.Harness.MakingWay

/-!
# Runs that overflow

A run that overflowed stays as it is until the overflow is resolved or the run is cancelled
(`overflowed_append`), and the next actions resolve it within `overflowRank` (`overflow_actions`).
-/

namespace Lightspeed.Harness

open Lib

variable {sessionId : SessionId} {base s t u : CoreAgentState} {run : ActiveRun} {turn : TurnState}
  {input : DriveInput} {entry : CoreAgentEntry} {proposals : List CoreAgentEventProposal}
  {log entries : List CoreAgentEntry} {ms : Nat} {turnId : TurnId}

/-! ## Until it is resolved -/

/-- Whether an event cancels a run, or asks for that. -/
def CoreAgentEvent.cancelsRun : CoreAgentEvent → Bool
  | .run (.cancellationRequested _) | .run (.cancelled _) | .run (.forceCancelled _) => true
  | _ => false

theorem isPlannersOwn_stored (event : CoreAgentEvent) : event.stored.isPlannersOwn = event.isPlannersOwn := by
  cases event with
  | run event | turn event | context event => cases event <;> rfl
  | _ => rfl

theorem resolvesOverflow_stored (event : CoreAgentEvent) :
    event.stored.resolvesOverflow = event.resolvesOverflow := by
  cases event with
  | run event | turn event | context event => cases event <;> rfl
  | _ => rfl

/-- The run goes on running. -/
def StillRunning (t : CoreAgentState) (run : ActiveRun) : Prop :=
  ∃ b, t.runs.active = some b ∧ b.runId = run.runId ∧ b.status = .running

theorem stillRunning_run {seq : Nat} {event : RunEvent} (hactive : s.runs.active = some run)
    (hrunning : run.status = .running) (hown : (CoreAgentEvent.run event).isPlannersOwn = false)
    (hresolves : (CoreAgentEvent.run event).resolvesOverflow = false)
    (hcancels : (CoreAgentEvent.run event).cancelsRun = false)
    (happly : applyRunEvent s seq ms event = .ok t) : StillRunning t run := by
  cases applyRunEvent_moves happly with
  | queues hqueues hsame => exact ⟨run, hsame.trans hactive, rfl, hrunning⟩
  | starts hfree =>
    rw [hfree] at hactive
    cases hactive
  | steers hactive' =>
    obtain rfl := Option.mem_unique hactive hactive'
    exact ⟨_, rfl, rfl, hrunning⟩
  | stops => cases hcancels
  | ends hactive' hends =>
    cases event with
    | completed startedId output => cases hown
    | failed startedId failure => cases hresolves
    | cancelled startedId | forceCancelled startedId => cases hcancels
    | _ => cases hends

theorem stillRunning_approval {event : ApprovalEvent} (hactive : s.runs.active = some run)
    (hrunning : run.status = .running) (hnone : run.pendingApprovals = [])
    (happly : applyApprovalEvent s ms event = .ok t) : StillRunning t run := by
  have hsame : ∀ {run'}, s.runs.active = some run' → run' = run :=
    fun hactive' => Option.mem_unique hactive' hactive
  cases event with
  | requested approval =>
    obtain ⟨run', hactive', -, -, -, -, rfl⟩ := approvalRequested_eq_ok.mp happly
    obtain rfl := hsame hactive'
    exact ⟨_, rfl, rfl, hrunning⟩
  | runParked startedId =>
    obtain ⟨run', hactive', -, hpending, -⟩ := runParked_eq_ok.mp happly
    obtain rfl := hsame hactive'
    exact absurd hnone hpending
  | runUnparked startedId =>
    obtain ⟨run', hactive', -, -, rfl⟩ := runUnparked_eq_ok.mp happly
    obtain rfl := hsame hactive'
    exact ⟨_, rfl, rfl, rfl⟩
  | decided id startedId decision note =>
    obtain ⟨run', record, hactive', -, -, -, -, rfl⟩ := decided_eq_ok.mp happly
    obtain rfl := hsame hactive'
    exact ⟨_, rfl, rfl, hrunning⟩
  | cancelled id startedId =>
    obtain ⟨run', record, hactive', -, -, -, -, rfl⟩ := approvalCancelled_eq_ok.mp happly
    obtain rfl := hsame hactive'
    exact ⟨_, rfl, rfl, hrunning⟩

theorem stillRunning_tool {event : ToolEvent} (hactive : s.runs.active = some run)
    (hrunning : run.status = .running) (hidle : run.activeToolBatchId = none)
    (happly : applyToolEvent s event = .ok t) : StillRunning t run := by
  have hsame : ∀ {run'}, s.runs.active = some run' → run' = run :=
    fun hactive' => Option.mem_unique hactive' hactive
  cases applyToolEvent_moves happly with
  | works cursor hworks hactive' hrun =>
    obtain rfl := hsame hactive'
    exact ⟨_, rfl, by rw [hrun], by rw [hrun]; exact hrunning⟩
  | parks hactive' hrunning' hturn hbatch | unparks hactive' hbatch | completes hactive' hbatch =>
    obtain rfl := hsame hactive'
    cases hidle.symm.trans hbatch

/-- A run at a boundary, with no approval pending, goes on running under every event that is not about that. -/
theorem stillRunning_step (hinv : EntriesInv s) (hactive : s.runs.active = some run)
    (hrunning : run.status = .running) (hidle : run.AtBoundary) (hnone : run.pendingApprovals = [])
    (hown : entry.event.isPlannersOwn = false) (hresolves : entry.event.resolvesOverflow = false)
    (hcancels : entry.event.cancelsRun = false) (happly : applyEvent s entry = .ok t) :
    StillRunning t run := by
  obtain ⟨-, m, hm, rfl⟩ := applyEvent_eq_ok.mp happly
  change StillRunning m run
  cases applyEventKind_moves hm with
  | run heq hm => exact stillRunning_run hactive hrunning (heq ▸ hown) (heq ▸ hresolves) (heq ▸ hcancels) hm
  | approval heq hm => exact stillRunning_approval hactive hrunning hnone hm
  | turn heq hm =>
    rcases opened_of_turn hm hactive with ⟨turnId, runId, rfl⟩ | hopen
    · rw [heq] at hown
      cases hown
    · exact absurd hidle.turn hopen
  | context heq hm =>
    obtain ⟨b, hb, hkept⟩ := (applyContextEvent_frame hinv hm).stays hactive
    exact ⟨b, hb, hkept.same.runId, hkept.status.trans hrunning⟩
  | tool heq hm => exact stillRunning_tool hactive hrunning hidle.batch hm
  | rests hspares hruns => exact ⟨run, hruns ▸ hactive, rfl, hrunning⟩

/-- The run has overflowed, and waits for no approval. -/
def StillOverflowed (s : CoreAgentState) (run : ActiveRun) (turnId : TurnId) (turn : TurnState) : Prop :=
  ∃ run', run'.runId = run.runId ∧ Overflowed s run' turnId turn ∧ run'.pendingApprovals = []

theorem stillOverflowed_step (hinv : Inv s) (hwarrant : Warrant base input s entry)
    (h : StillOverflowed s run turnId turn) (hown : entry.event.isPlannersOwn = false)
    (hresolves : entry.event.resolvesOverflow = false) (hcancels : entry.event.cancelsRun = false)
    (happly : applyEvent s entry = .ok t) : StillOverflowed t run turnId turn := by
  obtain ⟨a, haid, hover, hnone⟩ := h
  have hidle := hover.boundary hinv
  obtain ⟨b, hb, hbid, hrunning⟩ := stillRunning_step hinv.entries hover.active hover.running hidle hnone
    hown hresolves hcancels happly
  -- Approvals are asked for while a turn or a batch is open.
  have hunasked : entry.event.requestsApproval = false := by
    have hknew := hwarrant.knew
    cases hevent : entry.event with
    | approval event =>
      cases event with
      | requested approval =>
        rw [hevent] at hknew
        rcases hknew a hover.active with hopen | hopen
        · exact absurd hidle.turn hopen
        · exact absurd hidle.batch hopen
      | _ => rfl
    | _ => rfl
  have hturn : ∀ event, entry.event ≠ .turn event := by
    intro event hevent
    obtain ⟨-, m, hm, -⟩ := applyEvent_eq_ok.mp happly
    rw [applyEventKind, hevent] at hm
    rcases opened_of_turn hm hover.active with ⟨turnId, runId, rfl⟩ | hopen
    · rw [hevent] at hown
      cases hown
    · exact absurd hidle.turn hopen
  have hlatest := (turnless_step hinv.entries hturn happly hover.active hb).2
  refine ⟨b, hbid.trans haid, ⟨hb, hrunning, hlatest.trans hover.latest, hover.ended, hover.overflowed, ?_⟩,
    pendingNone_step hinv.entries hunasked happly hover.active hb hnone⟩
  exact idle_step hinv.entries (requestsCompaction_of_other hown) happly (.inl hover.idle)

/-- Whatever the session is given after an overflow resolves it, cancels the run, or leaves it as it was. -/
theorem overflowed_append (hreached : Reachable sessionId s log) (h : Overflowed s run turnId turn)
    (hpropose : proposeEntries sessionId s (ms, input) = .ok entries)
    (hcommit : entries.foldlM applyEvent s = .ok t) :
    (∃ entry ∈ entries, entry.event.resolvesOverflow = true ∨ entry.event.cancelsRun = true) ∨
      ∃ run', run'.runId = run.runId ∧ Overflowed t run' turnId turn := by
  obtain ⟨hinv, hsettled⟩ := reachable_inv hreached
  obtain ⟨proposals, hproposals, hproposed, rfl⟩ := proposeEntries_cases hpropose
  by_cases hends : ∃ entry ∈ uncommitted s ms proposals,
      entry.event.resolvesOverflow = true ∨ entry.event.cancelsRun = true
  · exact .inl hends
  right
  simp only [not_exists, not_and, not_or, Bool.not_eq_true] at hends
  rcases proposed_plans hproposed with hnone | ⟨rfl, -⟩ | rfl
  · have hstart : StillOverflowed s run turnId turn := ⟨run, rfl, h, h.unasked (reachable_calm hreached)⟩
    have hother : ∀ entry ∈ uncommitted s ms proposals, entry.event.isPlannersOwn = false := by
      intro entry hmem
      rcases mem_uncommitted hmem with ⟨proposal, hproposal, heq⟩ | ⟨id, heq⟩
      · rw [heq, isPlannersOwn_stored]
        exact hnone proposal hproposal
      · rw [heq]
        rfl
    have hkept := append_preserves hinv hsettled hproposed (P := fun u => StillOverflowed u run turnId turn)
      (fun u entry v hu hover hwarrant hmem hv => stillOverflowed_step hu hwarrant hover (hother entry hmem)
        (hends entry hmem).1 (hends entry hmem).2 hv) hcommit hstart
    obtain ⟨run', hid, hover, -⟩ := hkept.2
    exact ⟨run', hid, hover⟩
  · obtain ⟨proposal, t', hnext, hcommit', hcomes⟩ := overflow_next hreached h ms
    obtain rfl := Except.ok.inj (hproposals.symm.trans hnext)
    obtain rfl : t = t' := Except.ok.inj (hcommit.symm.trans hcommit')
    rcases hcomes with hresolves | ⟨-, -, hover⟩
    · obtain ⟨entry, hentry, heq⟩ := exists_uncommitted s ms (List.mem_singleton_self proposal)
      have hquiet := (hends entry hentry).1
      rw [heq, resolvesOverflow_stored, hresolves] at hquiet
      cases hquiet
    · exact hover
  · obtain ⟨entry, hentry, heq⟩ := exists_uncommitted s ms (List.mem_singleton_self _)
    have hquiet := (hends entry hentry).1
    rw [heq] at hquiet
    cases hquiet

/-- Whatever a session is given after an overflow, the run is as it was until the overflow is resolved or the
run is cancelled. -/
theorem overflowed_extends (hreached : Reachable sessionId s log) (h : Overflowed s run turnId turn)
    (hextends : EventSource.Extends (drive sessionId) (fun _ => True) s entries t) :
    (∃ entry ∈ entries, entry.event.resolvesOverflow = true ∨ entry.event.cancelsRun = true) ∨
      ∃ run', run'.runId = run.runId ∧ Overflowed t run' turnId turn := by
  induction hextends with
  | nil => exact .inr ⟨run, rfl, h⟩
  | @append m t front entries input first hallowed hpropose hcommit ih =>
    rcases ih with ⟨entry, hmem, hends⟩ | ⟨run', hid, hover⟩
    · exact .inl ⟨entry, List.mem_append_left _ hmem, hends⟩
    · rcases overflowed_append (first.reaches hreached) hover hpropose hcommit with
        ⟨entry, hmem, hends⟩ | ⟨after, hafter, hover'⟩
      · exact .inl ⟨entry, List.mem_append_right _ hmem, hends⟩
      · exact .inr ⟨after, hafter.trans hid, hover'⟩

/-! ## Within how many actions -/

/-- The next action after an overflow is an append, and it is taken. -/
theorem overflow_acts (hreached : Reachable sessionId s log) (h : Overflowed s run turnId turn) (ms : Nat) :
    ∃ entries t, nextActionUnbounded sessionId s ms = .ok (.appendEvents entries) ∧ entries ≠ [] ∧
      entries.foldlM applyEvent s = .ok t := by
  obtain ⟨proposal, t, hproposals, hcommit, -⟩ := overflow_next hreached h ms
  have hplan : planNext s = .ok [proposal] := driven_eq_ok.mp hproposals
  have hfold : (uncommitted s ms [proposal]).foldlM applyEvent s = .ok t := hcommit
  refine ⟨_, t, ?_, ?_, hfold⟩
  · have happend : appendAction s ms [proposal] = .ok (uncommitted s ms [proposal]) := by
      rw [appendAction, hfold]
      rfl
    have hdriven : driven (planNext s) = .ok [proposal] := driven_eq_ok.mpr hplan
    rw [nextActionUnbounded, hdriven, ok_bind, if_pos (List.cons_ne_nil _ _), happend]
    rfl
  · obtain ⟨entry, hmem, -⟩ := exists_uncommitted s ms (List.mem_singleton_self proposal)
    exact List.ne_nil_of_mem hmem

/-- The next actions resolve an overflow, unless they are too few. -/
theorem overflow_actions (hreached : Reachable sessionId s log) (h : Overflowed s run turnId turn)
    (hextends : EventSource.Extends (drive sessionId) (fun input => input.2 = .nextAction) s entries t) :
    (∃ entry ∈ entries, entry.event.resolvesOverflow = true) ∨
      entries.length + overflowRank t ≤ overflowRank s ∧
        ∃ run', run'.runId = run.runId ∧ Overflowed t run' turnId turn := by
  induction hextends with
  | nil => exact .inr ⟨by simp, run, rfl, h⟩
  | @append m t front entries input first hallowed hpropose hcommit ih =>
    obtain ⟨ms, action⟩ := input
    obtain rfl : action = .nextAction := hallowed
    rcases ih with ⟨entry, hmem, hresolves⟩ | ⟨hrank, run', hid, hover⟩
    · exact .inl ⟨entry, List.mem_append_left _ hmem, hresolves⟩
    obtain ⟨proposals, hproposals, -, rfl⟩ := proposeEntries_cases hpropose
    obtain ⟨proposal, t', hnext, hcommit', hcomes⟩ := overflow_next (first.reaches hreached) hover ms
    obtain rfl := Except.ok.inj (hproposals.symm.trans hnext)
    obtain rfl : t = t' := Except.ok.inj (hcommit.symm.trans hcommit')
    rcases hcomes with hresolves | ⟨halone, hlower, after, hafter, hover'⟩
    · obtain ⟨entry, hentry, heq⟩ := exists_uncommitted m ms (List.mem_singleton_self proposal)
      refine .inl ⟨entry, List.mem_append_right _ hentry, ?_⟩
      rw [heq, resolvesOverflow_stored, hresolves]
    · refine .inr ⟨?_, after, hafter.trans hid, hover'⟩
      have hone : (uncommitted m ms [proposal]).length = 1 := by
        rw [uncommitted, halone]
        rfl
      rw [List.length_append, hone]
      omega

/-! ## Requests in a log -/

/-- What comes up between two requests: the first one spends its turn, for as long as it is the latest. -/
theorem recovery_once {before between after : List CoreAgentEntry} {first second : CoreAgentEntry}
    {runId : RunId} (h : Reachable sessionId s (before ++ first :: between ++ second :: after))
    (hu : before.foldlM applyEvent CoreAgentState.new = .ok u)
    (ht : (before ++ first :: between).foldlM applyEvent CoreAgentState.new = .ok t)
    (hfirst : first.event.trigger = some .contextLimit) (hsecond : second.event.trigger = some .contextLimit)
    (hover : OverflowedTurn u runId turnId) : ¬ OverflowedTurn t runId turnId := by
  have hall := reachable_warranted h
  have hfront : EventSource.Warranted applyEvent Takes u (first :: between) := hall.left.right hu
  obtain ⟨u', hu', hbetween⟩ := foldlM_append_eq_ok.mp ht
  obtain rfl : u = u' := Except.ok.inj (hu.symm.trans hu')
  obtain ⟨m, hm, hbetween⟩ := foldlM_cons_eq_ok.mp hbetween
  have hnamed : LatestNamed u :=
    EventSource.Warranted.preserves (P := fun s _ => LatestNamed s) []
      (fun _ _ _ _ hs htakes happly => latestNamed_step htakes.inv hs happly) hall.left.left hu
      (by rintro run ⟨⟩)
  have hspent : LatestNamed m ∧ Attempted m runId turnId :=
    ⟨latestNamed_step hfront.1.inv hnamed hm,
      attempted_of_request hnamed (takes_ledger hall.left.left hu) hfront.1 hfirst hover hm⟩
  have hstill : LatestNamed t ∧ Attempted t runId turnId :=
    EventSource.Warranted.preserves (P := fun s _ => LatestNamed s ∧ Attempted s runId turnId) []
      (fun _ _ _ _ hs htakes happly => ⟨latestNamed_step htakes.inv hs.1 happly,
        attempted_step htakes.inv hs.1 hs.2 happly⟩) (hfront.2 m hm) hbetween hspent
  exact not_overflowed_of_attempted hstill.1 hstill.2 (hall.right ht).1 hsecond

/-- A recovery is asked for after a turn that overflowed. -/
theorem recovery_cause (htakes : Takes s entry) (htrigger : entry.event.trigger = some .contextLimit) :
    ∃ runId turnId, OverflowedTurn s runId turnId := by
  obtain ⟨run, turnId, turn, hactive, hrecovers⟩ := recovers_of_takes htakes htrigger
  exact ⟨run.runId, turnId, run, turn, hactive, rfl, hrecovers.latest, hrecovers.overflowed⟩

theorem recovery_bounded {before between after : List CoreAgentEntry}
    (h : Reachable sessionId s (before ++ between ++ after))
    (hquiet : ∀ entry ∈ between, entry.event.succeeds = false) (runId : RunId) :
    recoveries between runId ≤ maxContextRecoveryAttempts := by
  have hall := reachable_warranted h
  obtain ⟨m, hm, -⟩ := foldlM_append_eq_ok.mp h.replay
  have hinv : LedgerInv m (before ++ between) ∧ StreakInv m (before ++ between) := by
    refine EventSource.Warranted.preserves (P := fun s log => LedgerInv s log ∧ StreakInv s log) []
      ?_ hall.left hm ⟨ledgerInv_init, streakInv_init⟩
    rintro s log entry t ⟨hledger, hstreak⟩ htakes happly
    obtain ⟨base, input, hwarrant⟩ := htakes.warrant
    exact ⟨ledger_step htakes.inv hledger hwarrant happly, streakInv_step hstreak hledger htakes happly⟩
  exact (recoveries_le_streak before hquiet).trans (hinv.2.bound runId)

/-! ## The bound and the way out -/

/-- A turn that overflows asks for a compaction once, a run asks for no more than it may between two
successes, and an overflow is never left alone. -/
theorem overflow_recovery (h : Reachable sessionId s log) :
    (∀ before entry after u, log = before ++ entry :: after →
      before.foldlM applyEvent CoreAgentState.new = .ok u → entry.event.trigger = some .contextLimit →
      ∃ runId turnId, OverflowedTurn u runId turnId) ∧
    (∀ before first between second after u t runId turnId,
      log = before ++ first :: between ++ second :: after →
      before.foldlM applyEvent CoreAgentState.new = .ok u →
      (before ++ first :: between).foldlM applyEvent CoreAgentState.new = .ok t →
      first.event.trigger = some .contextLimit → second.event.trigger = some .contextLimit →
      OverflowedTurn u runId turnId → ¬ OverflowedTurn t runId turnId) ∧
    (∀ before between after, log = before ++ between ++ after →
      (∀ entry ∈ between, entry.event.succeeds = false) →
      ∀ runId, recoveries between runId ≤ maxContextRecoveryAttempts) ∧
    ∀ run turnId turn, Overflowed s run turnId turn →
      (∀ ms, ∃ entries t, nextActionUnbounded sessionId s ms = .ok (.appendEvents entries) ∧
        entries ≠ [] ∧ entries.foldlM applyEvent s = .ok t) ∧
      (∀ entries t,
        EventSource.Extends (drive sessionId) (fun input => input.2 = .nextAction) s entries t →
        (∃ entry ∈ entries, entry.event.resolvesOverflow = true) ∨
          entries.length + overflowRank t ≤ overflowRank s ∧
            ∃ run', run'.runId = run.runId ∧ Overflowed t run' turnId turn) ∧
      ∀ entries t, EventSource.Extends (drive sessionId) (fun _ => True) s entries t →
        (∃ entry ∈ entries, entry.event.resolvesOverflow = true ∨ entry.event.cancelsRun = true) ∨
          ∃ run', run'.runId = run.runId ∧ Overflowed t run' turnId turn := by
  refine ⟨?_, ?_, ?_, ?_⟩
  · rintro before entry after u rfl hu htrigger
    exact recovery_cause ((reachable_warranted h).right hu).1 htrigger
  · rintro before first between second after u t runId turnId rfl hu ht hfirst hsecond hover
    exact recovery_once h hu ht hfirst hsecond hover
  · rintro before between after rfl hquiet runId
    exact recovery_bounded h hquiet runId
  · intro run turnId turn hover
    exact ⟨overflow_acts h hover, fun entries t => overflow_actions h hover,
      fun entries t => overflowed_extends h hover⟩

/-! ## Two runs that overflow -/

/-- A generation that ends as the provider says. -/
def sampleGeneration (runId : RunId) (turnId : TurnId) (finish : LlmFinish) : Nat × DriveInput :=
  (0, .resumeGeneration { runId, turnId, status := .succeeded, facts := { finish } })

/-- A run is asked for, and planned up to its first generation. -/
def askedRun : List (Nat × DriveInput) :=
  (0, .admitCommand (.requestRun { source := ⟨[sampleMessage]⟩ })) :: planTurn 0

/-- A compaction is answered, and the next turn planned up to its generation. -/
def answeredCompaction (revision : Nat) : List (Nat × DriveInput) :=
  (0, .resumeContextCompaction { sampleSummary with contextRevision := revision }) :: planTurn 0

/-- A session that compacts its context has one run that succeeds, and one whose first turn overflows. -/
def overflowedSession : List (Nat × DriveInput) :=
  (0, .admitCommand (.openSession { sampleConfig with
      context := { compaction := some (.providerStandalone none none) } })) ::
    askedRun ++ sampleGeneration 1 1 .stop :: planTurn 0 ++
  askedRun ++ [sampleGeneration 2 2 .contextLimit]

/-- The run overflows again after either compaction, and fails. The next run overflows once, and succeeds. -/
def overflowedRuns : List (Nat × DriveInput) :=
  overflowedSession ++ planTurn 0 ++ answeredCompaction 3 ++
    sampleGeneration 2 3 .contextLimit :: planTurn 0 ++ answeredCompaction 7 ++
    sampleGeneration 2 4 .contextLimit :: planTurn 0 ++
  askedRun ++ sampleGeneration 3 5 .contextLimit :: planTurn 0 ++ answeredCompaction 12 ++
    [sampleGeneration 3 6 .stop]

/-- Three compactions are asked for after overflows between two successes, by two runs. -/
theorem overflowedRuns_exceed : ∃ s log i j first last,
    (drive "session").exec overflowedRuns = some (s, log) ∧ log[i]? = some first ∧ log[j]? = some last ∧
      first.event.succeeds = true ∧ last.event.succeeds = true ∧
      (∀ entry ∈ (log.take j).drop (i + 1), entry.event.succeeds = false) ∧
      maxContextRecoveryAttempts <
        ((log.take j).drop (i + 1)).countP fun entry => entry.event.trigger == some .contextLimit := by
  have hrun : ((drive "session").exec overflowedRuns).map (fun p =>
      (p.2[7]?.map fun entry => entry.event.succeeds, p.2[52]?.map fun entry => entry.event.succeeds,
        ((p.2.take 52).drop 8).all fun entry => !entry.event.succeeds,
        ((p.2.take 52).drop 8).countP fun entry => entry.event.trigger == some .contextLimit)) =
      some (some true, some true, true, 3) := by decide +kernel
  obtain ⟨⟨s, log⟩, hexec, hread⟩ := Option.map_eq_some_iff.mp hrun
  obtain ⟨hfirst, hlast, hquiet, hcount⟩ : _ ∧ _ ∧ _ ∧ _ := by simpa only [Prod.mk.injEq] using hread
  obtain ⟨first, hgetFirst, hfirst⟩ := Option.map_eq_some_iff.mp hfirst
  obtain ⟨last, hgetLast, hlast⟩ := Option.map_eq_some_iff.mp hlast
  refine ⟨s, log, 7, 52, first, last, hexec, hgetFirst, hgetLast, hfirst, hlast, fun entry hmem => ?_, ?_⟩
  · simpa using List.all_eq_true.mp hquiet entry hmem
  · rw [hcount]
    decide

theorem overflow_recovery_overflowedSession : ∃ s log run turn,
    (drive "session").exec overflowedSession = some (s, log) ∧ Overflowed s run 2 turn ∧
      ∃ entries t, nextActionUnbounded "session" s 0 = .ok (.appendEvents entries) ∧ entries ≠ [] ∧
        entries.foldlM applyEvent s = .ok t := by
  have hrun : ((drive "session").exec overflowedSession).bind (fun p => p.1.runs.active.bind fun run =>
      run.turns.last?.map fun last => (run.status, last.1, last.2.status, last.2.hitContextLimit,
        p.1.context.compaction.isPending)) = some (.running, 2, .completed, true, false) := by
    decide +kernel
  obtain ⟨⟨s, log⟩, hexec, hread⟩ := Option.bind_eq_some_iff.mp hrun
  obtain ⟨run, hactive, hread⟩ := Option.bind_eq_some_iff.mp hread
  obtain ⟨⟨turnId, turn⟩, hlast, hread⟩ := Option.map_eq_some_iff.mp hread
  obtain ⟨hstatus, rfl, hended, hover, hidle⟩ : _ ∧ turnId = 2 ∧ _ ∧ _ ∧ _ := by
    simpa only [Prod.mk.injEq] using hread
  have hoverflowed : Overflowed s run 2 turn := ⟨hactive, hstatus, hlast, hended, hover, hidle⟩
  obtain ⟨-, -, -, hresolved⟩ := overflow_recovery (EventSource.exec_reaches hexec)
  exact ⟨s, log, run, turn, hexec, hoverflowed, (hresolved run 2 turn hoverflowed).1 0⟩

end Lightspeed.Harness
