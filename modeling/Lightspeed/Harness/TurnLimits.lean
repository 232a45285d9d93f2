import Lightspeed.Harness.Counts

/-!
# Turn limits

`maxTurns` bounds the turns of a run: the run's own limit, or the session's where it has none. Admission
refuses a limit of zero, and every limit of a state came through admission: `reachable_allowsTurns` says
that a run which has started no turn yet has not reached its limit.
-/

namespace Lightspeed.Harness

open Lib

variable {sessionId : SessionId} {s t : CoreAgentState} {log entries : List CoreAgentEntry}
  {proposals : List CoreAgentEventProposal} {entry : CoreAgentEntry} {ms : Nat} {run : ActiveRun}
  {config : SessionConfig}

/-- The effective `maxTurns` of a run: its own, or else the session's. -/
def effectiveMaxTurns (s : CoreAgentState) (runConfig : RunConfig) : Option Nat :=
  runConfig.maxTurns.or (s.lifecycle.config.bind (fun config => config.limits.maxTurns))

theorem turnLimitReached_iff :
    turnLimitReached s run = true ↔
      ∃ limit, effectiveMaxTurns s run.runConfig = some limit ∧ limit ≤ run.turnCount := by
  simp [turnLimitReached, effectiveMaxTurns, Option.any_eq_true]

/-! ## What admission lets through -/

/-- Whether an event sets a limit at all. -/
def CoreAgentEvent.setsLimit : CoreAgentEvent → Bool
  | .lifecycle (.opened _) | .lifecycle (.configChanged _ _) | .run (.accepted _) => true
  | _ => false

theorem allowsTurns_of_other {event : CoreAgentEvent} (h : event.setsLimit = false) :
    event.AllowsTurns := by
  cases event with
  | lifecycle event | run event => cases event <;> trivial
  | _ => trivial

theorem isRun_of_result {scope : ResultScope} {event : CoreAgentEvent}
    (h : ResultEvent s scope event) : event.isRun = false := by
  cases h with
  | quiet hquiet =>
    cases event with
    | run event => cases event <;> cases hquiet
    | _ => rfl
  | _ => rfl

/-- A plan sets no limit. -/
theorem setsLimit_of_planned {event : CoreAgentEvent} (h : event.isPlanned = true) :
    event.setsLimit = false := by
  cases event with
  | run event => cases event <;> first | rfl | cases h
  | _ => first | rfl | cases h

/-- Whatever a session is given, the limits that it proposes let a turn start, or its proposals answer
calls of the active run. -/
theorem proposals_allowTurns {input : DriveInput} (hinv : Inv s)
    (h : inputProposals sessionId s ms input = .ok proposals) :
    (∀ proposal ∈ proposals, proposal.event.AllowsTurns) ∨
      (s.runs.active ≠ none ∧ ∀ proposal ∈ proposals, proposal.event.isRun = false) := by
  have hnone : ∀ {run}, s.runs.active = some run → s.runs.active ≠ none := by
    intro run hactive
    simp [hactive]
  cases inputProposals_cases h with
  | quiet hquiet => exact .inl fun proposal hmem => (hquiet proposal hmem).2
  | plan hplan =>
    exact .inl fun _ hmem => allowsTurns_of_other (setsLimit_of_planned (planned_isPlanned hplan hmem))
  | accept hpending hid hfresh hkinds hlimit =>
    exact .inl fun proposal hmem => List.mem_singleton.mp hmem ▸ hlimit
  | cancelRun =>
    refine .inl fun proposal hmem => ?_
    rcases mem_cancelRunProposals hmem with heq | ⟨_, heq⟩ <;> rw [heq] <;> trivial
  | decide hactive hrun hrecord hstatus hresponse hunparked =>
    refine .inl fun proposal hmem => ?_
    rcases mem_decideProposals hunparked hmem with rfl | rfl | rfl <;> trivial
  | edit hpending hedit => cases hedit <;> exact .inl fun proposal hmem => List.mem_singleton.mp hmem ▸ trivial
  | compact =>
    refine .inl fun proposal hmem => ?_
    rw [List.mem_singleton.mp hmem, manualCompactionRequestedProposal]
    split_ifs <;> trivial
  | forceClose =>
    refine .inl fun proposal hmem => ?_
    rcases List.mem_append.mp hmem with hmem | hmem
    · rcases forceClose_event hmem with heq | ⟨_, _, heq⟩ | ⟨_, heq⟩ | ⟨_, heq⟩ | ⟨_, heq⟩ <;> rw [heq] <;> trivial
    · exact List.mem_singleton.mp hmem ▸ trivial
  | forceCancel =>
    refine .inl fun proposal hmem => ?_
    rcases mem_forceCancelProposals hmem with rfl | rfl <;> trivial
  | failRun hactive hfail =>
    refine .inl fun proposal hmem => ?_
    rcases (mem_failRunProposals hfail).2 proposal hmem with ⟨_, _, heq, -⟩ | ⟨_, heq⟩ | heq <;>
      rw [heq] <;> trivial
  | unpark hactive hparked hrun hbatch hclaim hresult hmatches hcompleted =>
    refine .inr ⟨hnone hactive, fun proposal hmem => ?_⟩
    rcases mem_unparkProposals hmem with ⟨_, rfl⟩ | rfl | hmem
    · rfl
    · rfl
    · exact isRun_of_result ((toolCallCompletedProposals_spec hcompleted).1 proposal hmem)
  | generation hactive =>
    refine .inr ⟨hnone hactive, fun proposal hmem => ?_⟩
    rcases mem_generationProposals hmem with heq | heq | ⟨_, heq⟩ | heq <;> rw [heq] <;> rfl
  | compacted =>
    refine .inl fun proposal hmem => ?_
    simp only [List.mem_cons, List.not_mem_nil, or_false] at hmem
    rcases hmem with rfl | rfl | rfl <;> trivial
  | overflowed =>
    refine .inl fun proposal hmem => ?_
    rcases mem_overflowedProposals hmem with rfl | rfl | rfl <;> trivial
  | results hmatches hproposals =>
    obtain ⟨run, hactive, -⟩ := worksOn_of_matches hmatches
    exact .inr ⟨hnone hactive, fun proposal hmem =>
      isRun_of_result ((toolCallCompletedProposals_spec hproposals).1 proposal hmem)⟩
  | codeResults hcall hstatus hparent hproposals =>
    obtain ⟨run, hactive, -, -⟩ := worksOn_of_codeCall hinv hcall hstatus hparent
    exact .inr ⟨hnone hactive, fun proposal hmem =>
      isRun_of_result ((toolCallCompletedProposals_spec hproposals).1 proposal hmem)⟩
  | park hactive hid hbatch hmatches hvalid hcompleted =>
    refine .inr ⟨hnone hactive, fun proposal hmem => ?_⟩
    rcases List.mem_append.mp hmem with hmem | hmem
    · exact isRun_of_result ((toolCallCompletedProposals_spec hcompleted).1 proposal hmem)
    · exact List.mem_singleton.mp hmem ▸ rfl
  | approve hactive hid hbatch hrequested =>
    refine .inr ⟨hnone hactive, fun proposal hmem => ?_⟩
    rcases mem_approveProposals hrequested hmem with ⟨_, heq⟩ | heq <;> rw [heq] <;> rfl
  | _ => exact .inl fun proposal hmem => List.mem_singleton.mp hmem ▸ trivial

/-! ## The limits of a state -/

theorem allowsTurns_stored {event : CoreAgentEvent} :
    event.stored.AllowsTurns ↔ event.AllowsTurns := by
  cases event with
  | lifecycle event | run event => cases event <;> rfl
  | _ => rfl

theorem isRun_stored (event : CoreAgentEvent) : event.stored.isRun = event.isRun := by
  cases event <;> rfl

/-- A session with an active run takes no new configuration. -/
theorem allowsTurns_of_busy (hinv : Inv s) (hactive : s.runs.active ≠ none)
    (hrun : entry.event.isRun = false) (happly : applyEvent s entry = .ok t) :
    entry.event.AllowsTurns := by
  obtain ⟨-, m, hm, -⟩ := applyEvent_eq_ok.mp happly
  cases hevent : entry.event with
  | lifecycle event =>
    rw [applyEventKind, hevent] at hm
    cases event with
    | opened config =>
      have hnew := (opened_eq_ok.mp hm).1
      exact absurd (hinv.idle (by simp [hnew])).1 hactive
    | configChanged config revision => exact absurd (configChanged_idle hm) hactive
    | closed => trivial
  | run event => rw [hevent] at hrun; cases hrun
  | _ => trivial

/-- No limit of a state is zero, and a run that has started no turn has counted none. -/
structure LimitInv (s : CoreAgentState) : Prop where
  config : ∀ config, s.lifecycle.config = some config → config.limits.maxTurns ≠ some 0
  queued : ∀ queued ∈ s.runs.queued, queued.runConfig.maxTurns ≠ some 0
  active : s.ForActive fun run => run.runConfig.maxTurns ≠ some 0
  begun : s.ForActive fun run => run.turns.last? = none → run.turnCount = 0

theorem limitInv_init : LimitInv CoreAgentState.new where
  config := by rintro config ⟨⟩
  queued := by rintro queued ⟨⟩
  active := by rintro run ⟨⟩
  begun := by rintro run ⟨⟩

theorem setTurn_last? (run : ActiveRun) (turnId : TurnId) (turn : TurnState) :
    (run.setTurn turnId turn).turns.last? ≠ none := by
  obtain ⟨id, latest, hlast, -⟩ := OrdMap.exists_last? (OrdMap.get?_insert_self run.turns turnId turn)
  have hset : (run.setTurn turnId turn).turns.last? = some (id, latest) := hlast
  simp [hset]

/-- Once a turn has moved, its run has a latest turn. -/
theorem turn_latest {event : TurnEvent} (h : applyTurnEvent s event = .ok t) :
    t.ForActive fun run => run.turns.last? ≠ none := by
  cases applyTurnEvent_moves h with
  | starts =>
    rintro _ ⟨⟩
    exact setTurn_last? _ _ _
  | writes context hactive hopen hget hwrites =>
    refine forActive_setActive.mpr ?_
    rw [hwrites.turns]
    exact setTurn_last? _ _ _
  | completes =>
    refine forActive_setActive.mpr ?_
    rw [last?_pruneSettledRunRecords]
    exact setTurn_last? _ _ _
  | cancels => exact forActive_setActive.mpr (setTurn_last? _ _ _)

theorem begun_step (hinv : EntriesInv s)
    (h : s.ForActive fun run => run.turns.last? = none → run.turnCount = 0)
    (happly : applyEvent s entry = .ok t) :
    t.ForActive fun run => run.turns.last? = none → run.turnCount = 0 := by
  by_cases hcounts : entry.event.counts = true
  swap
  · intro b hb hnone
    obtain ⟨a, ha, hab⟩ := counted_step hinv (by simpa using hcounts) happly b hb
    rw [hab.turnCount]
    exact h a ha (hab.latest ▸ hnone)
  obtain ⟨-, m, hm, rfl⟩ := applyEvent_eq_ok.mp happly
  change m.ForActive _
  cases hevent : entry.event with
  | turn event =>
    rw [applyEventKind, hevent] at hm
    exact fun run hactive hnone => absurd hnone (turn_latest hm run hactive)
  | run event =>
    rw [applyEventKind, hevent] at hm
    cases event with
    | started runId =>
      obtain ⟨-, -, queued, rest, -, -, rfl⟩ := started_eq_ok.mp hm
      rintro _ ⟨⟩ -
      rfl
    | _ => rw [hevent] at hcounts; cases hcounts
  | context event =>
    rw [applyEventKind, hevent] at hm
    intro b hb hnone
    obtain ⟨a, ha, hab⟩ := (applyContextEvent_frame hinv hm).active b hb
    rw [hab.run] at hnone ⊢
    exact h a ha hnone
  | _ => rw [hevent] at hcounts; cases hcounts

theorem config_step (hinv : EntriesInv s) (hallows : entry.event.AllowsTurns)
    (h : ∀ config, s.lifecycle.config = some config → config.limits.maxTurns ≠ some 0)
    (happly : applyEvent s entry = .ok t) :
    ∀ config, t.lifecycle.config = some config → config.limits.maxTurns ≠ some 0 := by
  cases hlifecycle : entry.event.isLifecycle with
  | false => rwa [applyEvent_lifecycle hinv hlifecycle happly]
  | true =>
    obtain ⟨-, m, hm, rfl⟩ := applyEvent_eq_ok.mp happly
    cases hevent : entry.event with
    | lifecycle event =>
      rw [applyEventKind, hevent] at hm
      rw [hevent] at hallows
      cases event with
      | opened config =>
        obtain ⟨-, rfl⟩ := opened_eq_ok.mp hm
        rintro _ ⟨⟩
        exact hallows
      | configChanged config revision =>
        obtain ⟨-, -, -, rfl⟩ := configChanged_eq_ok.mp hm
        rintro _ ⟨⟩
        exact hallows
      | closed =>
        obtain ⟨-, -, -, -, rfl⟩ := closed_eq_ok.mp hm
        exact h
    | _ => rw [hevent] at hlifecycle; cases hlifecycle

theorem runConfigs_step (hinv : EntriesInv s) (hallows : entry.event.AllowsTurns) (h : LimitInv s)
    (happly : applyEvent s entry = .ok t) :
    (∀ queued ∈ t.runs.queued, queued.runConfig.maxTurns ≠ some 0) ∧
      t.ForActive fun run => run.runConfig.maxTurns ≠ some 0 := by
  cases hrun : entry.event.isRun with
  | false =>
    have hframe := applyEvent_runsFrame hinv hrun happly
    refine ⟨hframe.queued ▸ h.queued, fun b hb => ?_⟩
    obtain ⟨a, ha, hab⟩ := hframe.active b hb
    exact hab.runConfig ▸ h.active a ha
  | true =>
    obtain ⟨-, m, hm, rfl⟩ := applyEvent_eq_ok.mp happly
    change (∀ queued ∈ m.runs.queued, _) ∧ m.ForActive _
    cases hevent : entry.event with
    | run event =>
      rw [applyEventKind, hevent] at hm
      rw [hevent] at hallows
      cases applyRunEvent_moves hm with
      | queues hqueues hactive =>
        refine ⟨?_, fun run hrun => h.active run (hactive ▸ hrun)⟩
        cases event with
        | accepted accepted =>
          obtain ⟨-, -, -, -, rfl⟩ := accepted_eq_ok.mp hm
          intro queued hqueued
          rcases List.mem_append.mp hqueued with hqueued | hqueued
          · exact h.queued queued hqueued
          · rw [List.mem_singleton.mp hqueued]
            exact hallows
        | queuedCancelled runId =>
          obtain ⟨queued, -, rfl⟩ := queuedCancelled_eq_ok.mp hm
          intro other hother
          change other ∈ (pruneTerminalRunRecords _).queued at hother
          rw [pruneTerminalRunRecords_queued] at hother
          exact h.queued other (List.eraseP_subset hother)
        | _ => cases hqueues
      | @starts first _ hfree hqueue =>
        refine ⟨fun queued hqueued => h.queued queued (hqueue ▸ List.mem_cons_of_mem _ hqueued), ?_⟩
        rintro _ ⟨⟩
        exact h.queued first (hqueue ▸ List.mem_cons_self)
      | @steers run _ _ _ hactive =>
        refine ⟨h.queued, ?_⟩
        rintro _ ⟨⟩
        exact h.active run hactive
      | @stops run hactive => exact ⟨h.queued, forActive_setActive.mpr (h.active run hactive)⟩
      | ends =>
        refine ⟨?_, fun run hactive => ?_⟩
        · rw [finishRun_runs, pruneTerminalRunRecords_queued]
          exact h.queued
        · simp at hactive
    | _ => rw [hevent] at hrun; cases hrun

theorem limitInv_step (hinv : EntriesInv s) (hallows : entry.event.AllowsTurns) (h : LimitInv s)
    (happly : applyEvent s entry = .ok t) : LimitInv t where
  config := config_step hinv hallows h.config happly
  queued := (runConfigs_step hinv hallows h happly).1
  active := (runConfigs_step hinv hallows h happly).2
  begun := begun_step hinv h.begun happly

/-- No session reaches a state with a limit of zero. -/
theorem reachable_limitInv (h : Reachable sessionId s log) : LimitInv s := by
  refine EventSource.Reaches.invariant (P := fun s _ => LimitInv s) limitInv_init ?_ h
  rintro s log ⟨ms, input⟩ entries t hreached hs hpropose hcommit
  obtain ⟨hinv, hsettled⟩ := reachable_inv hreached
  obtain ⟨proposals, hproposals, hproposed, rfl⟩ := proposeEntries_cases hpropose
  rcases proposals_allowTurns hinv hproposals with hallow | ⟨hactive, hrun⟩
  · refine (append_preserves hinv hsettled hproposed (P := LimitInv) ?_ hcommit hs).2
    intro u entry v hu hP _ hmem happly
    refine limitInv_step hu.entries ?_ hP happly
    rcases mem_uncommitted hmem with ⟨proposal, hproposal, heq⟩ | ⟨id, heq⟩
    · rw [heq, allowsTurns_stored]
      exact hallow proposal hproposal
    · rw [heq]
      trivial
  · refine (append_preserves hinv hsettled hproposed
      (P := fun u => LimitInv u ∧ u.runs.active ≠ none) ?_ hcommit ⟨hs, hactive⟩).2.1
    rintro u entry v hu ⟨hP, hbusy⟩ _ hmem happly
    have hquiet : entry.event.isRun = false := by
      rcases mem_uncommitted hmem with ⟨proposal, hproposal, heq⟩ | ⟨id, heq⟩
      · rw [heq, isRun_stored]
        exact hrun proposal hproposal
      · rw [heq]
        rfl
    refine ⟨limitInv_step hu.entries (allowsTurns_of_busy hu hbusy hquiet happly) hP happly, ?_⟩
    exact fun hnone => hbusy ((applyEvent_runsFrame hu.entries hquiet happly).inactive hnone)

end Lightspeed.Harness
