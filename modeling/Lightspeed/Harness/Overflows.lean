import Lightspeed.Harness.TurnStarts

/-!
# Recoveries from an overflow

A turn that hits the context limit may ask for a compaction, once. The run keeps two counts for it: the turn
that a compaction was last asked for after, and how many were asked for since the last success.
`recovery_step` says how an event moves them, `attempted_step` that the first holds off a second request for
the same turn, and `streakInv_step` that the second bounds the requests of a run between two successes.
-/

namespace Lightspeed.Harness

open Lib

variable {sessionId : SessionId} {s t u v : CoreAgentState} {run a b : ActiveRun}
  {entry first second : CoreAgentEntry} {log before between after : List CoreAgentEntry} {runId : RunId}
  {turnId : TurnId} {proposal : CoreAgentEventProposal}

/-! ## How the counts move -/

/-- Whether an event settles a generation that succeeded without an overflow. -/
def CoreAgentEvent.succeeds : CoreAgentEvent → Bool
  | .turn event => event.succeeds
  | _ => false

/-- What an event makes of the recovery of the run that stays active. -/
def ActiveRun.recoveryAfter (run : ActiveRun) (event : CoreAgentEvent) : ContextRecoveryState :=
  if event.succeeds then { run.contextRecovery with attempts := 0 }
  else if event.requestsCompaction then run.recoveryRequested
  else run.contextRecovery

/-- A run that is active after an event was so before, or has just left the queue. -/
theorem recovery_step (hinv : EntriesInv s) (happly : applyEvent s entry = .ok t)
    (hb : t.runs.active = some b) :
    (s.runs.active = none ∧ ¬ HasStarted s b.runId ∧ b.turns.last? = none ∧ b.pendingApprovals = []) ∨
      ∃ a, s.runs.active = some a ∧ b.runId = a.runId ∧
        b.contextRecovery = a.recoveryAfter entry.event := by
  by_cases hcounts : entry.event.counts = true
  swap
  · obtain ⟨a, ha, hab⟩ := counted_step hinv (by simpa using hcounts) happly b hb
    refine .inr ⟨a, ha, hab.runId, ?_⟩
    rw [hab.recovery, ActiveRun.recoveryAfter]
    cases hevent : entry.event with
    | turn event => rw [hevent] at hcounts; exact absurd rfl hcounts
    | context event =>
      cases event with
      | compactionRequested => rw [hevent] at hcounts; exact absurd rfl hcounts
      | _ => rfl
    | _ => rfl
  obtain ⟨-, m, hm, rfl⟩ := applyEvent_eq_ok.mp happly
  change m.runs.active = some b at hb
  cases hevent : entry.event with
  | turn event =>
    rw [applyEventKind, hevent] at hm
    obtain ⟨a, b', ha, hb', hab⟩ := turned_active hm
    obtain rfl : b' = b := Option.mem_unique hb' hb
    exact .inr ⟨a, ha, hab.runId, hab.recovery⟩
  | run event =>
    rw [applyEventKind, hevent] at hm
    cases event with
    | started startedId =>
      obtain ⟨-, hnone, queued, rest, hqueue, -, rfl⟩ := started_eq_ok.mp hm
      obtain rfl := Option.some.inj hb
      refine .inl ⟨hnone, fun hstarted => ?_, rfl, rfl⟩
      exact hstarted.waiting queued (hqueue ▸ List.mem_cons_self) rfl
    | _ => rw [hevent] at hcounts; cases hcounts
  | context event =>
    rw [applyEventKind, hevent] at hm
    cases event with
    | compactionRequested baseRevision trigger plan =>
      rw [(requested_active hm).1] at hb
      obtain ⟨a, ha, rfl⟩ := Option.map_eq_some_iff.mp hb
      refine .inr ⟨a, ha, recordCompactionAttempt_runId s trigger a, ?_⟩
      rw [recordCompactionAttempt_eq]
      rfl
    | compactionFinished baseRevision status failureRef usage calls =>
      obtain ⟨-, -, -, rfl⟩ := compactionFinished_eq_ok.mp hm
      obtain ⟨a, ha, rfl⟩ := Option.map_eq_some_iff.mp hb
      exact .inr ⟨a, ha, rfl, rfl⟩
    | _ => rw [hevent] at hcounts; cases hcounts
  | _ => rw [hevent] at hcounts; cases hcounts

/-! ## The turn that overflowed -/

/-- An event of a turn moves the latest turn, or starts a later one. -/
theorem latest_turn {event : TurnEvent} (hinv : Inv s) (happly : applyTurnEvent s event = .ok t)
    (ha : s.runs.active = some a) (hb : t.runs.active = some b) :
    ∀ id turn', b.turns.last? = some (id, turn') →
      (s.idCursors.lastTurnId < id ∧ turn'.turnId = id) ∨
        ∃ turn, a.turns.last? = some (id, turn) ∧ turn'.turnId = turn.turnId := by
  have hrun := hinv.run a ha
  -- Every event but the first rewrites the open turn, which is the latest one.
  have hset : ∀ turnId turn after, a.activeTurnId = some turnId → a.turns.get? turnId = some turn →
      b.turns.last? = (a.setTurn turnId after).turns.last? → after.turnId = turn.turnId →
      ∀ id turn', b.turns.last? = some (id, turn') → (s.idCursors.lastTurnId < id ∧ turn'.turnId = id) ∨
        ∃ turn, a.turns.last? = some (id, turn) ∧ turn'.turnId = turn.turnId := by
    intro turnId turn after hopen hget hlatest hafter id turn' hlast
    obtain ⟨turn₀, hlast₀, -⟩ := hrun.openTurn turnId hopen
    obtain rfl : turn = turn₀ := Option.some.inj (hget.symm.trans (OrdMap.get?_of_last? hlast₀))
    rw [hlatest, ActiveRun.setTurn, OrdMap.last?_insert_last _ hlast₀] at hlast
    obtain ⟨rfl, rfl⟩ := Prod.mk.inj (Option.some.inj hlast)
    exact .inr ⟨turn, hlast₀, hafter⟩
  cases applyTurnEvent_moves happly with
  | starts hactive =>
    obtain rfl := Option.mem_unique ha hactive
    obtain rfl := Option.some.inj hb
    intro id turn' hlast
    have hlater : s.idCursors.lastTurnId < s.idCursors.lastTurnId + 1 := Nat.lt_succ_self _
    have hlatest : (a.setTurn (s.idCursors.lastTurnId + 1)
        { turnId := s.idCursors.lastTurnId + 1, runId := a.runId, status := .started }).turns.last? =
        some (id, turn') := hlast
    rw [ActiveRun.setTurn, OrdMap.last?_insert_of_lt _ fun k hk =>
      (hrun.turnBound k hk).trans_lt hlater] at hlatest
    obtain ⟨rfl, rfl⟩ := Prod.mk.inj (Option.some.inj hlatest)
    exact .inl ⟨hlater, rfl⟩
  | @writes _ run run' turnId turn after context hactive hopen hget hwrites =>
    obtain rfl := Option.mem_unique ha hactive
    obtain rfl := Option.some.inj hb
    exact hset turnId turn after hopen hget (by rw [hwrites.turns]) hwrites.turnId
  | @completes run turnId turn outcome hactive hopen hget =>
    obtain rfl := Option.mem_unique ha hactive
    obtain rfl := Option.some.inj hb
    exact hset turnId turn { turn with outcome := some outcome, status := outcome.status } hopen hget
      (last?_pruneSettledRunRecords _) rfl
  | @cancels run turnId turn hactive hcancelling hopen hget =>
    obtain rfl := Option.mem_unique ha hactive
    obtain rfl := Option.some.inj hb
    exact hset turnId turn _ hopen hget rfl rfl

/-- The latest turn of a run that stays active is what it was, or a later one. -/
theorem latest_step (hinv : Inv s) (happly : applyEvent s entry = .ok t)
    (ha : s.runs.active = some a) (hb : t.runs.active = some b) :
    ∀ id turn', b.turns.last? = some (id, turn') →
      (s.idCursors.lastTurnId < id ∧ turn'.turnId = id) ∨
        ∃ turn, a.turns.last? = some (id, turn) ∧ turn'.turnId = turn.turnId := by
  have hkept : b.turns.last? = a.turns.last? → ∀ id turn', b.turns.last? = some (id, turn') →
      (s.idCursors.lastTurnId < id ∧ turn'.turnId = id) ∨
        ∃ turn, a.turns.last? = some (id, turn) ∧ turn'.turnId = turn.turnId := by
    intro hlatest id turn' hlast
    exact .inr ⟨turn', hlatest ▸ hlast, rfl⟩
  by_cases hcounts : entry.event.counts = true
  swap
  · obtain ⟨a', ha', hab⟩ := counted_step hinv.entries (by simpa using hcounts) happly b hb
    obtain rfl : a = a' := Option.mem_unique ha ha'
    exact hkept hab.latest
  obtain ⟨-, m, hm, rfl⟩ := applyEvent_eq_ok.mp happly
  change m.runs.active = some b at hb
  cases hevent : entry.event with
  | turn event =>
    rw [applyEventKind, hevent] at hm
    exact latest_turn hinv hm ha hb
  | run event =>
    rw [applyEventKind, hevent] at hm
    cases event with
    | started startedId =>
      obtain ⟨-, hnone, -⟩ := started_eq_ok.mp hm
      rw [hnone] at ha
      cases ha
    | _ => rw [hevent] at hcounts; cases hcounts
  | context event =>
    rw [applyEventKind, hevent] at hm
    cases event with
    | compactionRequested baseRevision trigger plan =>
      rw [(requested_active hm).1, ha] at hb
      obtain rfl := Option.some.inj hb
      refine hkept ?_
      rw [recordCompactionAttempt_eq]
    | compactionFinished baseRevision status failureRef usage calls =>
      obtain ⟨-, -, -, rfl⟩ := compactionFinished_eq_ok.mp hm
      have hmapped : s.runs.active.map _ = some b := hb
      rw [ha] at hmapped
      obtain rfl := Option.some.inj hmapped
      exact hkept rfl
    | _ => rw [hevent] at hcounts; cases hcounts
  | _ => rw [hevent] at hcounts; cases hcounts

/-- The latest turn of the active run goes by its own id. -/
def LatestNamed (s : CoreAgentState) : Prop :=
  s.ForActive fun run => ∀ id turn, run.turns.last? = some (id, turn) → turn.turnId = id

theorem latestNamed_step (hinv : Inv s) (h : LatestNamed s) (happly : applyEvent s entry = .ok t) :
    LatestNamed t := by
  intro b hb id turn' hlast
  rcases recovery_step hinv.entries happly hb with ⟨-, -, hnone, -⟩ | ⟨a, ha, -⟩
  · rw [hnone] at hlast
    cases hlast
  · rcases latest_step hinv happly ha hb id turn' hlast with ⟨-, hid⟩ | ⟨turn, hturn, hsame⟩
    · exact hid
    · rw [hsame]
      exact h a ha id turn hturn

/-- The latest turn of the active run has overflowed. -/
structure OverflowedTurn (s : CoreAgentState) (runId : RunId) (turnId : TurnId) : Prop where
  overflowed : ∃ run turn, s.runs.active = some run ∧ run.runId = runId ∧
    run.turns.last? = some (turnId, turn) ∧ turn.hitContextLimit = true

/-- No compaction of the run is to recover from the turn: the run has ended, it has a later turn, or one was
asked for. -/
structure Attempted (s : CoreAgentState) (runId : RunId) (turnId : TurnId) : Prop where
  started : HasStarted s runId
  bound : turnId ≤ s.idCursors.lastTurnId
  spent : s.ForActive fun run => run.runId = runId → ∀ turn, run.turns.last? = some (turnId, turn) →
    run.contextRecovery.recoveryAttemptedTurnId = some turnId

theorem latestTurn_eq {turn : TurnState} (h : run.turns.last? = some (turnId, turn)) :
    run.latestTurn = some turn := by
  rw [ActiveRun.latestTurn, h]
  rfl

theorem attempted_step (hinv : Inv s) (hnamed : LatestNamed s) (h : Attempted s runId turnId)
    (happly : applyEvent s entry = .ok t) : Attempted t runId turnId := by
  obtain ⟨hstarted, hactive⟩ := hasStarted_step hinv.entries h.started happly
  refine ⟨hstarted, h.bound.trans (lastTurnId_step hinv.entries happly), fun b hb hid turn' hlast => ?_⟩
  obtain ⟨a, ha, haid⟩ := hactive b hb hid
  -- The turn is not a new one, so it was the latest before.
  obtain ⟨turn, hturn, -⟩ := (latest_step hinv happly ha hb turnId turn' hlast).resolve_left
    fun hlater => absurd hlater.1 (not_lt_of_ge h.bound)
  have hbefore := h.spent a ha haid turn hturn
  obtain ⟨a', ha', -, hrecovery⟩ := (recovery_step hinv.entries happly hb).resolve_left
    fun hnew => by rw [hnew.1] at ha; cases ha
  obtain rfl : a = a' := Option.mem_unique ha ha'
  rw [hrecovery, ActiveRun.recoveryAfter]
  split_ifs
  · exact hbefore
  · rw [ActiveRun.recoveryRequested, latestTurn_eq hturn]
    dsimp only
    split_ifs
    · exact congrArg some (hnamed a ha turnId turn hturn)
    · exact hbefore
  · exact hbefore

/-! ## Requests -/

theorem tokenWatermark_trigger {config : SessionConfig}
    (h : tokenWatermarkProposal s config = some proposal) :
    proposal.event.trigger = some .highWatermark := by
  simp only [tokenWatermarkProposal, Option.bind_eq_bind] at h
  split_ifs at h
  obtain ⟨threshold, -, h⟩ := Option.bind_eq_some_iff.mp h
  obtain ⟨tokens, -, h⟩ := Option.bind_eq_some_iff.mp h
  split_ifs at h
  obtain rfl := Option.some.inj h
  rfl

theorem highWatermark_trigger {config : SessionConfig}
    (h : highWatermarkCompactionProposal s config = some proposal) :
    proposal.event.trigger = some .highWatermark := by
  unfold highWatermarkCompactionProposal at h
  by_cases henabled : compactionEnabled config = true
  swap
  · rw [if_pos henabled] at h
    cases h
  rw [if_neg (not_not_intro henabled)] at h
  split at h
  · cases h
  next run _ =>
    cases hguard : entryGuard s run with
    | compact =>
      rw [hguard] at h
      obtain rfl := Option.some.inj h
      rfl
    | failRun => rw [hguard] at h; cases h
    | clear =>
      rw [hguard] at h
      dsimp only at h
      split_ifs at h
      · obtain rfl := Option.some.inj h
        rfl
      · exact tokenWatermark_trigger h

/-- What a request to recover from an overflow was planned on. -/
structure Recovers (run : ActiveRun) (turnId : TurnId) (turn : TurnState) : Prop where
  latest : run.turns.last? = some (turnId, turn)
  overflowed : turn.hitContextLimit = true
  unattempted : run.contextRecovery.recoveryAttemptedTurnId ≠ some turn.turnId
  attempts : run.contextRecovery.attempts < maxContextRecoveryAttempts

theorem recovers_of_proposal (h : nextCompactionProposal s = some proposal)
    (htrigger : proposal.event.trigger = some .contextLimit) :
    ∃ run turnId turn, s.runs.active = some run ∧ Recovers run turnId turn := by
  obtain ⟨-, rfl | ⟨config, -, -, ⟨hoverflow, h⟩ | ⟨-, h⟩⟩⟩ :=
    nextCompaction_cases h (requestsCompaction_of_trigger htrigger)
  · cases htrigger
  · rw [overflowAwaitsRecovery, Option.any_eq_true] at hoverflow
    obtain ⟨run, hactive, hoverflow⟩ := hoverflow
    rw [ActiveRun.latestTurn, Option.any_map, Option.any_eq_true] at hoverflow
    obtain ⟨⟨turnId, turn⟩, hlast, hoverflow⟩ := hoverflow
    simp only [Bool.and_eq_true, bne_iff_ne] at hoverflow
    unfold overflowCompactionProposal at h
    split_ifs at h with hrecoverable
    have hattempts : run.contextRecovery.attempts < maxContextRecoveryAttempts := by
      simpa [hactive] using hrecoverable.2.1
    exact ⟨run, turnId, turn, hactive, hlast, hoverflow.1, hoverflow.2, hattempts⟩
  · rw [highWatermark_trigger h] at htrigger
    cases htrigger

theorem recovers_of_takes (htakes : Takes s entry) (htrigger : entry.event.trigger = some .contextLimit) :
    ∃ run turnId turn, s.runs.active = some run ∧ Recovers run turnId turn := by
  have hknew := htakes.plan
  cases hevent : entry.event with
  | context event =>
    rw [hevent] at htrigger hknew
    cases event with
    | compactionRequested baseRevision trigger plan =>
      obtain rfl : trigger = .contextLimit := Option.some.inj htrigger
      obtain ⟨proposal, hnext, hasks⟩ := hknew.resolve_left nofun
      exact recovers_of_proposal hnext hasks
    | _ => cases htrigger
  | _ => rw [hevent] at htrigger; cases htrigger

/-- The request of a recovery is the last one for its turn. -/
theorem attempted_of_request (hnamed : LatestNamed s) (hledger : LedgerInv s log) (htakes : Takes s entry)
    (htrigger : entry.event.trigger = some .contextLimit) (hoverflowed : OverflowedTurn s runId turnId)
    (happly : applyEvent s entry = .ok t) : Attempted t runId turnId := by
  have hinv := htakes.inv
  obtain ⟨run, turn, hactive, rfl, hlast, hoverflow⟩ := hoverflowed
  have hstarted := hasStarted_step hinv.entries (hasStarted_of_active hledger hactive) happly
  have hbound : turnId ≤ s.idCursors.lastTurnId :=
    (hinv.run run hactive).turnBound turnId (OrdMap.mem_keys.mpr ⟨turn, OrdMap.get?_of_last? hlast⟩)
  refine ⟨hstarted.1, hbound.trans (lastTurnId_step hinv.entries happly), fun b hb hid turn' hlast' => ?_⟩
  obtain ⟨a, ha, -, hrecovery⟩ := (recovery_step hinv.entries happly hb).resolve_left
    fun hnew => by rw [hnew.1] at hactive; cases hactive
  obtain rfl : run = a := Option.mem_unique hactive ha
  have hquiet : entry.event.succeeds = false := by
    cases hevent : entry.event with
    | turn event => rw [hevent] at htrigger; cases htrigger
    | _ => rfl
  rw [hrecovery, ActiveRun.recoveryAfter, if_neg (by simp [hquiet]),
    if_pos (requestsCompaction_of_trigger htrigger), ActiveRun.recoveryRequested, latestTurn_eq hlast]
  dsimp only
  rw [if_pos hoverflow]
  exact congrArg some (hnamed run hactive turnId turn hlast)

/-- While a turn is done with, nothing asks for its recovery. -/
theorem not_overflowed_of_attempted (hnamed : LatestNamed s) (h : Attempted s runId turnId)
    (htakes : Takes s entry) (htrigger : entry.event.trigger = some .contextLimit) :
    ¬ OverflowedTurn s runId turnId := by
  rintro ⟨run, turn, hactive, hid, hlast, -⟩
  obtain ⟨run', turnId', turn', hactive', hrecovers⟩ := recovers_of_takes htakes htrigger
  obtain rfl : run = run' := Option.mem_unique hactive hactive'
  obtain ⟨rfl, rfl⟩ := Prod.mk.inj (Option.mem_unique hlast hrecovers.latest)
  refine hrecovers.unattempted ?_
  rw [hnamed run hactive turnId turn hlast]
  exact h.spent run hactive hid turn hlast

/-! ## Between two successes -/

/-- Whether an event asks for a compaction of a run to recover from an overflow. -/
def CoreAgentEvent.recoversRun (runId : RunId) : CoreAgentEvent → Bool
  | .context (.compactionRequested _ trigger plan) =>
    trigger == .contextLimit && plan.runId == some runId
  | _ => false

/-- How many compactions of a run a log asks for to recover from overflows. -/
def recoveries (log : List CoreAgentEntry) (runId : RunId) : Nat :=
  log.countP fun entry => entry.event.recoversRun runId

/-- How many of them a log asks for after its last success. -/
def recoveryStreak (log : List CoreAgentEntry) (runId : RunId) : Nat :=
  log.foldl (fun streak entry =>
    if entry.event.succeeds then 0
    else if entry.event.recoversRun runId then streak + 1
    else streak) 0

theorem recoveryStreak_append (log : List CoreAgentEntry) (entry : CoreAgentEntry) (runId : RunId) :
    recoveryStreak (log ++ [entry]) runId =
      if entry.event.succeeds then 0
      else if entry.event.recoversRun runId then recoveryStreak log runId + 1
      else recoveryStreak log runId := by
  rw [recoveryStreak, List.foldl_append]
  rfl

/-- A stretch without a success counts towards the streak. -/
theorem recoveries_le_streak (before : List CoreAgentEntry)
    (h : ∀ entry ∈ between, entry.event.succeeds = false) :
    recoveries between runId ≤ recoveryStreak (before ++ between) runId := by
  induction between using List.reverseRecOn with
  | nil => exact Nat.zero_le _
  | append_singleton front last ih =>
    have hfront := ih fun entry hmem => h entry (List.mem_append_left _ hmem)
    have hlast := h last (List.mem_append_right _ List.mem_cons_self)
    rw [← List.append_assoc, recoveryStreak_append, hlast, if_neg nofun, recoveries, List.countP_append,
      List.countP_singleton]
    split_ifs
    · exact Nat.add_le_add_right hfront 1
    · exact hfront

/-- No run asks for more than it may before its next success. -/
structure StreakInv (s : CoreAgentState) (log : List CoreAgentEntry) : Prop where
  attempts : s.ForActive fun run => recoveryStreak log run.runId ≤ run.contextRecovery.attempts
  bound : ∀ runId, recoveryStreak log runId ≤ maxContextRecoveryAttempts
  fresh : ∀ runId, ¬ HasStarted s runId → recoveryStreak log runId = 0

theorem streakInv_init : StreakInv CoreAgentState.new [] where
  attempts := by
    intro run hactive
    cases hactive
  bound := fun _ => Nat.zero_le _
  fresh := fun _ _ => rfl

/-- Who asks is the active run, after a turn that overflowed, with an attempt left. -/
theorem active_of_recovery (htakes : Takes s entry) (happly : applyEvent s entry = .ok t)
    (h : entry.event.recoversRun runId = true) :
    ∃ run turnId turn, s.runs.active = some run ∧ run.runId = runId ∧ Recovers run turnId turn ∧
      entry.event.requestsCompaction = true := by
  obtain ⟨-, m, hm, -⟩ := applyEvent_eq_ok.mp happly
  cases hevent : entry.event with
  | context event =>
    rw [hevent] at h
    cases event with
    | compactionRequested baseRevision trigger plan =>
      simp only [CoreAgentEvent.recoversRun, Bool.and_eq_true, beq_iff_eq] at h
      rw [applyEventKind, hevent] at hm
      obtain ⟨-, -, -, hplan, -, -, -⟩ := compactionRequested_eq_ok.mp hm
      rw [h.2, eq_comm, Option.map_eq_some_iff] at hplan
      obtain ⟨run, hactive, hid⟩ := hplan
      have htrigger : entry.event.trigger = some .contextLimit := by rw [hevent, h.1]; rfl
      obtain ⟨run', turnId, turn, hactive', hrecovers⟩ := recovers_of_takes htakes htrigger
      obtain rfl : run = run' := Option.mem_unique hactive hactive'
      exact ⟨run, turnId, turn, hactive, hid, hrecovers, rfl⟩
    | _ => cases h
  | _ => rw [hevent] at h; cases h

/-- What an event adds to a streak is an attempt that its run had left. -/
theorem streak_bound (htakes : Takes s entry) (h : StreakInv s log) (happly : applyEvent s entry = .ok t)
    (runId : RunId) : recoveryStreak (log ++ [entry]) runId ≤ maxContextRecoveryAttempts := by
  rw [recoveryStreak_append]
  split_ifs with hsucceeds hrecovers
  · exact Nat.zero_le _
  · obtain ⟨run, turnId, turn, hactive, rfl, hplanned, -⟩ := active_of_recovery htakes happly hrecovers
    exact (h.attempts run hactive).trans_lt hplanned.attempts
  · exact h.bound runId

theorem streakInv_step (h : StreakInv s log) (hledger : LedgerInv s log) (htakes : Takes s entry)
    (happly : applyEvent s entry = .ok t) : StreakInv t (log ++ [entry]) := by
  have hinv := htakes.inv
  -- A run that has not started asks for nothing.
  have hfresh : ∀ runId, ¬ HasStarted s runId → recoveryStreak (log ++ [entry]) runId = 0 := by
    intro runId hnew
    rw [recoveryStreak_append]
    split_ifs with hsucceeds hrecovers
    · rfl
    · obtain ⟨run, -, -, hactive, rfl, -⟩ := active_of_recovery htakes happly hrecovers
      exact absurd (hasStarted_of_active hledger hactive) hnew
    · exact h.fresh runId hnew
  refine ⟨fun b hb => ?_, streak_bound htakes h happly, fun runId hnew => hfresh runId fun hstarted =>
    hnew (hasStarted_step hinv.entries hstarted happly).1⟩
  rcases recovery_step hinv.entries happly hb with ⟨-, hnew, -, -⟩ | ⟨a, ha, hid, hrecovery⟩
  · rw [hfresh b.runId hnew]
    exact Nat.zero_le _
  have hbefore := h.attempts a ha
  rw [hid, hrecovery, recoveryStreak_append, ActiveRun.recoveryAfter]
  by_cases hsucceeds : entry.event.succeeds = true
  · rw [if_pos hsucceeds, if_pos hsucceeds]
  rw [if_neg hsucceeds, if_neg hsucceeds]
  by_cases hrecovers : entry.event.recoversRun a.runId = true
  · obtain ⟨run, turnId, turn, hactive, -, hplanned, hrequests⟩ :=
      active_of_recovery htakes happly hrecovers
    obtain rfl : a = run := Option.mem_unique ha hactive
    rw [if_pos hrecovers, if_pos hrequests, ActiveRun.recoveryRequested, latestTurn_eq hplanned.latest]
    dsimp only
    rw [if_pos hplanned.overflowed]
    exact Nat.add_le_add_right hbefore 1
  · rw [if_neg hrecovers]
    split_ifs
    · unfold ActiveRun.recoveryRequested
      split
      · split_ifs
        · exact hbefore.trans (Nat.le_succ _)
        · exact hbefore
      · exact hbefore
    · exact hbefore

end Lightspeed.Harness
