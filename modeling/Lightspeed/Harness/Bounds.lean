import Lightspeed.Harness.PromiseLedger

/-!
# What the state keeps

The whole state crosses every continue-as-new, so that what it keeps must not grow with what has
happened. Turns and completed batches go when a turn or a batch completes, terminal runs when one more
ends, and settled promises and finished invocations when a batch completes or a run ends.
-/

namespace Lightspeed.Harness

open Lib

variable {sessionId : SessionId} {s t base : CoreAgentState} {log : List CoreAgentEntry}
  {entry : CoreAgentEntry} {input : DriveInput} {run : ActiveRun} {cursors : IdCursors} {revision : Nat}

/-! ## Turns and batches -/

/-- The turns of a run that no longer do anything: they are neither the latest nor have an open batch. -/
def ActiveRun.spentTurns (run : ActiveRun) : List TurnId :=
  run.turns.keys.filter fun turnId =>
    some turnId ≠ run.turns.last?.map Prod.fst ∧
      run.toolBatches.values.all fun batch => batch.turnId ≠ turnId

/-- What a run keeps of its turns and batches. -/
structure ActiveRun.Bounded (run : ActiveRun) : Prop where
  few : run.turns.keys.length ≤ 2
  settled : run.activeTurnId = none → run.status ≠ .cancelling → run.turns.keys.length ≤ 1
  completed : ∀ batch ∈ run.completedToolBatches.values, run.turns.contains batch.turnId = true

theorem ActiveRun.Bounded.spent (h : run.Bounded) : run.spentTurns.length ≤ 1 := by
  unfold spentTurns
  have hfew := h.few
  cases hkeys : run.turns.keys with
  | nil => simp
  | cons first rest =>
    rw [hkeys] at hfew
    have hlast : run.turns.last?.map Prod.fst = some ((first :: rest).getLast (List.cons_ne_nil _ _)) := by
      rw [← List.getLast?_eq_some_getLast, ← hkeys, OrdMap.keys, OrdMap.last?, List.getLast?_map]
    rw [hlast]
    cases rest with
    | nil => simp
    | cons second rest =>
      obtain rfl : rest = [] := by
        cases rest with
        | nil => rfl
        | cons third rest =>
          simp only [List.length_cons] at hfew
          omega
      rw [List.filter_cons]
      have hskip : ([second].filter fun turnId => decide (some turnId ≠ some ([first, second].getLast
          (List.cons_ne_nil _ _)) ∧ run.toolBatches.values.all fun batch => batch.turnId ≠ turnId)) = [] := by
        simp
      rw [hskip]
      split_ifs <;> simp

/-- The run `b` has the turns of `a`, and may start another where `a` may. -/
structure ActiveRun.SameTurns (a b : ActiveRun) : Prop where
  turns : b.turns.keys = a.turns.keys
  completed : b.completedToolBatches = a.completedToolBatches
  activeTurnId : b.activeTurnId = none → a.activeTurnId = none
  cancelling : b.status ≠ .cancelling → a.status ≠ .cancelling

theorem ActiveRun.Bounded.of_same {a b : ActiveRun} (h : a.Bounded) (hab : a.SameTurns b) :
    b.Bounded where
  few := by rw [hab.turns]; exact h.few
  settled := fun hturn hstatus => by
    rw [hab.turns]
    exact h.settled (hab.activeTurnId hturn) (hab.cancelling hstatus)
  completed := fun batch hbatch => by
    rw [OrdMap.contains_iff_mem_keys, hab.turns, ← OrdMap.contains_iff_mem_keys]
    exact h.completed batch (hab.completed ▸ hbatch)

/-- Writing the state of a turn that there is. -/
theorem keys_setTurn {turnId : TurnId} {old : TurnState} (turn : TurnState)
    (hget : run.turns.get? turnId = some old) :
    (run.setTurn turnId turn).turns.keys = run.turns.keys := by
  have hsub : (run.setTurn turnId turn).turns.keys.Perm run.turns.keys := by
    refine (List.perm_ext_iff_of_nodup (OrdMap.keys_nodup _) (OrdMap.keys_nodup _)).mpr fun id => ?_
    rw [ActiveRun.setTurn, OrdMap.mem_keys_insert]
    refine ⟨fun h => ?_, .inr⟩
    rcases h with rfl | h
    · exact OrdMap.mem_keys.mpr ⟨old, hget⟩
    · exact h
  refine hsub.eq_of_pairwise (fun a b _ _ (hab : a < b) (hba : b < a) => ?_) ?_ ?_
  · exact absurd hba (not_lt_of_gt hab)
  · exact List.pairwise_map.mpr (run.setTurn turnId turn).turns.sorted
  · exact List.pairwise_map.mpr run.turns.sorted

/-- With no batch open, pruning leaves the latest turn only. -/
theorem bounded_prune (hopen : run.toolBatches.keys = []) : (pruneSettledRunRecords run).Bounded := by
  have hlatest : ∀ id ∈ (pruneSettledRunRecords run).turns.keys,
      some id = run.turns.last?.map Prod.fst := by
    intro id hid
    obtain ⟨turn, hget⟩ := OrdMap.mem_keys.mp hid
    have hvalues : run.toolBatches.values = [] := by
      rw [OrdMap.values, List.map_eq_nil_iff]
      exact List.map_eq_nil_iff.mp hopen
    simp only [pruneSettledRunRecords, pruneTerminalApprovals, OrdMap.get?_filter,
      Option.filter_eq_some_iff, hvalues, List.any_nil, Bool.or_false, beq_iff_eq] at hget
    exact hget.2
  have hone : (pruneSettledRunRecords run).turns.keys.length ≤ 1 := by
    have hnodup := (pruneSettledRunRecords run).turns.keys_nodup
    revert hlatest hnodup
    generalize (pruneSettledRunRecords run).turns.keys = ids
    intro hlatest hnodup
    rcases ids with _ | ⟨a, _ | ⟨b, rest⟩⟩
    · simp
    · simp
    · have hsame : a = b := Option.some.inj ((hlatest a (by simp)).trans (hlatest b (by simp)).symm)
      rw [hsame] at hnodup
      simp at hnodup
  refine ⟨hone.trans (by omega), fun _ _ => hone, fun batch hbatch => ?_⟩
  obtain ⟨id, hget⟩ := OrdMap.mem_values.mp hbatch
  exact (get?_pruned_completed.mp hget).2

theorem bounded_turn {event : TurnEvent} (hinv : s.ForActive (RunInv s.idCursors s.tooling.revision))
    (h : s.ForActive ActiveRun.Bounded) (happly : applyTurnEvent s event = .ok t) :
    t.ForActive ActiveRun.Bounded := by
  cases applyTurnEvent_moves happly with
  | @starts run hactive hrunning hturn =>
    rintro b ⟨⟩
    have hone := (h run hactive).settled hturn (by rw [hrunning]; nofun)
    have hkeys : ∀ turnId (turn : TurnState), (run.setTurn turnId turn).turns.keys.length ≤ 2 := by
      intro turnId turn
      have hsub : (run.setTurn turnId turn).turns.keys ⊆ turnId :: run.turns.keys := by
        intro id hid
        exact List.mem_cons.mpr (OrdMap.mem_keys_insert.mp hid)
      have hnodup : (run.setTurn turnId turn).turns.keys.Nodup := OrdMap.keys_nodup _
      have hle := (List.subperm_of_subset hnodup hsub).length_le
      simp only [List.length_cons] at hle
      omega
    refine ⟨hkeys _ _, nofun, fun batch hbatch => ?_⟩
    rw [OrdMap.contains_iff_mem_keys]
    refine OrdMap.mem_keys_insert.mpr (.inr ?_)
    exact OrdMap.contains_iff_mem_keys.mp ((h run hactive).completed batch hbatch)
  | @writes _ run run' turnId turn after context hactive hopen hget hwrites =>
    -- The turn that is open is written, and stays open.
    rintro b ⟨⟩
    refine (h run hactive).of_same ⟨?_, by rw [hwrites.run], fun hnone => ?_, fun hnot => ?_⟩
    · rw [hwrites.turns]
      exact keys_setTurn after hget
    · rw [hwrites.run] at hnone
      cases hopen.symm.trans hnone
    · rwa [hwrites.run] at hnot
  | completes hactive hopen =>
    rintro b ⟨⟩
    have hbatch := (hinv _ hactive).openAlone (by rw [hopen]; nofun)
    exact bounded_prune ((hinv _ hactive).toolBatches_of_none hbatch)
  | @cancels run turnId turn hactive hcancelling hopen hget =>
    rintro b ⟨⟩
    have hbounded := (h run hactive).of_same
      (b := run.setTurn turnId { turn with outcome := some .cancelled, status := .cancelled })
      ⟨keys_setTurn _ hget, rfl, id, id⟩
    exact ⟨hbounded.few, fun _ hnot => absurd hcancelling hnot, hbounded.completed⟩

theorem bounded_tool {event : ToolEvent} (hinv : s.ForActive (RunInv s.idCursors s.tooling.revision))
    (h : s.ForActive ActiveRun.Bounded) (happly : applyToolEvent s event = .ok t) :
    t.ForActive ActiveRun.Bounded := by
  cases applyToolEvent_moves happly with
  | @works _ run run' cursor hworks hactive hrun =>
    rintro b ⟨⟩
    refine (h run hactive).of_same ?_
    rw [hrun]
    exact ⟨rfl, rfl, id, id⟩
  | @parks run _ _ _ hactive hrunning =>
    rintro b ⟨⟩
    refine (h run hactive).of_same ⟨rfl, rfl, id, fun _ => ?_⟩
    rw [hrunning]
    nofun
  | @unparks run _ _ hactive =>
    rintro b ⟨⟩
    refine (h run hactive).of_same ⟨rfl, rfl, id, fun hnot hcancelling => hnot ?_⟩
    simp [hcancelling]
  | @completes run _ _ _ _ hactive hid =>
    rintro b ⟨⟩
    refine bounded_prune (List.eq_nil_iff_forall_not_mem.mpr fun id hmem => ?_)
    obtain ⟨other, hother⟩ := OrdMap.mem_keys.mp hmem
    simp only [ActiveRun.closeBatch, OrdMap.get?_erase] at hother
    split_ifs at hother with hne
    have honly := (hinv run hactive).batchOnly id (OrdMap.mem_keys.mpr ⟨other, hother⟩)
    exact hne (Option.mem_unique honly hid)

theorem bounded_run {event : RunEvent} {seq ms : Nat} (h : s.ForActive ActiveRun.Bounded)
    (happly : applyRunEvent s seq ms event = .ok t) : t.ForActive ActiveRun.Bounded := by
  cases applyRunEvent_moves happly with
  | queues hqueues hactive ht => exact fun b hb => h b (hactive ▸ hb)
  | starts =>
    rintro b ⟨⟩
    exact ⟨Nat.zero_le _, fun _ _ => Nat.zero_le _, fun batch hbatch => absurd hbatch List.not_mem_nil⟩
  | @steers run _ _ _ hactive =>
    rintro b ⟨⟩
    exact (h run hactive).of_same ⟨rfl, rfl, id, id⟩
  | @stops run hactive =>
    rintro b ⟨⟩
    exact (h run hactive).of_same ⟨rfl, rfl, id, fun hnot => absurd rfl hnot⟩
  | ends =>
    intro b hb
    simp at hb

theorem bounded_approval {event : ApprovalEvent} {ms : Nat} (h : s.ForActive ActiveRun.Bounded)
    (happly : applyApprovalEvent s ms event = .ok t) : t.ForActive ActiveRun.Bounded := by
  obtain ⟨run, run', hactive, hjudged, ht⟩ := applyApprovalEvent_moves happly
  rw [ht]
  rintro b ⟨⟩
  have hrun := hjudged.run
  refine (h run hactive).of_same ⟨by rw [hrun], by rw [hrun], fun hnone => ?_, fun hnot => ?_⟩
  · rwa [hrun] at hnone
  · exact fun hcancelling => hnot (hjudged.cancelling hcancelling)

theorem bounded_step (hinv : Inv s) (h : s.ForActive ActiveRun.Bounded)
    (happly : applyEvent s entry = .ok t) : t.ForActive ActiveRun.Bounded := by
  obtain ⟨-, m, hm, rfl⟩ := applyEvent_eq_ok.mp happly
  suffices hm' : m.ForActive ActiveRun.Bounded from hm'
  cases applyEventKind_moves hm with
  | run heq hm => exact bounded_run h hm
  | approval heq hm => exact bounded_approval h hm
  | turn heq hm => exact bounded_turn hinv.run h hm
  | context heq hm =>
    intro b hb
    obtain ⟨a, ha, hkept⟩ := (applyContextEvent_frame hinv.entries hm).active b hb
    refine (h a ha).of_same ?_
    rw [hkept.run]
    exact ⟨rfl, rfl, id, id⟩
  | tool heq hm => exact bounded_tool hinv.run h hm
  | rests hspares hruns => exact fun b hb => h b (hruns ▸ hb)

/-! ## Terminal runs -/

theorem finished_step (hinv : EntriesInv s) (h : s.runs.finished.length ≤ maxRetainedTerminalRuns)
    (happly : applyEvent s entry = .ok t) : t.runs.finished.length ≤ maxRetainedTerminalRuns := by
  by_cases hrun : entry.event.isRun = true
  · obtain ⟨-, m, hm, rfl⟩ := applyEvent_eq_ok.mp happly
    change m.runs.finished.length ≤ maxRetainedTerminalRuns
    have hpruned : ∀ runs : RunsState,
        (pruneTerminalRunRecords runs).finished.length ≤ maxRetainedTerminalRuns := by
      intro runs
      simp only [pruneTerminalRunRecords, List.length_drop]
      omega
    cases hevent : entry.event with
    | run event =>
      simp only [applyEventKind, hevent] at hm
      cases applyRunEvent_moves hm with
      | queues hqueues =>
        cases event with
        | accepted accepted =>
          obtain ⟨-, -, -, -, rfl⟩ := accepted_eq_ok.mp hm
          exact h
        | queuedCancelled runId =>
          obtain ⟨_, -, rfl⟩ := queuedCancelled_eq_ok.mp hm
          exact hpruned _
        | _ => cases hqueues
      | starts | steers | stops => exact h
      | ends =>
        rw [finishRun_runs]
        exact hpruned _
    | _ =>
      rw [hevent] at hrun
      cases hrun
  · rw [(applyEvent_runsFrame hinv (by simpa using hrun) happly).finished]
    exact h

/-! ## Steering -/

/-- Of more than the cap, all that are dropped are consumed ones. -/
theorem length_pruneSteering (steering : List SteeringBatch) (n : Nat) :
    ((pruneSteering n steering).filter fun batch => batch.consumedByTurnId.isSome).length ≤
      steering.length - n := by
  induction steering generalizing n with
  | nil => simp [pruneSteering]
  | cons batch rest ih =>
    cases n with
    | zero =>
      have hkept : pruneSteering 0 (batch :: rest) = batch :: rest := by simp [pruneSteering]
      rw [hkept]
      exact List.length_filter_le _ _
    | succ n =>
      have hrest := ih n
      rw [pruneSteering]
      split_ifs with hnone
      · rw [List.filter_cons_of_neg (by simpa using hnone)]
        simp only [List.length_cons]
        omega
      · simp only [List.length_cons]
        omega

/-- When a turn completes, at most so many steering batches that a turn consumed are left. -/
theorem steering_step {turnId : TurnId} {outcome : TurnOutcome}
    (hevent : entry.event = .turn (.completed turnId outcome)) (happly : applyEvent s entry = .ok t) :
    ∀ run, t.runs.active = some run →
      (run.steering.filter fun batch => batch.consumedByTurnId.isSome).length ≤
        maxRetainedSteeringBatches := by
  obtain ⟨-, m, hm, rfl⟩ := applyEvent_eq_ok.mp happly
  simp only [applyEventKind, hevent] at hm
  obtain ⟨before, turn, -, -, -, -, rfl⟩ := turnCompleted_eq_ok.mp hm
  rintro run ⟨⟩
  have hle := length_pruneSteering before.steering
    (before.steering.length - maxRetainedSteeringBatches)
  refine hle.trans ?_
  omega

/-! ## Promises -/

/-- The promises that are settled and still held. -/
def terminalPromises (s : CoreAgentState) : List Promise :=
  s.promises.promises.values.filter fun promise => promise.status.isTerminal

/-- Whether an event settles a promise. -/
def CoreAgentEvent.settlesPromise : CoreAgentEvent → Bool
  | .promise (.resolved _ _) | .promise (.failed _ _) | .promise (.cancelled _) => true
  | _ => false

/-- As many terminal promises are held as are listed. -/
theorem SettledInv.length_terminal (h : SettledInv s) :
    (terminalPromises s).length = s.promises.settled.length := by
  have hmap : (terminalPromises s).map Promise.promiseId =
      (s.promises.promises.entries.filter fun e => e.2.status.isTerminal).map Prod.fst := by
    rw [terminalPromises, OrdMap.values, List.filter_map, List.map_map]
    refine List.map_congr_left fun e he => ?_
    obtain ⟨hmem, -⟩ := List.mem_filter.mp he
    exact h.named e.1 e.2 (OrdMap.get?_eq_some_iff.mpr hmem)
  have hnodup : ((s.promises.promises.entries.filter fun e => e.2.status.isTerminal).map
      Prod.fst).Nodup := (List.filter_sublist.map Prod.fst).nodup (OrdMap.keys_nodup _)
  have hperm : ((s.promises.promises.entries.filter fun e => e.2.status.isTerminal).map
      Prod.fst).Perm s.promises.settled := by
    refine (List.perm_ext_iff_of_nodup hnodup h.once).mpr fun id => ?_
    rw [h.exact id]
    simp only [List.mem_map, List.mem_filter, Prod.exists, exists_and_right, exists_eq_right,
      OrdMap.get?_eq_some_iff]
  have hlength := congrArg List.length hmap
  simp only [List.length_map] at hlength
  rw [hlength, ← hperm.length_eq, List.length_map]

/-- An event that settles no promise leaves no more terminal promises; one that settles one leaves one
more. -/
theorem settled_length_step (hinv : EntriesInv s) (happly : applyEvent s entry = .ok t) :
    t.promises.settled.length ≤
      s.promises.settled.length + if entry.event.settlesPromise then 1 else 0 := by
  cases hpromise : entry.event.isPromise with
  | false =>
    refine le_trans ?_ (Nat.le_add_right _ _)
    cases hprune : entry.event.mayPrune with
    | false => rw [applyEvent_promises hinv hpromise hprune happly]
    | true =>
      rw [applyEvent_prunes hprune happly]
      simp [pruneTerminalPromises, CoreAgentState.setPromises]
  | true =>
    obtain ⟨-, m, hm, rfl⟩ := applyEvent_eq_ok.mp happly
    change m.promises.settled.length ≤ _
    cases hevent : entry.event with
    | promise event =>
      simp only [applyEventKind, hevent] at hm
      cases event with
      | created promise =>
        obtain ⟨-, -, -, rfl⟩ := promiseCreated_eq_ok.mp hm
        exact Nat.le_add_right _ _
      | resolved promiseId payloadRef =>
        obtain ⟨_, -, -, rfl⟩ := promiseResolved_eq_ok.mp hm
        simp [CoreAgentState.setPromises, PromiseComponentState.settle, CoreAgentEvent.settlesPromise]
      | failed promiseId errorRef =>
        obtain ⟨_, -, -, rfl⟩ := promiseFailed_eq_ok.mp hm
        simp [CoreAgentState.setPromises, PromiseComponentState.settle, CoreAgentEvent.settlesPromise]
      | cancelled promiseId =>
        obtain ⟨_, -, -, rfl⟩ := promiseCancelled_eq_ok.mp hm
        simp [CoreAgentState.setPromises, PromiseComponentState.settle, CoreAgentEvent.settlesPromise]
      | detached promiseId =>
        obtain ⟨_, -, -, rfl⟩ := promiseDetached_eq_ok.mp hm
        exact Nat.le_add_right _ _
    | _ => rw [hevent] at hpromise; cases hpromise

/-- An event that prunes leaves at most the cap. -/
theorem settled_pruned (hprune : entry.event.mayPrune = true) (happly : applyEvent s entry = .ok t) :
    t.promises.settled.length ≤ maxRetainedTerminalPromises := by
  rw [applyEvent_prunes hprune happly]
  simp only [pruneTerminalPromises, CoreAgentState.setPromises, List.length_drop]
  omega

/-! ## Invocations -/

/-- Every invocation is recorded under its own id. -/
structure InvocationsNamed (s : CoreAgentState) : Prop where
  bound : ∀ id invocation, s.workflowTools.boundInvocations.get? id = some invocation →
    invocation.invocationId = id
  started : ∀ id invocation, s.workflowTools.startRequests.get? id = some invocation →
    invocation.invocationId = id

theorem InvocationsNamed.of_same (h : InvocationsNamed s)
    (hbound : t.workflowTools.boundInvocations = s.workflowTools.boundInvocations)
    (hstarted : t.workflowTools.startRequests = s.workflowTools.startRequests) :
    InvocationsNamed t where
  bound := by rw [hbound]; exact h.bound
  started := by rw [hstarted]; exact h.started

theorem InvocationsNamed.prune (h : InvocationsNamed s) : InvocationsNamed (pruneFinishedWork s) where
  bound := by
    intro id invocation hget
    have hold : (s.workflowTools.boundInvocations.filter fun id _ =>
        id ∉ finishedInvocations s).get? id = some invocation := hget
    rw [OrdMap.get?_filter, Option.filter_eq_some_iff] at hold
    exact h.bound id invocation hold.1
  started := by
    intro id invocation hget
    have hold : (s.workflowTools.startRequests.filter fun id _ =>
        id ∉ finishedInvocations s).get? id = some invocation := hget
    rw [OrdMap.get?_filter, Option.filter_eq_some_iff] at hold
    exact h.started id invocation hold.1

theorem named_workflowTool {event : WorkflowToolEvent} (h : InvocationsNamed s)
    (happly : applyWorkflowToolEvent s event = .ok t) : InvocationsNamed t := by
  have hinsert : ∀ (m : OrdMap WorkflowToolInvocationId WorkflowToolInvocation)
      (new : WorkflowToolInvocation), (∀ id old, m.get? id = some old → old.invocationId = id) →
      ∀ id old, (m.insert new.invocationId new).get? id = some old → old.invocationId = id := by
    intro m new hm id old hget
    rw [OrdMap.get?_insert] at hget
    split_ifs at hget with hid
    · cases hget
      exact hid
    · exact hm id old hget
  cases event with
  | invoked invocation =>
    obtain ⟨-, rfl⟩ := invoked_ok happly
    exact ⟨hinsert _ invocation h.bound, h.started⟩
  | startRequested invocation executionId =>
    obtain ⟨-, rfl⟩ := startRequested_ok happly
    exact ⟨h.bound, hinsert _ invocation h.started⟩
  | deliveryFailed id ref =>
    obtain ⟨_, rfl, hbound, hstarted⟩ := invocationFailed_ok (.inl ⟨id, ref, rfl⟩) happly
    exact h.of_same hbound hstarted
  | startFailed id ref =>
    obtain ⟨_, rfl, hbound, hstarted⟩ := invocationFailed_ok (.inr ⟨id, ref, rfl⟩) happly
    exact h.of_same hbound hstarted

/-- Only recording an invocation and pruning change which invocations there are. -/
theorem named_step (hinv : EntriesInv s) (h : InvocationsNamed s)
    (happly : applyEvent s entry = .ok t) : InvocationsNamed t := by
  cases hprune : entry.event.mayPrune with
  | true =>
    obtain ⟨m, -, htools, -, hpruned, -⟩ := applyEvent_pruned hprune happly
    have hm : InvocationsNamed m := h.of_same (by rw [htools]) (by rw [htools])
    exact hm.prune.of_same (by rw [hpruned]) (by rw [hpruned])
  | false =>
    obtain ⟨-, m, hm, rfl⟩ := applyEvent_eq_ok.mp happly
    suffices hnamed : InvocationsNamed m from ⟨hnamed.bound, hnamed.started⟩
    cases applyEventKind_work hinv hm with
    | prunes hprunes => rw [hprunes] at hprune; cases hprune
    | promise heq hm =>
      rw [applyPromiseEvent_frame hm]
      exact h.of_same rfl rfl
    | codeTool heq hm =>
      rw [applyCodeToolEvent_frame hm]
      exact h.of_same rfl rfl
    | workflowTool heq hm => exact named_workflowTool h hm
    | rests hpromises hscopes hbound hstarted => exact h.of_same hbound hstarted

/-- After finished work is pruned nothing that is left is finished: what else is dropped are settled
promises, and scopes of the invocations that go. -/
theorem finishedInvocations_prune (hsettled : SettledInv s) (hnamed : InvocationsNamed s) :
    finishedInvocations (pruneFinishedWork s) = [] := by
  have hkept : ∀ invocation ∈ (pruneFinishedWork s).workflowTools.invocations,
      invocation ∈ s.workflowTools.invocations ∧
        invocation.invocationId ∉ finishedInvocations s := by
    intro invocation hmem
    have hfiltered : ∀ (m : OrdMap WorkflowToolInvocationId WorkflowToolInvocation),
        (∀ id old, m.get? id = some old → old.invocationId = id) →
        invocation ∈ (m.filter fun id _ => id ∉ finishedInvocations s).values →
        invocation ∈ m.values ∧ invocation.invocationId ∉ finishedInvocations s := by
      intro m hm hvalue
      obtain ⟨id, hget⟩ := OrdMap.mem_values.mp hvalue
      rw [OrdMap.get?_filter, Option.filter_eq_some_iff] at hget
      refine ⟨OrdMap.mem_values.mpr ⟨id, hget.1⟩, ?_⟩
      rw [hm id invocation hget.1]
      exact of_decide_eq_true hget.2
    rcases List.mem_append.mp hmem with hmem | hmem
    · obtain ⟨hmem, hnot⟩ := hfiltered _ hnamed.bound hmem
      exact ⟨List.mem_append_left _ hmem, hnot⟩
    · obtain ⟨hmem, hnot⟩ := hfiltered _ hnamed.started hmem
      exact ⟨List.mem_append_right _ hmem, hnot⟩
  rw [finishedInvocations, List.map_eq_nil_iff, List.filter_eq_nil_iff]
  intro invocation hmem hdone
  obtain ⟨hold, hnot⟩ := hkept invocation hmem
  refine hnot (List.mem_map.mpr ⟨invocation, List.mem_filter.mpr ⟨hold, ?_⟩, rfl⟩)
  simp only [Bool.and_eq_true, List.all_eq_true, Bool.not_eq_true', List.any_eq_false] at hdone ⊢
  refine ⟨fun id hid => ?_, fun scope hscope hopen => ?_⟩
  · -- A promise that was dropped had settled.
    cases hget : s.promises.promises.get? id with
    | none => rfl
    | some promise =>
      by_cases hdropped : id ∈ s.promises.settled.take
          (s.promises.settled.length - maxRetainedTerminalPromises)
      · obtain ⟨stored, hstored, hterminal⟩ := (hsettled.exact id).mp (List.mem_of_mem_take hdropped)
        rw [hget] at hstored
        cases hstored
        exact hterminal
      · have hafter : (pruneFinishedWork s).promises.promises.get? id = some promise := by
          change (s.promises.promises.filter fun id _ => id ∉ s.promises.settled.take
            (s.promises.settled.length - maxRetainedTerminalPromises)).get? id = some promise
          rw [OrdMap.get?_filter, Option.filter_eq_some_iff]
          exact ⟨hget, by simpa using hdropped⟩
        have hall := hdone.1 id hid
        rw [hafter] at hall
        exact hall
  · -- A scope that is open under the invocation is kept with it.
    rw [beq_iff_eq] at hopen
    obtain ⟨key, hget⟩ := OrdMap.mem_values.mp hscope
    refine hdone.2 scope (OrdMap.mem_values.mpr ⟨key, ?_⟩) (by simpa using hopen)
    change (s.codeTools.scopes.filter fun _ scope =>
      scope.spec.parentInvocationId ∉ finishedInvocations s).get? key = some scope
    rw [OrdMap.get?_filter, Option.filter_eq_some_iff]
    refine ⟨hget, ?_⟩
    rw [hopen.2]
    simpa using hnot

/-! ## Whole sessions -/

/-- What holds of the state after every event, and between events. -/
structure Kept (s : CoreAgentState) : Prop where
  run : s.ForActive ActiveRun.Bounded
  finished : s.runs.finished.length ≤ maxRetainedTerminalRuns
  settled : SettledInv s
  named : InvocationsNamed s

theorem kept_step (hinv : Inv s) (h : Kept s) (happly : applyEvent s entry = .ok t) : Kept t where
  run := bounded_step hinv h.run happly
  finished := finished_step hinv.entries h.finished happly
  settled := promises_step hinv.entries h.settled happly
  named := named_step hinv.entries h.named happly

/-- What an event that completes a turn, a batch or a run leaves behind. -/
structure Pruned (entry : CoreAgentEntry) (t : CoreAgentState) : Prop where
  steering : ∀ turnId outcome, entry.event = .turn (.completed turnId outcome) →
    ∀ run, t.runs.active = some run →
      (run.steering.filter fun batch => batch.consumedByTurnId.isSome).length ≤
        maxRetainedSteeringBatches
  promises : entry.event.mayPrune = true →
    (terminalPromises t).length ≤ maxRetainedTerminalPromises
  invocations : entry.event.mayPrune = true → finishedInvocations t = []

theorem pruned_step (hinv : Inv s) (h : Kept s) (happly : applyEvent s entry = .ok t) :
    Pruned entry t where
  steering := fun turnId outcome hevent => steering_step hevent happly
  promises := fun hprune => by
    rw [(promises_step hinv.entries h.settled happly).length_terminal]
    exact settled_pruned hprune happly
  invocations := fun hprune => by
    obtain ⟨m, hpromises, htools, hafter, htools', hcode⟩ := applyEvent_pruned hprune happly
    have hsettled : SettledInv m :=
      ⟨by rw [hpromises]; exact h.settled.named, by rw [hpromises]; exact h.settled.once,
        by rw [hpromises]; exact h.settled.exact⟩
    have hnamed : InvocationsNamed m := h.named.of_same (by rw [htools]) (by rw [htools])
    have hsame : finishedInvocations t = finishedInvocations (pruneFinishedWork m) := by
      rw [finishedInvocations, finishedInvocations, htools', hafter, hcode]
    rw [hsame]
    exact finishedInvocations_prune hsettled hnamed

/-- The state and the log after an event that keeps a session bounded: the settled promises above the cap
were settled after the last pruning, and what the last event completed is pruned. -/
structure KeptLog (s : CoreAgentState) (log : List CoreAgentEntry) : Prop where
  kept : Kept s
  last : ∀ entry ∈ log.getLast?, Pruned entry s
  settled : ∀ before entry after, log = before ++ entry :: after → entry.event.mayPrune = true →
    s.promises.settled.length ≤
      maxRetainedTerminalPromises + after.countP fun later => later.event.settlesPromise

theorem keptLog_init : KeptLog CoreAgentState.new [] where
  kept := ⟨by rintro run ⟨⟩, Nat.zero_le _, settledInv_init, ⟨by rintro _ _ ⟨⟩, by rintro _ _ ⟨⟩⟩⟩
  last := by
    intro entry hentry
    rw [List.getLast?_nil] at hentry
    cases hentry
  settled := fun before entry after hlog => absurd hlog (by simp)

theorem keptLog_step (hinv : Inv s) (h : KeptLog s log) (happly : applyEvent s entry = .ok t) :
    KeptLog t (log ++ [entry]) where
  kept := kept_step hinv h.kept happly
  last := fun last hlast => by
    rw [List.getLast?_concat, Option.mem_some_iff] at hlast
    exact hlast ▸ pruned_step hinv h.kept happly
  settled := fun before pruning after hlog hprune => by
    rcases snoc_eq_append_cons.mp hlog with ⟨rest, rfl, hold⟩ | ⟨-, rfl, -⟩
    · have hbefore := h.settled before pruning rest hold hprune
      have hstep := settled_length_step hinv.entries happly
      rw [List.countP_append, List.countP_singleton]
      omega
    · exact (settled_pruned hprune happly).trans (Nat.le_add_right _ _)

theorem reachable_kept (h : Reachable sessionId s log) : KeptLog s log :=
  reachable_preserves keptLog_init
    (fun _ _ _ _ _ _ hinv hs _ happly => keptLog_step hinv hs happly) h

/-- Every session stays bounded: at most one turn is spent and at most one batch open, completed batches
belong to turns that are kept, and terminal runs stay under their cap. Every entry that completed a
turn, a batch or a run left steering, terminal promises and finished invocations under theirs, and a
terminal promise above the cap was settled by a later entry. -/
theorem state_bounded (h : Reachable sessionId s log) :
    (∀ run, s.runs.active = some run →
      run.spentTurns.length ≤ 1 ∧ run.toolBatches.keys.length ≤ 1 ∧
        ∀ batch ∈ run.completedToolBatches.values, run.turns.contains batch.turnId = true) ∧
    s.runs.finished.length ≤ maxRetainedTerminalRuns ∧
    ∀ before entry after, log = before ++ entry :: after →
      ∀ u, (before ++ [entry]).foldlM applyEvent CoreAgentState.new = .ok u →
        Pruned entry u ∧ (entry.event.mayPrune = true → (terminalPromises s).length ≤
          maxRetainedTerminalPromises + after.countP fun later => later.event.settlesPromise) := by
  obtain ⟨hs, -, hsettled⟩ := reachable_kept h
  refine ⟨fun run hactive => ⟨(hs.run run hactive).spent, ?_, (hs.run run hactive).completed⟩,
    hs.finished, fun before entry after hlog u hu => ⟨?_, fun hprune => ?_⟩⟩
  · have honly := ((reachable_inv h).1.run run hactive).batchOnly
    have hsub : run.toolBatches.keys ⊆ run.activeToolBatchId.toList := by
      intro id hid
      rw [honly id hid]
      exact List.mem_singleton_self id
    refine (List.subperm_of_subset (OrdMap.keys_nodup _) hsub).length_le.trans ?_
    cases run.activeToolBatchId <;> simp
  · have hprefix : before ++ [entry] <+: log := ⟨after, by simp [hlog]⟩
    have hkept : KeptLog u (before ++ [entry]) := reachable_throughout keptLog_init
      (fun _ _ _ _ _ _ hinv hs _ happly => keptLog_step hinv hs happly) h hprefix hu
    exact hkept.last entry (by simp)
  · rw [hs.settled.length_terminal]
    exact hsettled before entry after hlog hprune

/-- The session in which the workflow replied, once its batch has completed. -/
def batchRun : List (Nat × DriveInput) :=
  repliedRun ++
    [(13, .admitCommand (.unparkToolBatch ⟨1, 1, .terminal, 13, .joinedWorkflowCalls []⟩)),
      (14, .nextAction)]

theorem state_bounded_batchRun : ∃ s log, (drive "session").exec batchRun = some (s, log) ∧
    (log.getLast?.map fun entry => entry.event.mayPrune) = some true ∧
    s.runs.active.map (fun run => (run.turns.keys, run.completedToolBatches.keys)) = some ([1], [1]) ∧
    s.runs.finished.length ≤ maxRetainedTerminalRuns ∧
    ∀ run, s.runs.active = some run → run.spentTurns.length ≤ 1 ∧ run.toolBatches.keys.length ≤ 1 := by
  have hsome : ((drive "session").exec batchRun).map (fun p =>
      (p.2.getLast?.map fun entry => entry.event.mayPrune,
        p.1.runs.active.map fun run => (run.turns.keys, run.completedToolBatches.keys))) =
      some (some true, some ([1], [1])) := by
    decide +kernel
  obtain ⟨⟨s, log⟩, hexec, hboth⟩ := Option.map_eq_some_iff.mp hsome
  obtain ⟨hlast, hrun⟩ := Prod.mk.inj hboth
  obtain ⟨hturns, hfinished, -⟩ := state_bounded (EventSource.exec_reaches hexec)
  refine ⟨s, log, hexec, hlast, hrun, hfinished, fun run hactive => ?_⟩
  exact ⟨(hturns run hactive).1, (hturns run hactive).2.1⟩

end Lightspeed.Harness
