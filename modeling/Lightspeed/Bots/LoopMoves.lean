import Lightspeed.Bots.Carry
import Lightspeed.Bots.QueueMoves
import Mathlib.Algebra.BigOperators.Group.List.Basic

/-!
# What a step of the controller does to the board

Every stage of the loop, every end of a wait, every signal and every turn of a task, as a chain of
moves; and the lanes' waits stay sound.
-/

namespace Lightspeed.Bots

open Lib Harness Relation ControllerState

variable {rules : Rules} {sha256Hex : String → String} {s t : System} {state : ControllerState}
  {loop : LoopPc} {answer : Answer} {tasks : List Task} {index : Nat} {main : String} {task : Task}

/-- What a step does on the board, and that every task's wait is sound after it when it was before. -/
structure StepFits (rules : Rules) (s t : System) : Prop where
  moves : ReflTransGen (Move rules) s.board t.board
  tasks : ∀ task ∈ t.tasks, task ∈ s.tasks ∨ task.Sound s.state.config.botId

/-- A step of the loop or of the state that does not show. -/
theorem quiet_step (hview : state.view = s.state.view) (hr : loop.reconciling = s.loop.reconciling)
    (ht : loop.tearingDown = s.loop.tearingDown) : StepFits rules s { s with state, loop } where
  moves := by
    have hboard : ({ s with state, loop } : System).board = s.board := by
      unfold System.board
      rw [hview, hr, ht]
    rw [hboard]
  tasks _ := .inl

/-- A step of the loop that is one move. -/
theorem StepFits.of_move (hmove : Move rules s.board ({ s with state, loop } : System).board) :
    StepFits rules s { s with state, loop } where
  moves := .single hmove
  tasks _ := .inl

/-- A step of the loop that leaves a dead session behind. -/
theorem rollSessionForward_step {sessionId : String} (hview : state.view = s.state.view)
    (hr : loop.reconciling = s.loop.reconciling) (ht : loop.tearingDown = s.loop.tearingDown) :
    StepFits rules s { s with state := state.rollSessionForward sessionId, loop } := by
  rcases view_rollSessionForward state sessionId with hroll | hroll
  · exact quiet_step (hroll.trans hview) hr ht
  · refine .of_move ?_
    have hboard : ({ s with state := state.rollSessionForward sessionId, loop } : System).board =
        { s.board with view := { s.state.view with main := s.state.view.main.rolled } } := by
      unfold System.board
      rw [hroll, hview, hr, ht]
    rw [hboard]
    exact .rollMain s.board

/-- The loop neither brings the main session in line nor tears the bot down. -/
structure Calm (loop : LoopPc) : Prop where
  reconciling : loop.reconciling = false
  tearingDown : loop.tearingDown = false

theorem calm_step (hs : Calm s.loop) (hloop : Calm loop) (hview : state.view = s.state.view) :
    StepFits rules s { s with state, loop } :=
  quiet_step hview (hloop.reconciling.trans hs.reconciling.symm)
    (hloop.tearingDown.trans hs.tearingDown.symm)

/-! ## The stages of a pass -/

theorem check_fits (hs : Calm s.loop) : StepFits rules s s.check := by
  unfold System.check
  dsimp only
  split_ifs
  · exact calm_step hs ⟨rfl, rfl⟩ rfl
  · exact calm_step hs ⟨rfl, rfl⟩ rfl

theorem processEmissions_fits (hs : Calm s.loop) :
    StepFits rules s (s.processEmissions sha256Hex) := by
  unfold System.processEmissions
  split
  · exact calm_step hs ⟨rfl, rfl⟩ rfl
  next envelope rest _ =>
    have hview : (classify { s.state with emissionInbox := rest } envelope).1.view = s.state.view :=
      view_classify _ envelope
    unfold System.processEmission
    split
    next heq => rw [heq] at hview; exact calm_step hs ⟨rfl, rfl⟩ hview
    next heq => rw [heq] at hview; exact calm_step hs ⟨rfl, rfl⟩ hview
    next heq => rw [heq] at hview; exact calm_step hs ⟨rfl, rfl⟩ hview
    next heq =>
      rw [heq] at hview
      split_ifs
      · exact calm_step hs ⟨rfl, rfl⟩ hview
      · exact calm_step hs ⟨rfl, rfl⟩ hview
    next heq => rw [heq] at hview; exact calm_step hs ⟨rfl, rfl⟩ hview

theorem holdsOf_append (tasks more : List Task) :
    holdsOf (tasks ++ more) = holdsOf tasks + holdsOf more := by
  rw [holdsOf, List.map_append, List.sum_append]
  rfl

theorem asidesOf_append (tasks more : List Task) :
    asidesOf (tasks ++ more) = asidesOf tasks + asidesOf more := by
  rw [asidesOf, List.map_append, List.sum_append]
  rfl

theorem holdsOf_invocations (pending : List PendingInvocation) :
    holdsOf (pending.map fun pending => Task.invocation pending .start) = 0 := by
  induction pending with
  | nil => rfl
  | cons first rest ih => exact (zero_add _).trans ih

theorem asidesOf_invocations (pending : List PendingInvocation) :
    asidesOf (pending.map fun pending => Task.invocation pending .start) = 0 := by
  induction pending with
  | nil => rfl
  | cons first rest ih => exact (zero_add _).trans ih

theorem spawnInvocationLanes_fits (hs : Calm s.loop) : StepFits rules s s.spawnInvocationLanes where
  moves := by
    have hboard : s.spawnInvocationLanes.board = s.board := by
      unfold System.board
      rw [hs.reconciling, hs.tearingDown]
      unfold System.spawnInvocationLanes System.goto
      dsimp only
      rw [holdsOf_append, asidesOf_append, holdsOf_invocations, asidesOf_invocations, add_zero,
        add_zero]
      rfl
    rw [hboard]
  tasks task hmem := by
    rcases List.mem_append.mp hmem with hold | hnew
    · exact .inl hold
    · obtain ⟨pending, -, rfl⟩ := List.mem_map.mp hnew
      exact .inr trivial

theorem sweepDeadSessions_fits (hs : Calm s.loop) : StepFits rules s s.sweepDeadSessions := by
  unfold System.sweepDeadSessions
  dsimp only
  split_ifs
  · exact calm_step hs ⟨rfl, rfl⟩ view_takeDeadSessionSweep
  · exact calm_step hs ⟨rfl, rfl⟩ view_takeDeadSessionSweep

theorem rollDead_fits (hs : Calm s.loop) {dead : List (String × BotSessionStatus)} :
    StepFits rules s (s.rollDead dead) := by
  cases dead with
  | nil => exact calm_step hs ⟨rfl, rfl⟩ rfl
  | cons first rest =>
    unfold System.rollDead
    dsimp only
    split
    · exact calm_step hs ⟨rfl, rfl⟩ rfl
    next hfail =>
      split_ifs
      · exact calm_step hs ⟨rfl, rfl⟩ (view_failLaneOnDeadSession hfail)
      · exact rollSessionForward_step (view_failLaneOnDeadSession hfail) hs.reconciling.symm
          hs.tearingDown.symm

theorem rotateRequestedSessions_fits (hs : Calm s.loop) :
    StepFits rules s s.rotateRequestedSessions := by
  unfold System.rotateRequestedSessions
  split_ifs <;> exact calm_step hs ⟨rfl, rfl⟩ rfl

theorem rotateEach_fits (hs : Calm s.loop) {nowMs : Int} {retry : Bool} {targets : List String} :
    StepFits rules s (s.rotateEach nowMs retry targets) := by
  cases targets with
  | nil => exact calm_step hs ⟨rfl, rfl⟩ rfl
  | cons target rest =>
    unfold System.rotateEach
    dsimp only
    split_ifs <;> exact calm_step hs ⟨rfl, rfl⟩ rfl

theorem flushRipe_fits (hs : Calm s.loop) : StepFits rules s (s.flushRipe sha256Hex) where
  moves := by
    have hfits : QueueFits rules s.state (s.state.flushRipeBuffers sha256Hex s.nowMs) :=
      flushRipeBuffers_fits
    have hmoves := hfits.moves s.board rfl
    have hboard : (s.flushRipe sha256Hex).board = { s.board with
        view := (s.state.flushRipeBuffers sha256Hex s.nowMs).view
        log := s.board.log ++
          System.queuedSince s.state (s.state.flushRipeBuffers sha256Hex s.nowMs) } := by
      unfold System.board
      rw [hs.reconciling, hs.tearingDown]
      rfl
    rwa [hboard]
  tasks _ := .inl

theorem closeIdle_fits (hs : Calm s.loop) {nowMs : Int} {sessions : List String} :
    StepFits rules s (s.closeIdle nowMs sessions) := by
  cases sessions <;> exact calm_step hs ⟨rfl, rfl⟩ rfl

/-- A step of the loop that rolls the budget's day. -/
theorem rollBudgetDay_step (hs : Calm s.loop) (hloop : Calm loop)
    (hview : state.view = (s.state.rollBudgetDay s.nowMs).view) :
    StepFits rules s { s with state, loop } := by
  refine .of_move ?_
  have hboard : ({ s with state, loop } : System).board =
      { s.board with view := s.board.view.roll s.board.nowMs } := by
    unfold System.board
    rw [hview, view_rollBudgetDay, hs.reconciling, hs.tearingDown, hloop.reconciling,
      hloop.tearingDown]
  rw [hboard]
  exact .rollDay s.board

theorem refreshDescendantsToday_fits (hs : Calm s.loop) :
    StepFits rules s s.refreshDescendantsToday := by
  unfold System.refreshDescendantsToday
  dsimp only
  split_ifs
  · exact rollBudgetDay_step hs ⟨rfl, rfl⟩ rfl
  · exact rollBudgetDay_step hs ⟨rfl, rfl⟩ rfl

theorem applyDisplayName_fits (hs : Calm s.loop) : StepFits rules s s.applyDisplayName := by
  unfold System.applyDisplayName
  split_ifs <;> exact calm_step hs ⟨rfl, rfl⟩ rfl

theorem renameEach_fits (hs : Calm s.loop) {targets : List (String × String)} :
    StepFits rules s (s.renameEach targets) := by
  cases targets <;> exact calm_step hs ⟨rfl, rfl⟩ rfl

/-! ## The main session -/

theorem reconcileUnlessBusy_fits (hs : Calm s.loop) : StepFits rules s s.reconcileUnlessBusy := by
  have hmove : s.state.configDirty = true → ∀ loop : LoopPc, loop.reconciling = true →
      loop.tearingDown = false → StepFits rules s { s with loop } := by
    intro hdirty loop hr ht
    refine .of_move ?_
    have hboard : ({ s with loop } : System).board = { s.board with reconciling := true } := by
      unfold System.board
      rw [hr, ht, hs.tearingDown]
    rw [hboard]
    exact .reconcile s.board hdirty
  have hdirty : s.state.reconcileDue s.nowMs = true → s.state.configDirty = true := by
    intro hdue
    unfold reconcileDue at hdue
    simp only [Bool.and_eq_true] at hdue
    exact hdue.1.1
  unfold System.reconcileUnlessBusy
  split_ifs with hdue
  · exact hmove (hdirty hdue) _ rfl rfl
  · exact hmove (hdirty hdue) _ rfl rfl
  · exact calm_step hs ⟨rfl, rfl⟩ rfl

/-- The loop brings the main session in line. -/
structure Reconciling (loop : LoopPc) : Prop where
  reconciling : loop.reconciling = true
  tearingDown : loop.tearingDown = false

theorem reconciling_step (hs : Reconciling s.loop) (hloop : Reconciling loop)
    (hview : state.view = s.state.view) : StepFits rules s { s with state, loop } :=
  quiet_step hview (hloop.reconciling.trans hs.reconciling.symm)
    (hloop.tearingDown.trans hs.tearingDown.symm)

/-- The loop gives up on the main session for now. -/
theorem leave_step (hs : Reconciling s.loop) (hloop : Calm loop)
    (hview : state.view = s.state.view) : StepFits rules s { s with state, loop } := by
  refine .of_move ?_
  have hboard : ({ s with state, loop } : System).board = { s.board with reconciling := false } := by
    unfold System.board
    rw [hview, hs.tearingDown, hloop.reconciling, hloop.tearingDown]
  rw [hboard]
  exact .leave s.board

theorem degraded_fits {message : String} (hs : Reconciling s.loop)
    (hview : state.view = s.state.view) : StepFits rules s (s.degraded message state) := by
  refine .of_move ?_
  have hboard : (s.degraded message state).board = { s.board with
      view := { s.state.view with main := s.state.view.main.degraded }, reconciling := false } := by
    unfold System.board
    rw [hs.tearingDown, ← hview]
    rfl
  exact hboard ▸ .degrade s.board

theorem resumeReadingMain_fits (hs : Reconciling s.loop)
    (hresume : s.resumeReadingMain main answer = some t) : StepFits rules s t := by
  unfold System.resumeReadingMain at hresume
  split at hresume
  · exact Option.some.inj hresume ▸ leave_step hs ⟨rfl, rfl⟩ rfl
  · exact Option.some.inj hresume ▸ reconciling_step hs ⟨rfl, rfl⟩ rfl
  · exact Option.some.inj hresume ▸ reconciling_step hs ⟨rfl, rfl⟩ rfl
  · split_ifs at hresume
    · exact Option.some.inj hresume ▸ reconciling_step hs ⟨rfl, rfl⟩ rfl
    · exact Option.some.inj hresume ▸ rollSessionForward_step rfl hs.reconciling.symm
        hs.tearingDown.symm
  · cases hresume

theorem resumeRollingMain_fits {status : BotSessionStatus} (hs : Reconciling s.loop)
    (hresume : s.resumeRollingMain main status answer = some t) : StepFits rules s t := by
  obtain ⟨⟨state, closed⟩, hclose, ht⟩ := Option.map_eq_some_iff.mp hresume
  have hview := view_closeSession hclose
  rw [← ht]
  dsimp only
  split_ifs
  · exact rollSessionForward_step hview hs.reconciling.symm hs.tearingDown.symm
  · exact degraded_fits hs hview

theorem resumeRollingEnsure_fits {message : String} (hs : Reconciling s.loop)
    (hresume : s.resumeRollingEnsure main message answer = some t) : StepFits rules s t := by
  obtain ⟨⟨state, closed⟩, hclose, ht⟩ := Option.map_eq_some_iff.mp hresume
  have hview := view_closeSession hclose
  rw [← ht]
  dsimp only
  split_ifs
  · have hroll : StepFits rules s
        { s with state := state.rollSessionForward main, loop := .running (.ensureMain 1) } :=
      rollSessionForward_step hview hs.reconciling.symm hs.tearingDown.symm
    exact ⟨hroll.moves, fun _ => .inl⟩
  · exact degraded_fits hs hview

/-- When an answer of the main session's `Ready` is for what the configuration still says. -/
def ReadyCurrent (s : System) (input : System.Input) : Prop :=
  match s.loop, input with
  | .waiting (.ensuringMain _ request), .loop (.ensured ..) => s.state.mainView.Agrees request
  | _, _ => True

theorem resumeEnsuringMain_fits {attempt : Nat} {request : BotEnsureSessionRequest}
    (hloop : s.loop = .waiting (.ensuringMain attempt request))
    (hcurrent : rules.current → ReadyCurrent s (.loop answer))
    (hresume : s.resumeEnsuringMain attempt request answer = some t) : StepFits rules s t := by
  have hs : Reconciling s.loop := by
    rw [hloop]
    exact ⟨rfl, rfl⟩
  unfold System.resumeEnsuringMain at hresume
  split at hresume
  next profileRevision carriedToolIds =>
    rw [← Option.some.inj hresume]
    refine ⟨.single ?_, fun _ => .inl⟩
    have hboard : ((s.withLog [.ready request profileRevision]).goto .dispatch
        (s.state.markSessionReady profileRevision)).board = { s.board with
          view := { s.state.view with main := s.state.view.main.ready profileRevision }
          reconciling := false
          log := s.board.log ++ [.ready request profileRevision] } := by
      unfold System.board
      rw [hs.tearingDown]
      rfl
    rw [hboard]
    refine .ready s.board request profileRevision hs.reconciling fun hrule => ?_
    have hagrees := hcurrent hrule
    unfold ReadyCurrent at hagrees
    rw [hloop] at hagrees
    exact hagrees
  -- Both refusals rotate the main session, or degrade.
  iterate 2
    · split at hresume
      next state hrotate =>
        split_ifs at hrotate
        rw [← Option.some.inj hresume]
        refine .of_move ?_
        have hboard : ({ s with state, loop := .running (.ensureMain 1) } : System).board =
            { s.board with view := { s.state.view with main := s.state.view.main.rotated } } := by
          unfold System.board
          rw [view_rotateMainForReconcile hrotate, hs.reconciling, hs.tearingDown]
          rfl
        rw [hboard]
        exact .rotateMain s.board hs.reconciling
      · exact Option.some.inj hresume ▸ degraded_fits hs rfl
  · split_ifs at hresume
    · exact Option.some.inj hresume ▸ reconciling_step hs ⟨rfl, rfl⟩ rfl
    · exact Option.some.inj hresume ▸ degraded_fits hs rfl
  · exact Option.some.inj hresume ▸ degraded_fits hs rfl
  · cases hresume

/-! ## Dispatch and the end of a pass -/

/-- No lane of a logical target is in flight when dispatch may take another of it. -/
def DispatchApart (s : System) : Prop :=
  s.loop = .running .dispatch → s.state.config.enabled = true →
    ∀ h ∈ holdsOf s.tasks, ∀ other ∈ s.state.pendingDeliveries,
      Startable s.state s.nowMs other → h.delivery.logical ≠ other.logical

theorem mem_holdsOf {h : Hold} : h ∈ holdsOf tasks ↔
    ∃ delivery target pc, Task.lane delivery target pc ∈ tasks ∧
      h = ⟨delivery, target, pc.started, pc.parked⟩ := by
  induction tasks with
  | nil => simp [holdsOf]
  | cons task rest ih =>
    have hcons : h ∈ holdsOf (task :: rest) ↔ h ∈ task.holds ∨ h ∈ holdsOf rest :=
      Multiset.mem_add
    rw [hcons, ih]
    constructor
    · rintro (hfirst | ⟨delivery, target, pc, hmem, rfl⟩)
      · cases task with
        | lane delivery target pc =>
          exact ⟨delivery, target, pc, List.mem_cons_self, Multiset.mem_singleton.mp hfirst⟩
        | sidecar | settling | invocation => exact absurd hfirst (Multiset.notMem_zero h)
      · exact ⟨delivery, target, pc, List.mem_cons_of_mem _ hmem, rfl⟩
    · rintro ⟨delivery, target, pc, hmem, rfl⟩
      rcases List.mem_cons.mp hmem with heq | hmem
      · rw [← heq]
        exact .inl (Multiset.mem_singleton_self _)
      · exact .inr ⟨delivery, target, pc, hmem, rfl⟩

theorem runDispatch_fits (hloop : s.loop = .running .dispatch)
    (hapart : rules.aligned → DispatchApart s) : StepFits rules s s.runDispatch := by
  have hs : Calm s.loop := by
    rw [hloop]
    exact ⟨rfl, rfl⟩
  unfold System.runDispatch
  split_ifs with henabled
  · have halign : rules.aligned → ∀ h ∈ s.board.holds, ∀ other ∈ s.state.pendingDeliveries,
        Startable s.state s.nowMs other → h.delivery.logical ≠ other.logical :=
      fun haligned => hapart haligned hloop henabled
    have hview : s.board.view = s.state.view := rfl
    have hmoves := dispatch_moves hview rfl halign
    refine ⟨?_, fun task hmem => ?_⟩
    · have hboard : ({ s with
          state := (s.state.dispatch s.nowMs).1, loop := .running .renew
          tasks := s.tasks ++ (s.state.dispatch s.nowMs).2.map System.taskOf } : System).board =
            { s.board with
              view := (s.state.dispatch s.nowMs).1.view
              holds := holdsOf ((s.state.dispatch s.nowMs).2.map System.taskOf) + s.board.holds
              asides :=
                asidesOf ((s.state.dispatch s.nowMs).2.map System.taskOf) + s.board.asides } := by
        unfold System.board
        dsimp only
        rw [holdsOf_append, asidesOf_append, hs.reconciling, hs.tearingDown, add_comm,
          add_comm (asidesOf s.tasks)]
        rfl
      exact hboard ▸ hmoves
    · rcases List.mem_append.mp hmem with hold | hnew
      · exact .inl hold
      · exact .inr (dispatchFrom_sound rfl task hnew)
  · exact calm_step hs ⟨rfl, rfl⟩ rfl

theorem card_holdsOf_add_card_asidesOf (tasks : List Task) :
    (holdsOf tasks).card + (asidesOf tasks).card ≤ tasks.length := by
  induction tasks with
  | nil => exact le_refl 0
  | cons task rest ih =>
    have hfirst : task.holds.card + task.asides.card ≤ 1 := by
      cases task <;> simp [Task.holds, Task.asides]
    have hholds : holdsOf (task :: rest) = task.holds + holdsOf rest := rfl
    have hasides : asidesOf (task :: rest) = task.asides + asidesOf rest := rfl
    rw [hholds, hasides, Multiset.card_add, Multiset.card_add, List.length_cons]
    omega

/-- What the next execution starts as, on the board. -/
theorem continueAsNew_fits (hs : Calm s.loop) {suggested : Bool} :
    StepFits rules s (s.continueAsNew suggested) := by
  unfold System.continueAsNew
  split_ifs with hquiet
  · have hparked : ∀ lane ∈ s.state.activeBySession.values, lane.parked = true := by
      unfold canContinueAsNew at hquiet
      simp only [Bool.and_eq_true, List.all_eq_true] at hquiet
      exact fun lane hmem => (hquiet.1.1.1.1.2 lane hmem).1
    have hpolled : s.tasks.length = s.state.activeBySession.lanes.entries.length := by
      unfold canContinueAsNew at hquiet
      simp only [Bool.and_eq_true, beq_iff_eq] at hquiet
      exact hquiet.1.1.2
    refine ⟨.single ?_, fun task hmem => ?_⟩
    · have hholds : holdsOf ((renewed s.state s.nowMs).waitingLanes.map System.resumedTask) =
          s.board.view.lanes.filter fun l => l.started = true := by
        rw [holdsOf_resumed _ lanes_renewed, activeBySession_renewed]
        exact holds_inherited hparked
      have hboard : (System.start { config := s.state.config, carry := some s.state.carry } s.nowMs
          s.log).board = { s.board with
            view := (renewed s.state s.nowMs).view, reconciling := false
            holds := s.board.view.lanes.filter fun l => l.started = true, asides := 0 } := by
        rw [← hholds, ← asidesOf_resumed (renewed s.state s.nowMs).waitingLanes]
        unfold System.board
        rw [hs.tearingDown]
        rfl
      rw [hboard, view_renewed hparked]
      refine .renew s.board _ _ ?_ ?_ ?_ ?_
      · intro hdirty
        show (s.state.configDirty || _) = true
        rw [show s.state.configDirty = true from hdirty, Bool.true_or]
      · intro hseen
        have hseen : s.state.seenEventIds.order ≠ [] := by simpa [System.board, view] using hseen
        show (!(renewed s.state s.nowMs).seenEventIds.order.isEmpty) = true
        rw [seenEventIds_renewed hseen]
        simpa using hseen
      · intro l hl
        obtain ⟨key, lane, hget, rfl⟩ := LaneMap.mem_holds.mp hl
        exact hparked lane (OrdMap.mem_values.mpr ⟨key, hget⟩)
      · have hlanes : s.board.view.lanes.card = s.state.activeBySession.lanes.entries.length :=
          (Multiset.coe_card _).trans (List.length_map laneHold)
        rw [hlanes, ← hpolled]
        exact card_holdsOf_add_card_asidesOf s.tasks
    · obtain ⟨lane, -, rfl⟩ := List.mem_map.mp hmem
      exact .inr trivial
  · exact calm_step hs ⟨rfl, rfl⟩ rfl

/-! ## Teardown -/

theorem teardown_fits (hs : Calm s.loop) : StepFits rules s s.teardown := by
  have harchive : ∀ (log : List Obs) (loop : LoopPc), loop.reconciling = false →
      loop.tearingDown = true → (∀ obs ∈ log, ∃ eventIds, obs = .archived eventIds) →
        StepFits rules s { s with
          state := { s.state with closing := true }, loop, log := s.log ++ log } := by
    intro log loop hr ht hlog
    refine ⟨.single ?_, fun _ => .inl⟩
    have hboard : ({ s with
        state := { s.state with closing := true }, loop, log := s.log ++ log } : System).board =
          { s.board with tearingDown := true, log := s.board.log ++ log } := by
      unfold System.board
      rw [hr, ht, hs.reconciling]
      rfl
    rw [hboard]
    exact .archive s.board log hlog
  unfold System.teardown
  dsimp only
  split_ifs
  · have hnone := harchive [] (.running .clear) rfl rfl fun _ h => nomatch h
    rwa [List.append_nil] at hnone
  · exact harchive [.archived _] (.waiting .archiving) rfl rfl fun obs hobs =>
      ⟨_, List.mem_singleton.mp hobs⟩

theorem clear_fits (hloop : s.loop = .running .clear) : StepFits rules s s.clear := by
  refine .of_move ?_
  have hboard : s.clear.board =
      { s.board with view := { s.board.view with pending := [], buffers := 0 } } := by
    unfold System.board
    rw [hloop]
    rfl
  have hmove : Move rules s.board _ := .clear s.board (by
    show s.loop.tearingDown = true
    rw [hloop]
    rfl)
  exact hboard ▸ hmove

/-- A step of the teardown that does not show. -/
theorem tearingDown_step (hs : s.loop.tearingDown = true) (hr : s.loop.reconciling = false)
    (hloop : loop.tearingDown = true) (hlr : loop.reconciling = false)
    (hview : state.view = s.state.view) : StepFits rules s { s with state, loop } :=
  quiet_step hview (hlr.trans hr.symm) (hloop.trans hs.symm)

theorem closeEach_fits (hs : s.loop.tearingDown = true) (hr : s.loop.reconciling = false)
    {sessions : List String} : StepFits rules s (s.closeEach sessions) := by
  cases sessions <;> exact tearingDown_step hs hr rfl rfl rfl

/-! ## The loop -/

/-- Every stage of a pass. -/
theorem runStage_fits {stage : Stage} {suggested : Bool} (hloop : s.loop = .running stage)
    (hapart : rules.aligned → DispatchApart s) :
    StepFits rules s (s.runStage sha256Hex suggested stage) := by
  have hcalm : Calm (.running stage) → Calm s.loop := fun hcalm => hloop ▸ hcalm
  cases stage with
  | check => exact check_fits (hcalm ⟨rfl, rfl⟩)
  | emissions => exact processEmissions_fits (hcalm ⟨rfl, rfl⟩)
  | invocations => exact spawnInvocationLanes_fits (hcalm ⟨rfl, rfl⟩)
  | sweep => exact sweepDeadSessions_fits (hcalm ⟨rfl, rfl⟩)
  | rollDead dead => exact rollDead_fits (hcalm ⟨rfl, rfl⟩)
  | rotate => exact rotateRequestedSessions_fits (hcalm ⟨rfl, rfl⟩)
  | rotateEach nowMs targets retry => exact rotateEach_fits (hcalm ⟨rfl, rfl⟩)
  | flush => exact flushRipe_fits (hcalm ⟨rfl, rfl⟩)
  | idle | park => exact calm_step (hcalm ⟨rfl, rfl⟩) ⟨rfl, rfl⟩ rfl
  | closeIdle nowMs sessions => exact closeIdle_fits (hcalm ⟨rfl, rfl⟩)
  | descendants => exact refreshDescendantsToday_fits (hcalm ⟨rfl, rfl⟩)
  | rename => exact applyDisplayName_fits (hcalm ⟨rfl, rfl⟩)
  | renameEach targets => exact renameEach_fits (hcalm ⟨rfl, rfl⟩)
  | reconcile => exact reconcileUnlessBusy_fits (hcalm ⟨rfl, rfl⟩)
  | ensureMain attempt =>
    have hs : Reconciling s.loop := hloop ▸ ⟨rfl, rfl⟩
    exact reconciling_step hs ⟨rfl, rfl⟩ rfl
  | dispatch => exact runDispatch_fits hloop hapart
  | renew => exact continueAsNew_fits (hcalm ⟨rfl, rfl⟩)
  | teardown => exact teardown_fits (hcalm ⟨rfl, rfl⟩)
  | clear => exact clear_fits hloop
  | closeEach sessions => exact closeEach_fits (hloop ▸ rfl) (hloop ▸ rfl)

theorem view_bestEffort {next : ControllerState}
    (h : System.bestEffort answer state = some next) : next.view = state.view := by
  unfold System.bestEffort at h
  split at h
  · rw [← Option.some.inj h]
  · rw [← Option.some.inj h]
    rfl
  · cases h

/-- Every end of a wait of the loop. -/
theorem resumeLoop_fits {wait : Wait} (hloop : s.loop = .waiting wait)
    (hcurrent : rules.current → ReadyCurrent s (.loop answer))
    (hresume : s.resumeLoop sha256Hex answer wait = some t) : StepFits rules s t := by
  have hcalm : Calm (.waiting wait) → Calm s.loop := fun hcalm => hloop ▸ hcalm
  have hrec : Reconciling (.waiting wait) → Reconciling s.loop := fun hrec => hloop ▸ hrec
  cases wait with
  | begin =>
    simp only [System.resumeLoop] at hresume
    split at hresume
    · exact Option.some.inj hresume ▸ calm_step (hcalm ⟨rfl, rfl⟩) ⟨rfl, rfl⟩ rfl
    · cases hresume
  | readingRun sessionId runId token status failureMessageRef pc =>
    obtain ⟨⟨state, next⟩, hread, ht⟩ := Option.map_eq_some_iff.mp hresume
    have hview := view_reconcileRun hread
    rw [← ht]
    cases next with
    | none =>
      exact calm_step (hcalm ⟨rfl, rfl⟩) ⟨rfl, rfl⟩ (view_attachTerminal.trans hview)
    | some next => exact calm_step (hcalm ⟨rfl, rfl⟩) ⟨rfl, rfl⟩ hview
  | readingDead | counting =>
    simp only [System.resumeLoop] at hresume
    split at hresume
    · exact Option.some.inj hresume ▸ calm_step (hcalm ⟨rfl, rfl⟩) ⟨rfl, rfl⟩ rfl
    · exact Option.some.inj hresume ▸ calm_step (hcalm ⟨rfl, rfl⟩) ⟨rfl, rfl⟩ rfl
    · cases hresume
  | rollingDead sessionId dead =>
    have hs := hcalm ⟨rfl, rfl⟩
    obtain ⟨⟨state, closed⟩, hclose, ht⟩ := Option.map_eq_some_iff.mp hresume
    have hview := view_closeSession hclose
    rw [← ht]
    dsimp only
    split_ifs
    · exact rollSessionForward_step hview hs.reconciling.symm hs.tearingDown.symm
    · exact calm_step hs ⟨rfl, rfl⟩ hview
  | rotating nowMs target isMain targets retry =>
    have hs := hcalm ⟨rfl, rfl⟩
    obtain ⟨⟨state, closed⟩, hclose, ht⟩ := Option.map_eq_some_iff.mp hresume
    have hview := view_closeSession hclose
    rw [← ht]
    dsimp only
    split_ifs
    · unfold System.rotateClosed
      dsimp only
      split_ifs
      · refine .of_move ?_
        have hroll : ({ state with
            budgetRoots := state.budgetRoots.insert target ()
            rotationRequests := state.rotationRequests.erase target
            lastError := none } : ControllerState).view = s.state.view := hview
        have hboard : ({ s with
            state := ({ state with
              budgetRoots := state.budgetRoots.insert target ()
              rotationRequests := state.rotationRequests.erase target
              lastError := none } : ControllerState).rotateMainSession true
            loop := .running (.rotateEach nowMs targets retry) } : System).board =
              { s.board with view := { s.state.view with main := s.state.view.main.rolled } } := by
          unfold System.board
          rw [view_rotateMainSession_true, hroll, hs.reconciling, hs.tearingDown]
          rfl
        rw [hboard]
        exact .rollMain s.board
      · exact calm_step hs ⟨rfl, rfl⟩ ((view_forgetRoutedSession _ target).trans hview)
    · exact calm_step hs ⟨rfl, rfl⟩ hview
  | closingIdle nowMs sessionId sessions =>
    have hs := hcalm ⟨rfl, rfl⟩
    obtain ⟨⟨state, closed⟩, hclose, ht⟩ := Option.map_eq_some_iff.mp hresume
    have hview := view_closeSession hclose
    rw [← ht]
    dsimp only
    split_ifs
    · exact calm_step hs ⟨rfl, rfl⟩ ((view_forgetRoutedSession _ sessionId).trans hview)
    · exact calm_step hs ⟨rfl, rfl⟩ (view_touchSession.trans hview)
  | «renaming» targets =>
    obtain ⟨state, heffort, ht⟩ := Option.map_eq_some_iff.mp hresume
    rw [← ht]
    exact calm_step (hcalm ⟨rfl, rfl⟩) ⟨rfl, rfl⟩ (view_bestEffort heffort)
  | readingMain main => exact resumeReadingMain_fits (hrec ⟨rfl, rfl⟩) hresume
  | rollingMain main status => exact resumeRollingMain_fits (hrec ⟨rfl, rfl⟩) hresume
  | ensuringMain attempt request => exact resumeEnsuringMain_fits hloop hcurrent hresume
  | rollingEnsure main message => exact resumeRollingEnsure_fits (hrec ⟨rfl, rfl⟩) hresume
  | archiving =>
    obtain ⟨state, heffort, ht⟩ := Option.map_eq_some_iff.mp hresume
    rw [← ht]
    exact tearingDown_step (hloop ▸ rfl) (hloop ▸ rfl) rfl rfl (view_bestEffort heffort)
  | closingEach sessionId sessions =>
    obtain ⟨⟨state, closed⟩, hclose, ht⟩ := Option.map_eq_some_iff.mp hresume
    rw [← ht]
    exact tearingDown_step (hloop ▸ rfl) (hloop ▸ rfl) rfl rfl (view_closeSession hclose)
  | recordingClosed =>
    obtain ⟨state, heffort, ht⟩ := Option.map_eq_some_iff.mp hresume
    have hview : state.view = s.state.view := view_bestEffort heffort
    rw [← ht]
    exact tearingDown_step (hloop ▸ rfl) (hloop ▸ rfl) rfl rfl hview
  | parked laneTick eventTick deadline =>
    simp only [System.resumeLoop] at hresume
    split_ifs at hresume
    exact Option.some.inj hresume ▸ calm_step (hcalm ⟨rfl, rfl⟩) ⟨rfl, rfl⟩ rfl

/-! ## Signals -/

/-- A change of the state that does not show, while the loop waits. -/
theorem state_step (hview : state.view = s.state.view) : StepFits rules s { s with state } :=
  quiet_step hview rfl rfl

theorem botEvent_fits {event : BotEvent} (hroute : event.RoutedFor s.state.config.botId) :
    StepFits rules s (s.botEvent sha256Hex event) := by
  unfold System.botEvent
  dsimp only
  split
  · exact state_step rfl
  next next haccept =>
    refine ⟨?_, fun _ => .inl⟩
    have hview : s.board.view = s.tickClock.view := rfl
    have hmoves : ReflTransGen (Move rules) s.board _ := acceptEvent_moves hview hroute haccept
    exact hmoves

theorem botConfig_fits {config : BotControllerConfig} : StepFits rules s (s.botConfig config) := by
  unfold System.botConfig
  dsimp only
  split
  · exact state_step rfl
  next next haccept =>
    obtain ⟨hview, hid⟩ := view_acceptConfig haccept
    refine ⟨.single ?_, fun _ => .inl⟩
    have hboard : ({ s.withLog [.configured config] with state := next } : System).board =
        { s.board with
          view := { s.board.view with main := s.board.view.main.configured config }
          log := s.board.log ++ [.configured config] } := by
      unfold System.board
      rw [hview]
      rfl
    rw [hboard]
    exact .configure s.board config hid

/-! ## Tasks -/

theorem sum_eraseIdx {M : Type} [AddCommMonoid M] (f : Task → M) (h : tasks[index]? = some task) :
    (tasks.map f).sum = f task + ((tasks.eraseIdx index).map f).sum := by
  obtain ⟨hlt, rfl⟩ := List.getElem?_eq_some_iff.mp h
  rw [← List.sum_cons, ← List.map_cons]
  exact ((List.getElem_cons_eraseIdx_perm hlt).symm.map f).sum_eq

theorem holdsOf_eraseIdx (h : tasks[index]? = some task) :
    holdsOf tasks = task.holds + holdsOf (tasks.eraseIdx index) :=
  sum_eraseIdx Task.holds h

theorem asidesOf_eraseIdx (h : tasks[index]? = some task) :
    asidesOf tasks = task.asides + asidesOf (tasks.eraseIdx index) :=
  sum_eraseIdx Task.asides h

/-- A task in another's place. -/
theorem set_of_getElem? (h : tasks[index]? = some task) (next : Task) :
    (tasks.set index next)[index]? = some next ∧
      (tasks.set index next).eraseIdx index = tasks.eraseIdx index := by
  have hlt : index < tasks.length := (List.getElem?_eq_some_iff.mp h).1
  refine ⟨List.getElem?_set_self hlt, ?_⟩
  rw [List.eraseIdx_set_eq]

/-- Every lane's delivery goes by a route of its admission. -/
def TasksRouted (s : System) : Prop := ∀ task ∈ s.tasks, task.RoutedFor s.state.config.botId

/-- Every task's wait is sound. -/
def TasksSound (s : System) : Prop := ∀ task ∈ s.tasks, task.Sound s.state.config.botId

theorem resumeTask_fits (hrouted : rules.aligned → TasksRouted s) (hsound : TasksSound s)
    (hresume : s.resumeTask sha256Hex index answer = some t) : StepFits rules s t := by
  unfold System.resumeTask at hresume
  split at hresume
  · cases hresume
  next task htask =>
    obtain ⟨turn, hturn, ht⟩ := Option.map_eq_some_iff.mp hresume
    have hmem : task ∈ s.tasks := List.mem_of_getElem? htask
    have hroute : rules.aligned → task.RoutedFor s.state.config.botId :=
      fun haligned => hrouted haligned task hmem
    have hfits := resume_fits hroute (hsound task hmem) hturn
    have hmoves := hfits.moves s.board (holdsOf (s.tasks.eraseIdx index))
      (asidesOf (s.tasks.eraseIdx index)) rfl rfl (holdsOf_eraseIdx htask) (asidesOf_eraseIdx htask)
    rw [← ht]
    cases hnext : turn.task with
    | none =>
      have hholds : turn.holds + holdsOf (s.tasks.eraseIdx index) =
          holdsOf (s.tasks.eraseIdx index) := by
        rw [Turn.holds, hnext]
        exact zero_add _
      have hasides : turn.asides + asidesOf (s.tasks.eraseIdx index) =
          asidesOf (s.tasks.eraseIdx index) := by
        rw [Turn.asides, hnext]
        exact zero_add _
      rw [hholds, hasides] at hmoves
      exact ⟨hmoves, fun other hother => .inl (List.mem_of_mem_eraseIdx hother)⟩
    | some next =>
      obtain ⟨hget, herase⟩ := set_of_getElem? htask next
      have hholds : turn.holds + holdsOf (s.tasks.eraseIdx index) =
          holdsOf (s.tasks.set index next) := by
        rw [holdsOf_eraseIdx hget, herase, Turn.holds, hnext]
        exact congrArg (· + _) (add_zero _)
      have hasides : turn.asides + asidesOf (s.tasks.eraseIdx index) =
          asidesOf (s.tasks.set index next) := by
        rw [asidesOf_eraseIdx hget, herase, Turn.asides, hnext]
        exact congrArg (· + _) (add_zero _)
      rw [hholds, hasides] at hmoves
      refine ⟨hmoves, fun other hother => ?_⟩
      rcases List.mem_or_eq_of_mem_set hother with hold | hnew
      · exact .inl hold
      · exact .inr (hnew ▸ hfits.sound next hnext)

/-! ## The system -/

/-- What is asked of a step when the rules of moves are. -/
structure StepMeets (rules : Rules) (s : System) (input : System.Input) : Prop where
  apart : rules.aligned → DispatchApart s
  current : rules.current → ReadyCurrent s input

/-- Every step of the controller is a chain of moves. -/
theorem step_fits {input : System.Input} (hrouted : rules.aligned → TasksRouted s)
    (hsound : TasksSound s) (hmeets : StepMeets rules s input)
    (hstep : s.step sha256Hex input = some t) : StepFits rules s t := by
  unfold System.step at hstep
  split at hstep
  next stage suggested hloop =>
    exact Option.some.inj hstep ▸ runStage_fits hloop hmeets.apart
  next wait answer hloop =>
    exact resumeLoop_fits hloop hmeets.current hstep
  next wait nowMs hloop =>
    split_ifs at hstep with hle
    rw [← Option.some.inj hstep]
    exact ⟨.single (.tick s.board nowMs hle), fun _ => .inl⟩
  next wait event hloop =>
    split_ifs at hstep with hroute
    exact Option.some.inj hstep ▸ botEvent_fits hroute
  next wait config hloop => exact Option.some.inj hstep ▸ botConfig_fits
  next wait sessionId hloop =>
    rw [← Option.some.inj hstep]
    exact state_step view_requestRotation
  next wait envelope hloop =>
    rw [← Option.some.inj hstep]
    exact state_step rfl
  next wait index answer hloop => exact resumeTask_fits hrouted hsound hstep
  · cases hstep

end Lightspeed.Bots
