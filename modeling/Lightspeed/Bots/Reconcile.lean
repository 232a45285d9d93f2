import Lightspeed.Bots.BoardRuns

/-!
# The main session and its configuration

While the loop brings the main session in line, the configuration may change again. A main session
that is ready and clean is the one that the configuration asks for, as long as every `Ready` that was
taken was for what the configuration still said.
-/

namespace Lightspeed.Bots

open Lib Harness Relation

variable {rules : Rules} {sha256Hex : String → String} {a b : Board} {s : System} {log : List Obs}

instance (m : MainView) (request : BotEnsureSessionRequest) : Decidable (m.Agrees request) :=
  inferInstanceAs (Decidable (_ ∧ _ ∧ _ ∧ _ ∧ _ ∧ _))

instance (s : System) (input : System.Input) : Decidable (ReadyCurrent s input) := by
  unfold ReadyCurrent
  split <;> infer_instance

/-- What a `Ready` of the session's says. -/
def readyOf (sessionId : String) : Obs → Option (BotEnsureSessionRequest × Nat)
  | .ready request profileRevision =>
    if request.sessionId = sessionId then some (request, profileRevision) else none
  | _ => none

/-- The last request for a session that returned `Ready`, and the profile revision of the answer. -/
def lastReady (log : List Obs) (sessionId : String) : Option (BotEnsureSessionRequest × Nat) :=
  (log.filterMap (readyOf sessionId)).getLast?

theorem lastReady_append {more : List Obs} {sessionId : String}
    (h : more.filterMap (readyOf sessionId) = []) :
    lastReady (log ++ more) sessionId = lastReady log sessionId := by
  rw [lastReady, List.filterMap_append, h, List.append_nil]
  rfl

theorem lastReady_ready {request : BotEnsureSessionRequest} {profileRevision : Nat} :
    lastReady (log ++ [.ready request profileRevision]) request.sessionId =
      some (request, profileRevision) := by
  have hlast : [Obs.ready request profileRevision].filterMap (readyOf request.sessionId) =
      [(request, profileRevision)] := by simp [readyOf]
  rw [lastReady, List.filterMap_append, hlast, List.getLast?_append]
  rfl

/-- What stands of a main session that is ready and clean. -/
def MainView.Current (m : MainView) (log : List Obs) : Prop :=
  m.sessionReady = true → m.configDirty = false →
    ∃ ready ∈ lastReady log m.mainSessionId, m.Agrees ready.1 ∧
      m.appliedProfileId = some ready.1.profileId ∧ m.appliedProfileRevision = some ready.2

instance (m : MainView) (log : List Obs) : Decidable (m.Current log) := by
  unfold MainView.Current
  infer_instance

/-- What the moves keep: the loop brings a main session in line only while it is dirty. -/
structure Board.Current (b : Board) : Prop where
  dirty : b.reconciling = true → b.view.main.configDirty = true
  main : b.view.main.Current b.log

/-- A main session that is not ready, or dirty, promises nothing. -/
theorem current_of_not_ready {m : MainView} (h : m.sessionReady = false) : m.Current log := by
  intro hready
  rw [h] at hready
  cases hready

theorem current_of_dirty {m : MainView} (h : m.configDirty = true) : m.Current log := by
  intro _ hclean
  rw [h] at hclean
  cases hclean

/-- What is no `Ready` does not change what the last one said. -/
theorem MainView.Current.append {m : MainView} {more : List Obs} (h : m.Current log)
    (hmore : more.filterMap (readyOf m.mainSessionId) = []) : m.Current (log ++ more) := by
  unfold MainView.Current
  rw [lastReady_append hmore]
  exact h

/-- The bare id is the first generation's. -/
theorem botMainSessionId_max (botId : BotId) (generation : Nat) :
    botMainSessionId botId (max generation 1) = botMainSessionId botId generation := by
  rcases Nat.le_total generation 1 with h | h
  · have hmax : max generation 1 = 1 := by omega
    rw [hmax, botMainSessionId, botMainSessionId, if_pos (le_refl 1), if_pos h]
  · rw [Nat.max_eq_left h]

/-- Every move keeps a clean main session current, when `Ready` is taken for what still stands. -/
theorem Board.Current.move (hcurrent : rules.current) (hmove : Move rules a b) (ha : a.Current) :
    b.Current := by
  cases hmove with
  | tick nowMs hle | dropBuffer buffer rest hbuffers hevents
  | aside before after delivery hpending hbusy | park h rest hholds hstarted
  | requeue h rest delivery hholds hstarted hcore | drop h rest hholds hevents
  | asideBack held rest delivery hasides hcore | clear htearing
  | asideDrop held rest hasides hevents
  | take before after delivery target hpending hfree hfirst hid hday hbudget aligned =>
    exact ⟨ha.dirty, ha.main⟩
  | configure next hid | rollMain => exact ⟨fun _ => rfl, current_of_dirty rfl⟩
  | rotateMain hr =>
    have hdirty : a.view.main.rotated.configDirty = true := ha.dirty hr
    exact ⟨fun _ => hdirty, current_of_dirty hdirty⟩
  | reconcile hdirty => exact ⟨fun _ => hdirty, ha.main⟩
  | degrade => exact ⟨by simp, current_of_not_ready rfl⟩
  | leave => exact ⟨by simp, ha.main⟩
  | ready request profileRevision hr current =>
    refine ⟨by simp, fun _ _ => ?_⟩
    have hagrees := current hcurrent
    have hid : request.sessionId = (a.view.main.ready profileRevision).mainSessionId := hagrees.1
    refine ⟨(request, profileRevision), ?_, hagrees, ?_, rfl⟩
    · rw [← hid]
      exact lastReady_ready
    · show some a.view.main.config.profileId = some request.profileId
      rw [hagrees.2.1]
  | accept event hroute | finish h rest hholds
  | flush buffer rest delivery hbuffers hevents hsession hcore
  | openBuffer event buffer hroute hevents hsession
  | rekey h rest target displaced hholds hdisplaced hid
  | joinBuffer event buffer joined rest hbuffers hevents hsession | asideDone held rest hasides =>
    exact ⟨ha.dirty, ha.main.append rfl⟩
  | rollDay => exact ⟨by simpa using ha.dirty, by simpa using ha.main⟩
  | begin h rest runId hholds hstarted hparked hbusy =>
    refine ⟨by simpa [View.mark] using ha.dirty, ?_⟩
    rw [View.roll_main]
    exact ha.main.append rfl
  | archive log hlog =>
    refine ⟨ha.dirty, ha.main.append ?_⟩
    rw [List.filterMap_eq_nil_iff]
    intro obs hobs
    obtain ⟨eventIds, rfl⟩ := hlog obs hobs
    rfl
  | renew dirty seen hdirty hseen hparked hcount =>
    refine ⟨by simp, fun hready hclean => ?_⟩
    have hold : a.view.main.configDirty = false := by
      rw [← Bool.not_eq_true]
      intro hold
      rw [hdirty hold] at hclean
      cases hclean
    obtain ⟨ready, hlast, hagrees, hprofile, hrevision⟩ := ha.main hready hold
    have hid : ({ a.view.main with
        configDirty := dirty, mainGeneration := max a.view.main.mainGeneration 1 } :
          MainView).mainSessionId = a.view.main.mainSessionId := botMainSessionId_max _ _
    refine ⟨ready, ?_, ?_, hprofile, hrevision⟩
    · rw [hid]
      exact hlast
    · unfold MainView.Agrees
      rw [hid]
      exact hagrees

theorem initial_current (h : System.Initial s) : s.board.Current := by
  obtain ⟨config, mainGeneration, sessionGenerations, nowMs, rfl⟩ := h.eq_start
  exact ⟨nofun, current_of_not_ready rfl⟩

/-- In a run that takes every `Ready` for what the configuration still says, a main session that is
ready and clean is the one of the last `Ready`, which was asked for exactly as the configuration is. -/
theorem main_session_current {steps : List (System × System.Input)}
    (hrun : (System.controller sha256Hex).Run steps s)
    (hcurrent : ∀ step ∈ steps, ReadyCurrent step.1 step.2) : s.state.mainView.Current s.log := by
  have hmeets : ∀ step ∈ steps, StepMeets ⟨False, True⟩ step.1 step.2 :=
    fun step hstep => ⟨fun h => h.elim, fun _ => hcurrent step hstep⟩
  exact (run_board (fun _ => initial_current) (fun _ _ => Board.Current.move trivial) hrun hmeets).main

/-! ## A run that takes a stale `Ready` -/

theorem main_session_current_triage : ∃ steps s, (System.controller id).Run steps s ∧
    s.state.sessionReady = true ∧ s.state.configDirty = false ∧ s.state.mainView.Current s.log := by
  obtain ⟨⟨steps, s⟩, hs, hready, hclean, hcurrent⟩ : ∃ r ∈ (System.controller id).trace triageStart
      (untilEnsuring ++ [.loop (.ensured 1 [])]), r.2.state.sessionReady = true ∧
        r.2.state.configDirty = false ∧ ∀ step ∈ r.1, ReadyCurrent step.1 step.2 := by decide +kernel
  have hrun := (Machine.Run.init (m := System.controller id) triageStart_initial).trace hs
  exact ⟨steps, s, hrun, hready, hclean, main_session_current hrun hcurrent⟩

/-- A brief that is configured while the request of the old one is under way is taken for applied. -/
theorem stale_ready_reached : ∃ s, (System.controller id).Reaches s ∧
    s.state.sessionReady = true ∧ s.state.configDirty = false ∧ ¬ s.state.mainView.Current s.log := by
  obtain ⟨s, hs, hstale⟩ : ∃ s ∈ (System.controller id).exec triageStart (untilEnsuring ++
      [.botConfig { triageConfig with brief := some "new" }, .loop (.ensured 1 [])]),
        s.state.sessionReady = true ∧ s.state.configDirty = false ∧
          ¬ s.state.mainView.Current s.log := by decide +kernel
  exact ⟨s, Machine.exec_reaches triageStart_initial hs, hstale⟩

end Lightspeed.Bots
