import Lightspeed.Harness.Store
import Lightspeed.Harness.CodeScopes

/-!
# What lists show

The store's projection sees the kinds of events and no state. Its status is the reduced one. Its activity
is idle exactly while no run is active, and while the run that is active is not being cancelled, it tells
a run that is parked on approvals from one that works or that waits for its own tools.
-/

namespace Lightspeed.Harness

open Lib

variable {sessionId : SessionId} {s t base : CoreAgentState} {log : List CoreAgentEntry}
  {entry : CoreAgentEntry} {input : DriveInput} {record : SessionRecord} {activity : SessionActivity}

/-- A status of the reduced state, as the store writes it. -/
def SessionStatus.stored : SessionStatus → SessionLifecycleStatus
  | .new => .new
  | .open => .open
  | .closed => .closed

/-- What an activity tells of the run that is active. -/
structure ActiveRun.ShownAs (run : ActiveRun) (activity : SessionActivity) : Prop where
  busy : activity ≠ .idle
  running : run.status = .running → activity = .working ∧ run.parkedToolBatch = none
  parked : run.status = .parked →
    (activity = .waiting ↔ run.parkedToolBatch = none) ∧ run.activeTurnId = none

/-- The same run, as far as what it waits for goes. -/
structure ActiveRun.Stands (a b : ActiveRun) : Prop where
  status : b.status = a.status
  parkedToolBatch : b.parkedToolBatch = a.parkedToolBatch
  activeTurnId : b.activeTurnId = a.activeTurnId

theorem ActiveRun.ShownAs.of_stands {a b : ActiveRun} (h : a.ShownAs activity) (hab : a.Stands b) :
    b.ShownAs activity where
  busy := h.busy
  running := by rw [hab.status, hab.parkedToolBatch]; exact h.running
  parked := by rw [hab.status, hab.parkedToolBatch, hab.activeTurnId]; exact h.parked

/-- A run that is neither parked nor waits for anything. -/
theorem ActiveRun.ShownAs.of_working {run : ActiveRun} (hstatus : run.status ≠ .parked)
    (hparked : run.status = .running → run.parkedToolBatch = none) : run.ShownAs .working where
  busy := nofun
  running := fun hrunning => ⟨rfl, hparked hrunning⟩
  parked := fun hpark => absurd hpark hstatus

/-- A record shows what the state is. -/
structure SessionRecord.Shows (record : SessionRecord) (s : CoreAgentState) : Prop where
  status : record.lifecycleStatus = s.lifecycle.status.stored
  inactive : s.runs.active = none → record.activity = .idle
  active : ∀ run, s.runs.active = some run → run.ShownAs record.activity

theorem SessionRecord.Shows.of_active {record' : SessionRecord} {b : ActiveRun}
    (h : record.Shows s) (hstatus : record'.lifecycleStatus = record.lifecycleStatus)
    (hlifecycle : t.lifecycle = s.lifecycle) (hactive : t.runs.active = some b)
    (hshown : b.ShownAs record'.activity) : record'.Shows t where
  status := by rw [hstatus, hlifecycle, h.status]
  inactive := fun hnone => by rw [hnone] at hactive; cases hactive
  active := fun run hrun => by
    obtain rfl : b = run := Option.mem_unique hactive hrun
    exact hshown

/-- An event under which the active run goes back to work. -/
theorem SessionRecord.Shows.resume {a b : ActiveRun} (h : record.Shows s)
    (hbefore : s.runs.active = some a) (hlifecycle : t.lifecycle = s.lifecycle)
    (hactive : t.runs.active = some b) (hworking : b.ShownAs .working) : record.resume.Shows t := by
  refine h.of_active record.resume_lifecycleStatus hlifecycle hactive ?_
  rw [record.resume_activity (h.active a hbefore).busy]
  exact hworking

/-- An event that the projection ignores, and that leaves the runs as they stand. -/
theorem SessionRecord.Shows.of_same {record' : SessionRecord} (h : record.Shows s)
    (hstatus : record'.lifecycleStatus = record.lifecycleStatus)
    (hactivity : record'.activity = record.activity) (hlifecycle : t.lifecycle = s.lifecycle)
    (hactive : ∀ b, t.runs.active = some b → ∃ a, s.runs.active = some a ∧ a.Stands b)
    (hinactive : t.runs.active = none → s.runs.active = none) : record'.Shows t where
  status := by rw [hstatus, hlifecycle, h.status]
  inactive := fun hnone => by rw [hactivity]; exact h.inactive (hinactive hnone)
  active := fun run hrun => by
    obtain ⟨a, ha, hstands⟩ := hactive run hrun
    rw [hactivity]
    exact (h.active a ha).of_stands hstands

/-! ## One event -/

theorem shows_lifecycle {event : LifecycleEvent} (h : record.Shows s)
    (hevent : entry.event = .lifecycle event) (happly : applyLifecycleEvent s event = .ok t) :
    (applyLifecycleProjection record entry).Shows t := by
  unfold applyLifecycleProjection
  rw [hevent]
  cases event with
  | opened config =>
    obtain ⟨-, rfl⟩ := opened_eq_ok.mp happly
    exact ⟨rfl, h.inactive, h.active⟩
  | configChanged config revision =>
    obtain ⟨-, -, -, rfl⟩ := configChanged_eq_ok.mp happly
    exact ⟨h.status, h.inactive, h.active⟩
  | closed =>
    obtain ⟨-, hnone, -, -, rfl⟩ := closed_eq_ok.mp happly
    refine ⟨rfl, fun _ => rfl, fun run hrun => ?_⟩
    have hrun' : s.runs.active = some run := hrun
    rw [hnone] at hrun'
    cases hrun'

theorem shows_run {event : RunEvent} {seq ms : Nat} (h : record.Shows s)
    (hevent : entry.event = .run event) (happly : applyRunEvent s seq ms event = .ok t) :
    (applyLifecycleProjection record entry).Shows t := by
  have hlifecycle : t.lifecycle = s.lifecycle := by rw [applyRunEvent_frame happly]
  unfold applyLifecycleProjection
  rw [hevent]
  cases applyRunEvent_moves happly with
  | queues hqueues hactive ht =>
    have hshows : record.Shows t := h.of_same rfl rfl hlifecycle
      (fun b hb => ⟨b, hactive ▸ hb, rfl, rfl, rfl⟩) fun hnone => hactive ▸ hnone
    cases event <;> first | exact hshows | cases hqueues
  | starts =>
    refine h.of_active rfl rfl rfl ?_
    exact .of_working nofun fun _ => rfl
  | steers hactive =>
    refine h.of_active rfl rfl rfl ?_
    exact (h.active _ hactive).of_stands ⟨rfl, rfl, rfl⟩
  | stops hactive =>
    refine h.of_active rfl rfl rfl ?_
    exact ⟨(h.active _ hactive).busy, nofun, nofun⟩
  | @ends _ run outcome hactive hends =>
    have hidle : ({ record with activity := .idle } : SessionRecord).Shows
        (s.finishRun run outcome seq ms) := by
      refine ⟨by rw [hlifecycle]; exact h.status, fun _ => rfl, fun b hb => ?_⟩
      simp at hb
    cases event <;> first | exact hidle | cases hends

theorem shows_approval {event : ApprovalEvent} {ms : Nat} (h : record.Shows s)
    (hevent : entry.event = .approval event) (hw : Warrant base input s entry)
    (happly : applyApprovalEvent s ms event = .ok t) :
    (applyLifecycleProjection record entry).Shows t := by
  have hlifecycle : t.lifecycle = s.lifecycle := by
    obtain ⟨_, _, -, -, heq⟩ := applyApprovalEvent_moves happly
    rw [heq]
    rfl
  have hknew := hw.knew
  rw [hevent] at hknew
  unfold applyLifecycleProjection
  rw [hevent]
  cases event with
  | requested approval =>
    obtain ⟨run, hactive, -, -, -, -, rfl⟩ := approvalRequested_eq_ok.mp happly
    refine h.of_active rfl rfl rfl ?_
    exact (h.active run hactive).of_stands ⟨rfl, rfl, rfl⟩
  | runParked runId =>
    obtain ⟨run, hactive, -, -, hrunning, hturn, -, rfl⟩ := runParked_eq_ok.mp happly
    have hnone := ((h.active run hactive).running hrunning).2
    refine h.of_active rfl rfl rfl ⟨nofun, nofun, fun _ => ⟨?_, hturn⟩⟩
    exact ⟨fun _ => hnone, fun _ => rfl⟩
  | runUnparked runId =>
    obtain ⟨run, hactive, -, hparked, rfl⟩ := runUnparked_eq_ok.mp happly
    have hnone : run.parkedToolBatch = none := hknew run hactive
    exact h.resume hactive rfl rfl (.of_working nofun fun _ => hnone)
  | decided id runId decision note =>
    obtain ⟨run, _, hactive, -, -, -, -, rfl⟩ := decided_eq_ok.mp happly
    refine h.of_active rfl rfl rfl ?_
    exact (h.active run hactive).of_stands ⟨rfl, rfl, rfl⟩
  | cancelled id runId =>
    obtain ⟨run, _, hactive, -, -, -, -, rfl⟩ := approvalCancelled_eq_ok.mp happly
    refine h.of_active rfl rfl rfl ?_
    exact (h.active run hactive).of_stands ⟨rfl, rfl, rfl⟩

theorem shows_turn {event : TurnEvent} (h : record.Shows s) (hevent : entry.event = .turn event)
    (happly : applyTurnEvent s event = .ok t) : (applyLifecycleProjection record entry).Shows t := by
  have hlifecycle : t.lifecycle = s.lifecycle := by
    obtain ⟨_, _, -, -, -, -, -, heq⟩ := applyTurnEvent_frame happly
    rw [heq]
    rfl
  -- A turn is open in a run that is not parked.
  have hopen : ∀ run turnId, s.runs.active = some run → run.activeTurnId = some turnId →
      run.status ≠ .parked := by
    intro run turnId hactive hturn hparked
    have hnone := ((h.active run hactive).parked hparked).2
    rw [hnone] at hturn
    cases hturn
  have hmoved : ∀ a b, s.runs.active = some a → t.runs.active = some b → b.status = a.status →
      b.parkedToolBatch = a.parkedToolBatch → a.status ≠ .parked → record.Shows t := by
    intro a b ha hb hstatus hbatch hnot
    refine h.of_active rfl hlifecycle hb ⟨(h.active a ha).busy, fun hrunning => ?_, fun hparked => ?_⟩
    · rw [hbatch]
      exact (h.active a ha).running (hstatus ▸ hrunning)
    · exact absurd (hstatus ▸ hparked) hnot
  unfold applyLifecycleProjection
  rw [hevent]
  cases event with
  | started turnId runId =>
    obtain ⟨run, hactive, -, -, hrunning, -, rfl⟩ := turnStarted_eq_ok.mp happly
    have hnone := ((h.active run hactive).running hrunning).2
    refine h.resume hactive rfl rfl (.of_working ?_ fun _ => hnone)
    exact fun hparked => absurd (hrunning.symm.trans hparked) nofun
  | planned turnId runId fingerprint configRevision contextRevision toolsetRevision =>
    obtain ⟨run, _, hactive, -, hturn, -, -, -, -, -, -, rfl⟩ := planned_eq_ok.mp happly
    exact hmoved run _ hactive rfl rfl rfl (hopen run turnId hactive hturn)
  | generationRequested turnId runId =>
    obtain ⟨run, _, hactive, -, hturn, -, -, -, rfl⟩ := generationRequested_eq_ok.mp happly
    have hnot := hopen run turnId hactive hturn
    exact h.resume hactive rfl rfl (.of_working hnot fun hrunning =>
      ((h.active run hactive).running hrunning).2)
  | generationCompleted turnId runId status facts =>
    obtain ⟨run, turn, hactive, -, hturn, -, -, context, -, -, -, rfl⟩ := generationCompleted_ok happly
    refine hmoved run _ hactive rfl ?_ ?_ (hopen run turnId hactive hturn) <;>
    · unfold ActiveRun.settleTurn
      dsimp only
      split_ifs <;> rfl
  | completed turnId outcome =>
    obtain ⟨run, _, hactive, hturn, -, -, rfl⟩ := turnCompleted_eq_ok.mp happly
    exact hmoved run _ hactive rfl rfl rfl (hopen run turnId hactive hturn)
  | cancelled turnId runId =>
    obtain ⟨run, _, hactive, -, hcancelling, -, -, -, rfl⟩ := turnCancelled_eq_ok.mp happly
    refine hmoved run _ hactive rfl rfl rfl fun hparked => ?_
    exact absurd (hcancelling.symm.trans hparked) nofun

theorem shows_tool {event : ToolEvent} (h : record.Shows s) (hevent : entry.event = .tool event)
    (happly : applyToolEvent s event = .ok t) : (applyLifecycleProjection record entry).Shows t := by
  have hlifecycle : t.lifecycle = s.lifecycle := by
    obtain ⟨_, _, -, -, heq⟩ := applyToolEvent_frame happly
    rw [heq]
    rfl
  unfold applyLifecycleProjection
  rw [hevent]
  cases event with
  | batchStarted runId turnId batchId revision calls =>
    obtain ⟨run, _, _, _, hactive, -, -, -, -, -, -, -, -, -, -, -, -, -, -, -, -, -, rfl⟩ :=
      batchStarted_eq_ok.mp happly
    refine h.of_active rfl hlifecycle rfl ?_
    exact (h.active run hactive).of_stands ⟨rfl, rfl, rfl⟩
  | callStarted runId turnId batchId callId toolName argumentsRef =>
    obtain ⟨run, _, _, _, hactive, -, hrunning, -, -, -, -, -, -, -, -, -, -, -, -, rfl⟩ :=
      callStarted_eq_ok.mp happly
    have hnone := ((h.active run hactive).running hrunning).2
    refine h.resume hactive rfl rfl (.of_working ?_ fun _ => hnone)
    exact fun hparked => absurd (hrunning.symm.trans hparked) nofun
  | callCompleted runId turnId batchId result =>
    obtain ⟨run, _, _, hactive, -, -, -, -, -, -, -, -, rfl⟩ := callCompleted_eq_ok.mp happly
    refine h.of_active rfl hlifecycle rfl ?_
    exact (h.active run hactive).of_stands ⟨rfl, rfl, rfl⟩
  | batchParked runId turnId batchId suspension =>
    obtain ⟨run, _, hactive, -, hrunning, hturn, -, -, -, -, -, -, -, rfl⟩ := batchParked_eq_ok.mp happly
    have hworking := ((h.active run hactive).running hrunning).1
    refine h.of_active rfl hlifecycle rfl ⟨(h.active run hactive).busy, nofun, fun _ => ⟨?_, hturn⟩⟩
    rw [hworking]
    exact ⟨nofun, nofun⟩
  | batchUnparked runId turnId batchId =>
    obtain ⟨run, _, hactive, -, -, -, -, -, -, rfl⟩ := batchUnparked_eq_ok.mp happly
    refine h.resume hactive rfl rfl (.of_working ?_ fun _ => rfl)
    show (if run.status = .parked then RunStatus.running else run.status) ≠ .parked
    split_ifs with hparked
    · nofun
    · exact hparked
  | batchCompleted runId turnId batchId =>
    obtain ⟨run, _, _, hactive, -, -, -, -, -, -, -, -, rfl⟩ := batchCompleted_eq_ok.mp happly
    refine h.of_active rfl hlifecycle rfl ?_
    exact (h.active run hactive).of_stands ⟨rfl, rfl, rfl⟩

/-- Every event that is reduced is shown. -/
theorem shows_step (hinv : Inv s) (h : record.Shows s) (hw : Warrant base input s entry)
    (happly : applyEvent s entry = .ok t) : (applyLifecycleProjection record entry).Shows t := by
  obtain ⟨-, m, hm, rfl⟩ := applyEvent_eq_ok.mp happly
  suffices hm' : (applyLifecycleProjection record entry).Shows m from
    ⟨hm'.status, hm'.inactive, hm'.active⟩
  have hsame : ∀ record' : SessionRecord, record'.lifecycleStatus = record.lifecycleStatus →
      record'.activity = record.activity → m.lifecycle = s.lifecycle → m.runs = s.runs →
      record'.Shows m := by
    intro record' hstatus hactivity hlifecycle hruns
    refine h.of_same hstatus hactivity hlifecycle (fun b hb => ⟨b, ?_, rfl, rfl, rfl⟩) fun hnone => ?_
    · rw [← hruns]
      exact hb
    · rw [← hruns]
      exact hnone
  unfold applyEventKind at hm
  cases hevent : entry.event with
  | lifecycle event =>
    rw [hevent] at hm
    exact shows_lifecycle h hevent hm
  | run event =>
    rw [hevent] at hm
    exact shows_run h hevent hm
  | approval event =>
    rw [hevent] at hm
    exact shows_approval h hevent hw hm
  | turn event =>
    rw [hevent] at hm
    exact shows_turn h hevent hm
  | tool event =>
    rw [hevent] at hm
    exact shows_tool h hevent hm
  | context event =>
    rw [hevent] at hm
    have hm' : applyContextEvent s event = .ok m := hm
    have hframe := applyContextEvent_frame hinv.entries hm'
    unfold applyLifecycleProjection
    rw [hevent]
    refine h.of_same rfl rfl (by rw [hframe.state]) (fun b hb => ?_) hframe.inactive
    obtain ⟨a, ha, hkept⟩ := hframe.active b hb
    refine ⟨a, ha, ?_⟩
    rw [hkept.run]
    exact ⟨rfl, rfl, rfl⟩
  | workflowToolConfig event =>
    unfold applyLifecycleProjection
    rw [hevent] at hm ⊢
    obtain ⟨_, rfl, -⟩ := workflowToolConfig_ok hm
    cases event with
    | declaredBindingsAdmitted sessionUniverse version controller fingerprint bindings =>
      cases controller with
      | none | some controller => exact hsame _ rfl rfl rfl rfl
    | systemBindingAdmitted binding => exact hsame _ rfl rfl rfl rfl
  | _ =>
    unfold applyLifecycleProjection
    rw [hevent]
    have hlifecycle := applyEvent_lifecycle hinv.entries (by rw [hevent]; rfl) happly
    have hruns := applyEvent_runs (by rw [hevent]; rfl) happly
    exact hsame record rfl rfl hlifecycle hruns

/-! ## Whole logs -/

theorem projection_shows (request : CreateSession) (h : Reachable sessionId s log) :
    (request.record.project log).Shows s := by
  refine reachable_preserves (P := fun s log => (request.record.project log).Shows s)
    ⟨rfl, fun _ => rfl, by rintro run ⟨⟩⟩ ?_ h
  intro base input s log entry t hinv hshows hw happly
  rw [SessionRecord.project_concat]
  exact shows_step hinv hshows hw happly

/-- A session to project. -/
def sampleCreation : CreateSession where
  sessionId := "session"
  createdAtMs := 0

end Lightspeed.Harness
