import Lightspeed.Daemon.Steps

/-!
# The scheduler does not deadlock

The dependencies among the unfinished jobs have no circle, and then the scheduler leaves some job running
whenever it leaves one queued. Cycles are searched for within a request only. Across requests a job never
gains a dependency, so a circle can close at a start alone, and there only through a job that is retained
and unfinished and names an id that is started anew, its earlier record having been collected.
-/

namespace Lightspeed.Daemon

open Lib Relation

namespace JobManager

variable {config : JobConfig} {m n : JobManager} {a b jobId : JobId} {resolved : List ResolvedJob}
  {requestId : JobRequestId} {now : Int} {turn : Turn} {input : Input} {spares : Prop}

/-- A job is retained and has not ended. -/
def Unfinished (m : JobManager) (jobId : JobId) : Prop :=
  ∃ entry, m.jobs.get? jobId = some entry ∧ entry.record.status.isTerminal = false

/-- An unfinished job names an id as a dependency. -/
def Names (m : JobManager) (a b : JobId) : Prop :=
  ∃ entry, m.jobs.get? a = some entry ∧ entry.record.status.isTerminal = false ∧
    b ∈ entry.record.dependsOn

/-- An unfinished job depends on another. -/
def Waits (m : JobManager) (a b : JobId) : Prop := m.Names a b ∧ m.Unfinished b

/-! ## An acyclic state is not stuck -/

/-- When the dependencies have no circle, the scheduler leaves some job running if it leaves one
queued. -/
theorem schedule_runs (hkeys : KeysMatch m) (hacyclic : Acyclic (m.schedule turn).Waits)
    (hqueued : (m.schedule turn).status? jobId = some .queued) :
    ∃ jobId, (m.schedule turn).status? jobId = some .running := by
  by_contra hnone
  have hidle : ∀ jobId, (m.schedule turn).status? jobId ≠ some .running :=
    fun jobId h => hnone ⟨jobId, h⟩
  obtain ⟨hdoomed, hrunnable⟩ := schedule_rests hkeys hidle
  have hscheduled : Scheduled m (m.schedule turn) := schedule_scheduled hkeys
  have hkeys' := hscheduled.keysMatch hkeys
  clear hscheduled
  generalize m.schedule turn = s at *
  let queued := s.jobs.keys.filter fun jobId => s.status? jobId = some .queued
  have hmem : ∀ jobId, jobId ∈ queued ↔ s.status? jobId = some .queued := by
    intro jobId
    rw [List.mem_filter, decide_eq_true_eq]
    refine and_iff_right_of_imp fun h => ?_
    obtain ⟨entry, hget, -⟩ := status?_eq_some.mp h
    exact OrdMap.mem_keys.mpr ⟨entry, hget⟩
  have hne : queued ≠ [] := List.ne_nil_of_mem ((hmem jobId).mpr hqueued)
  obtain ⟨last, hlast, hsink⟩ := hacyclic.exists_sink hne
  obtain ⟨entry, hget, hstatus⟩ := status?_eq_some.mp ((hmem last).mp hlast)
  -- What keeps the last job from running is a dependency that is itself queued.
  have hblocked : s.isRunnable entry.record ≠ true := by
    intro hrunnable'
    have hthere := mem_runnable.mpr ⟨last, entry, hget, hrunnable', rfl⟩
    rw [hrunnable] at hthere
    cases hthere
  have hfine : s.isDoomed entry.record ≠ true := by
    intro hdoomed'
    have hthere : last ∈ s.doomed := (mem_jobIds hkeys').mpr ⟨entry, hget, hdoomed'⟩
    rw [hdoomed] at hthere
    cases hthere
  obtain ⟨dependency, hdepends, status, hdependency, hunsatisfied⟩ :
      ∃ dependency ∈ entry.record.dependsOn, ∃ status, s.status? dependency = some status ∧
        ¬ Satisfies entry.record.dependencyPolicy status := by
    by_contra hall
    refine hblocked (isRunnable_iff.mpr ⟨hstatus, fun dependency hdepends status hdependency => ?_⟩)
    by_contra hunsatisfied
    exact hall ⟨dependency, hdepends, status, hdependency, hunsatisfied⟩
  have hunfinished : status.isTerminal = false := by
    rw [Bool.eq_false_iff]
    intro hterminal
    unfold Satisfies at hunsatisfied
    split at hunsatisfied
    next hpolicy =>
      refine hfine (isDoomed_iff.mpr ⟨hstatus, hpolicy, dependency, hdepends, fun status' hstatus' => ?_⟩)
      rw [hdependency] at hstatus'
      cases hstatus'
      exact ⟨hterminal, hunsatisfied⟩
    · exact hunsatisfied hterminal
  have hqueued' : s.status? dependency = some .queued := by
    cases status with
    | queued => exact hdependency
    | running => exact absurd hdependency (hidle dependency)
    | _ => cases hunfinished
  obtain ⟨found, hfound, hfoundStatus⟩ := status?_eq_some.mp hdependency
  refine hsink dependency ((hmem dependency).mpr hqueued') ⟨⟨entry, hget, ?_, hdepends⟩, found, hfound, ?_⟩
  · rw [hstatus]
    rfl
  · rwa [hfoundStatus]

/-! ## No dependency is gained -/

/-- The unfinished jobs are as before, with the same dependencies, or fewer. -/
def Fewer (m n : JobManager) : Prop :=
  ∀ jobId entry, n.jobs.get? jobId = some entry → entry.record.status.isTerminal = false →
    ∃ old, m.jobs.get? jobId = some old ∧ old.record.status.isTerminal = false ∧
      old.record.dependsOn = entry.record.dependsOn

theorem Fewer.waits (h : Fewer m n) : ∀ a b, n.Waits a b → m.Waits a b := by
  rintro a b ⟨⟨entry, hget, hunfinished, hdepends⟩, found, hfound, hfoundUnfinished⟩
  obtain ⟨old, hold, holdUnfinished, hsame⟩ := h a entry hget hunfinished
  obtain ⟨old', hold', holdUnfinished', -⟩ := h b found hfound hfoundUnfinished
  exact ⟨⟨old, hold, holdUnfinished, by rwa [hsame]⟩, old', hold', holdUnfinished'⟩

theorem fewer_of_jobs (h : n.jobs = m.jobs) : Fewer m n := by
  intro jobId entry hget hunfinished
  exact ⟨entry, by rwa [h] at hget, hunfinished, rfl⟩

/-- One entry is replaced: by one that has ended, or by one of the same job. -/
theorem fewer_of_insert {entry : JobEntry} (hjobs : n.jobs = m.jobs.insert entry.record.jobId entry)
    (h : entry.record.status.isTerminal = false → ∃ old, m.jobs.get? entry.record.jobId = some old ∧
      old.record.status.isTerminal = false ∧ old.record.dependsOn = entry.record.dependsOn) :
    Fewer m n := by
  intro jobId found hget hunfinished
  rw [hjobs, OrdMap.get?_insert] at hget
  split_ifs at hget with hid
  · cases hget
    rw [← hid]
    exact h hunfinished
  · exact ⟨found, hget, hunfinished, rfl⟩

theorem Move.fewer (h : Move config spares m n) (hok : TasksOk m) : Fewer m n := by
  cases h with
  | remove hget =>
    intro jobId entry hfound hunfinished
    rw [remove_jobs, OrdMap.get?_erase] at hfound
    split_ifs at hfound
    exact ⟨entry, hfound, hunfinished, rfl⟩
  | put hget hsame hstatus | update hget hsame hstatus =>
    refine fewer_of_insert rfl fun hunfinished => ⟨_, ?_, hstatus ▸ hunfinished, hsame.dependsOn.symm⟩
    rwa [hsame.jobId]
  | endQueued hget _ _ hreason =>
    refine fewer_of_insert rfl fun hunfinished => ?_
    rw [endReason_terminal hreason] at hunfinished
    cases hunfinished
  | spawn hget hqueued hsame =>
    refine fewer_of_insert rfl fun _ => ⟨_, ?_, ?_, hsame.dependsOn.symm⟩
    · rwa [hsame.jobId]
    · rw [hqueued]
      rfl
  | @superviseFinish index jobId final ticket hindex =>
    have hfinal : final.status.isTerminal = true := (hok _ (List.mem_of_getElem? hindex)).2.1
    have hset : ((m.settle jobId final).setTask index .superviseSchedule).jobs =
        (m.settle jobId final).jobs := rfl
    rcases settle_jobs with hjobs | ⟨entry, settled, -, hrecord, hjobs⟩
    · exact fewer_of_jobs (hset.trans hjobs)
    · refine fewer_of_insert (hset.trans hjobs) fun hunfinished => ?_
      rw [hrecord] at hunfinished
      have hfalse : final.status.isTerminal = false := hunfinished
      rw [hfinal] at hfalse
      cases hfalse
  | _ => exact fewer_of_jobs rfl

theorem chain_waits (h : Chain config spares m n) (hm : Wf m) : ∀ a b, n.Waits a b → m.Waits a b := by
  induction h with
  | refl => exact fun _ _ h => h
  | tail hchain hmove ih =>
    intro a b hwaits
    exact ih a b ((hmove.fewer (wf_chain hchain hm).tasks).waits a b hwaits)

theorem restart_waits : ¬ (m.restart now).Waits a b := by
  rintro ⟨⟨entry, hget, hunfinished, -⟩, -⟩
  obtain ⟨key, record, -, -, rfl⟩ := get?_restart hget
  rw [reconcile_terminal] at hunfinished
  cases hunfinished

/-! ## A start -/

/-- The dependencies among the unfinished jobs once the jobs of a request are added to them. -/
def WaitsWith (m : JobManager) (resolved : List ResolvedJob) (a b : JobId) : Prop :=
  (m.Names a b ∨ ∃ job ∈ resolved, job.jobId = a ∧ b ∈ job.dependsOn) ∧
    (m.Unfinished b ∨ b ∈ resolved.map ResolvedJob.jobId)

/-- A request takes an id that an unfinished job still names, for a job that waits for that one. -/
def ClosesCircle (m : JobManager) (resolved : List ResolvedJob) : Prop :=
  ∃ a b, m.Names a b ∧ b ∈ resolved.map ResolvedJob.jobId ∧
    ReflTransGen (m.WaitsWith resolved) b a

theorem names_insertJobs (hresolved : WellResolved resolved) (hadmits : Admits m requestId resolved) :
    (m.insertJobs requestId now resolved).Names a b ↔
      m.Names a b ∨ ∃ job ∈ resolved, job.jobId = a ∧ b ∈ job.dependsOn := by
  constructor
  · rintro ⟨entry, hget, hunfinished, hdepends⟩
    by_cases ha : a ∈ resolved.map ResolvedJob.jobId
    · obtain ⟨job, hjob, rfl⟩ := List.mem_map.mp ha
      obtain ⟨i, hi⟩ := List.mem_iff_getElem?.mp hjob
      rw [get?_insertJobs_new hresolved.nodup hi] at hget
      cases hget
      exact .inr ⟨job, hjob, rfl, hdepends⟩
    · rw [get?_insertJobs_old hresolved.nodup ha] at hget
      exact .inl ⟨entry, hget, hunfinished, hdepends⟩
  · rintro (⟨entry, hget, hunfinished, hdepends⟩ | ⟨job, hjob, rfl, hdepends⟩)
    · refine ⟨entry, ?_, hunfinished, hdepends⟩
      rw [get?_insertJobs_old hresolved.nodup fun ha => ?_]
      · exact hget
      · rw [hadmits.fresh a ha] at hget
        cases hget
    · obtain ⟨i, hi⟩ := List.mem_iff_getElem?.mp hjob
      exact ⟨_, get?_insertJobs_new hresolved.nodup hi, rfl, hdepends⟩

theorem unfinished_insertJobs (hresolved : WellResolved resolved) :
    (m.insertJobs requestId now resolved).Unfinished b ↔
      m.Unfinished b ∨ b ∈ resolved.map ResolvedJob.jobId := by
  by_cases hb : b ∈ resolved.map ResolvedJob.jobId
  · refine iff_of_true ?_ (.inr hb)
    obtain ⟨job, hjob, rfl⟩ := List.mem_map.mp hb
    obtain ⟨i, hi⟩ := List.mem_iff_getElem?.mp hjob
    exact ⟨_, get?_insertJobs_new hresolved.nodup hi, rfl⟩
  · rw [or_iff_left hb]
    unfold Unfinished
    rw [get?_insertJobs_old hresolved.nodup hb]

theorem waits_insertJobs (hresolved : WellResolved resolved) (hadmits : Admits m requestId resolved) :
    (m.insertJobs requestId now resolved).Waits a b ↔ m.WaitsWith resolved a b :=
  and_congr (names_insertJobs hresolved hadmits) (unfinished_insertJobs hresolved)

/-- A start that goes through leaves no circle exactly when it does not take an id that is named by a
job which the new one waits for. -/
theorem acyclic_insertJobs (hacyclic : Acyclic m.Waits) (hresolved : WellResolved resolved)
    (hadmits : Admits m requestId resolved) :
    Acyclic (m.insertJobs requestId now resolved).Waits ↔ ¬ ClosesCircle m resolved := by
  have hwaits : (m.insertJobs requestId now resolved).Waits = m.WaitsWith resolved := by
    funext a b
    exact propext (waits_insertJobs hresolved hadmits)
  rw [hwaits]
  have hfresh : ∀ a b, a ∈ resolved.map ResolvedJob.jobId → ¬ m.Names a b := by
    rintro a b ha ⟨entry, hget, -⟩
    rw [hadmits.fresh a ha] at hget
    cases hget
  constructor
  · rintro h ⟨a, b, hnames, hb, hback⟩
    exact h a (TransGen.head' ⟨.inl hnames, .inr hb⟩ hback)
  · intro h
    refine acyclic_of_sides (N := (· ∈ resolved.map ResolvedJob.jobId)) ?_ ?_ ?_
    · refine ((rejectCycles_eq_ok hresolved.nodup).mp hresolved.rejects).mono ?_
      rintro a b ⟨⟨hnames | ⟨job, hjob, hid, hdepends⟩, -⟩, ha, hb⟩
      · exact absurd hnames (hfresh a b ha)
      · exact ⟨job, hjob, hid, hdepends, hb⟩
    · refine hacyclic.mono ?_
      rintro a b ⟨⟨hnames | ⟨job, hjob, rfl, -⟩, hunfinished⟩, ha, hb⟩
      · exact ⟨hnames, hunfinished.resolve_right hb⟩
      · exact absurd (List.mem_map_of_mem hjob) ha
    · rintro a b ⟨hnames | ⟨job, hjob, rfl, -⟩, -⟩ ha hb hback
      · exact h ⟨a, b, hnames, hb, hback⟩
      · exact ha (List.mem_map_of_mem hjob)

/-! ## Runs -/

/-- No start takes an id that a retained, unfinished job names and that the new job waits for, directly or
through others. -/
def StartsApart (m : JobManager) : Input → Prop
  | .proceed index _ => ∀ requestId resolved,
      m.tasks[index]? = some (.startInsert requestId resolved) → Admits m requestId resolved →
        ¬ ClosesCircle m resolved
  | _ => True

theorem step_acyclic (hm : Wf m) (hacyclic : Acyclic m.Waits) (hmeets : m.StartsApart input)
    (h : m.step config input = some n) : Acyclic n.Waits := by
  have hcase : StepCase config False m input n := step_cases hm.keys nofun h
  cases hcase with
  | chain hchain => exact hacyclic.mono (chain_waits hchain hm)
  | @start index turn requestId jobs hindex hadmits =>
    have hresolved : WellResolved jobs := hm.tasks _ (List.mem_of_getElem? hindex)
    exact (acyclic_insertJobs hacyclic hresolved hadmits).mpr
      (hmeets requestId jobs hindex hadmits)
  | restart =>
    intro a hcycle
    obtain ⟨b, hab, -⟩ := TransGen.head'_iff.mp hcycle
    exact restart_waits hab

/-- While no start takes an id that a job names which the new one waits for, the unfinished jobs do not
wait in a circle, and the scheduler leaves a job running whenever it leaves one queued. -/
theorem scheduler_runs_on {steps : List (JobManager × Input)} (hrun : (jobManager config).Run steps m)
    (hmeets : ∀ step ∈ steps, StartsApart step.1 step.2) :
    Acyclic m.Waits ∧ ∀ turn jobId, (m.schedule turn).status? jobId = some .queued →
      ∃ jobId, (m.schedule turn).status? jobId = some .running := by
  have hm : Wf m := reachable_wf ⟨steps, hrun⟩
  have hacyclic : Acyclic m.Waits := by
    refine hrun.invariant (P := fun m => Acyclic m.Waits) (M := StartsApart) ?_ ?_ hmeets
    · rintro _ rfl a hcycle
      obtain ⟨b, ⟨⟨entry, hget, -⟩, -⟩, -⟩ := TransGen.head'_iff.mp hcycle
      exact absurd ((OrdMap.get?_empty a).symm.trans hget) (Option.some_ne_none entry).symm
    · exact fun s input t hreach hs hmeets hstep => step_acyclic (reachable_wf hreach) hs hmeets hstep
  refine ⟨hacyclic, fun turn jobId hqueued => ?_⟩
  have hscheduled : Scheduled m (m.schedule turn) := schedule_scheduled hm.keys
  exact schedule_runs hm.keys (hacyclic.mono (chain_waits (hscheduled.chain config False) hm)) hqueued

/-- A pass of the scheduler leaves settled jobs as they are and queues none. Where no job runs after it, none is
left that it could fail or start. -/
theorem schedule_pass (h : (jobManager config).Reaches m) (turn : Turn) :
    KeepsSettled m (m.schedule turn) ∧ (m.schedule turn).queuedCount ≤ m.queuedCount ∧
      ((∀ jobId, (m.schedule turn).status? jobId ≠ some .running) →
        (m.schedule turn).doomed = [] ∧ (m.schedule turn).runnable = []) := by
  have hkeys := (reachable_wf h).keys
  have hscheduled : Scheduled m (m.schedule turn) := schedule_scheduled hkeys
  exact ⟨hscheduled.settled, hscheduled.count, schedule_rests hkeys⟩

/-- Every job of a request whose id an unfinished job still names depends on nothing. -/
def startsFree (m : JobManager) : Input → Bool
  | .proceed index _ =>
    match m.tasks[index]? with
    | some (.startInsert _ resolved) =>
      m.jobs.values.all fun entry => entry.record.status.isTerminal ||
        resolved.all fun job => job.dependsOn.isEmpty || !entry.record.dependsOn.contains job.jobId
    | _ => true
  | _ => true

theorem startsApart_of_free (h : m.startsFree input = true) : m.StartsApart input := by
  cases input with
  | proceed index turn =>
    intro requestId resolved hindex hadmits
    rintro ⟨a, b, ⟨entry, hget, hunfinished, hdepends⟩, hb, hback⟩
    unfold startsFree at h
    dsimp only at h
    rw [hindex] at h
    have hentry := List.all_eq_true.mp h entry (OrdMap.mem_values.mpr ⟨a, hget⟩)
    rw [hunfinished, Bool.false_or, List.all_eq_true] at hentry
    -- The named job depends on nothing, so nothing leads from it to the one that names it.
    rcases ReflTransGen.cases_head hback with rfl | ⟨c, ⟨hnames | ⟨job, hjob, rfl, hwaits⟩, -⟩, -⟩
    · rw [hadmits.fresh b hb] at hget
      cases hget
    · obtain ⟨found, hfound, -⟩ := hnames
      rw [hadmits.fresh b hb] at hfound
      cases hfound
    · have hfree := hentry job hjob
      rw [Bool.or_eq_true, Bool.not_eq_true', List.isEmpty_iff, List.contains_eq_mem,
        decide_eq_false_iff_not] at hfree
      rcases hfree with hnone | hunnamed
      · rw [hnone] at hwaits
        cases hwaits
      · exact hunnamed hdepends
  | _ => trivial

end JobManager

/-! ## Samples -/

def sampleConfig : JobConfig where
  maxRequestJobs := 64
  recordRetentionMs := 10
  quote := id
  hexDigest _ := ""
  encodeMaterial _ := []

def sampleJob (jobId : JobId) (dependsOn : List JobId) (dependencyPolicy : JobDependencyPolicy) : JobSpec :=
  { jobId, command := { argv := ["true"] }, dependsOn := dependsOn.map .jobId, dependencyPolicy }

/-- An execution that ends well, at some time. -/
def endsWell (now : Int) : Turn := { now, outcome := ⟨some (.code 0), none, none⟩ }

/-- `publish` depends on `build` and `test`, and `build` has ended and was collected. -/
def buildCollected : List JobManager.Input :=
  [.startJobs ⟨"first", [sampleJob "build" [] .allSucceeded, sampleJob "test" [] .allSucceeded,
      sampleJob "publish" ["build", "test"] .allTerminal]⟩,
    .proceed 0 {}, .proceed 0 {}, .store, .store, .store, .proceed 0 {}, .proceed 0 {}, .proceed 0 {},
    .proceed 1 (endsWell 1), .proceed 1 {}, .store, .store, .store, .proceed 1 {}, .proceed 1 {},
    .maintain 20]

/-- Another `build` is started, which depends on `publish`, and `test` ends. -/
def buildAgain : List JobManager.Input :=
  [.startJobs ⟨"second", [sampleJob "build" ["publish"] .allSucceeded]⟩,
    .proceed 3 { now := 20 }, .proceed 3 { now := 20 }, .store, .store, .proceed 3 {}, .proceed 3 {},
    .proceed 2 (endsWell 30), .proceed 2 {}, .store, .proceed 2 {}]

/-- Another `build` is started that depends on nothing, and `test` ends. -/
def buildAnew : List JobManager.Input :=
  [.startJobs ⟨"second", [sampleJob "build" [] .allSucceeded]⟩,
    .proceed 3 { now := 20 }, .proceed 3 { now := 20 }, .proceed 2 (endsWell 21), .proceed 2 {},
    .store, .store, .store, .proceed 2 {}]

namespace JobManager

/-- After an id that a queued job still names was started again, the scheduler leaves jobs queued and none
running: they wait in a circle. -/
theorem scheduler_stuck : ∃ m, (jobManager sampleConfig).Reaches m ∧
    ((m.schedule {}).status? "build" = some .queued ∧ (m.schedule {}).status? "publish" = some .queued ∧
      ∀ jobId, (m.schedule {}).status? jobId ≠ some .running) ∧ ¬ Acyclic m.Waits := by
  obtain ⟨m, hm, hbuild, hpublish, hidle, hbuilds, hpublishes⟩ :
      ∃ m ∈ (jobManager sampleConfig).exec {} (buildCollected ++ buildAgain),
      (m.schedule {}).status? "build" = some .queued ∧
        (m.schedule {}).status? "publish" = some .queued ∧
        ((m.schedule {}).jobs.values.all fun entry => entry.record.status != .running) = true ∧
        ((m.jobs.get? "build").map fun entry => (entry.record.status, entry.record.dependsOn)) =
          some (.queued, ["publish"]) ∧
        ((m.jobs.get? "publish").map fun entry => (entry.record.status, entry.record.dependsOn)) =
          some (.queued, ["build", "test"]) := by
    decide +kernel
  obtain ⟨build, hgetBuild, hb⟩ := Option.map_eq_some_iff.mp hbuilds
  obtain ⟨publish, hgetPublish, hp⟩ := Option.map_eq_some_iff.mp hpublishes
  obtain ⟨hbs, hbd⟩ := Prod.mk.inj hb
  obtain ⟨hps, hpd⟩ := Prod.mk.inj hp
  have hbuildUnfinished : build.record.status.isTerminal = false := by rw [hbs]; rfl
  have hpublishUnfinished : publish.record.status.isTerminal = false := by rw [hps]; rfl
  refine ⟨m, Machine.exec_reaches rfl hm, ⟨hbuild, hpublish, fun jobId hrunning => ?_⟩, fun h => ?_⟩
  · obtain ⟨entry, hget, hstatus⟩ := status?_eq_some.mp hrunning
    have hnot := List.all_eq_true.mp hidle entry (OrdMap.mem_values.mpr ⟨jobId, hget⟩)
    rw [hstatus] at hnot
    cases hnot
  · refine h "build" (.tail (.single (b := "publish") ⟨?_, publish, hgetPublish, hpublishUnfinished⟩)
      ⟨?_, build, hgetBuild, hbuildUnfinished⟩)
    · exact ⟨build, hgetBuild, hbuildUnfinished, by rw [hbd]; exact List.mem_cons_self⟩
    · exact ⟨publish, hgetPublish, hpublishUnfinished, by rw [hpd]; exact List.mem_cons_self⟩

theorem schedule_pass_buildCollected : ∃ m, (jobManager sampleConfig).Reaches m ∧ m.queuedCount = 1 ∧
    ∀ turn, (m.schedule turn).queuedCount ≤ 1 := by
  obtain ⟨m, hm, hcount⟩ : ∃ m ∈ (jobManager sampleConfig).exec {} buildCollected, m.queuedCount = 1 := by
    decide +kernel
  have hreach := Machine.exec_reaches rfl hm
  exact ⟨m, hreach, hcount, fun turn => hcount ▸ (schedule_pass hreach turn).2.1⟩

theorem scheduler_runs_on_buildAnew : ∃ steps m, (jobManager sampleConfig).Run steps m ∧
    m.status? "build" = some .queued ∧ m.status? "publish" = some .queued ∧ Acyclic m.Waits ∧
    ∀ turn jobId, (m.schedule turn).status? jobId = some .queued →
      ∃ jobId, (m.schedule turn).status? jobId = some .running := by
  obtain ⟨⟨steps, m⟩, htrace, hfree, hbuild, hpublish⟩ :
      ∃ run ∈ (jobManager sampleConfig).trace {} (buildCollected ++ buildAnew),
      (run.1.all fun step => step.1.startsFree step.2) = true ∧
        run.2.status? "build" = some .queued ∧ run.2.status? "publish" = some .queued := by
    decide +kernel
  have hrun := (Machine.Run.init (m := jobManager sampleConfig) rfl).trace htrace
  rw [List.nil_append] at hrun
  refine ⟨steps, m, hrun, hbuild, hpublish, scheduler_runs_on hrun fun step hstep => ?_⟩
  exact startsApart_of_free (List.all_eq_true.mp hfree step hstep)

end JobManager

end Lightspeed.Daemon
