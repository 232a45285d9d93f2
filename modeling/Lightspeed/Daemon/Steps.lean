import Lightspeed.Daemon.Scheduler
import Lightspeed.Daemon.Starts

/-!
# The steps of the job manager

What an input does: a chain of moves, the addition of a request's jobs, or a restart. In every state
that comes up the jobs are kept under their ids, and a task that is to start jobs has a resolved request.
-/

namespace Lightspeed.Daemon

open Lib Relation

namespace JobManager

variable {config : JobConfig} {m n : JobManager} {index : Nat} {task : Task} {turn : Turn}
  {input : Input} {spares : Prop} {now : Int} {jobId : JobId}

theorem maintain_tasks : (m.maintain config now).tasks = m.tasks :=
  List.foldlRecOn (motive := fun (n : JobManager) => n.tasks = m.tasks) _ _ rfl fun _ h _ _ => h

theorem cancelEntry_tasks {force : Bool} : (cancelEntry force now m jobId).tasks = m.tasks := by
  unfold cancelEntry
  split
  · rfl
  · split
    · rfl
    · dsimp only
      split_ifs <;> rfl
    · rfl

theorem cancel_tasks {params : CancelJobsParams} :
    (m.cancel config params now).1.tasks = m.tasks :=
  List.foldlRecOn (motive := fun (n : JobManager) => n.tasks = m.tasks) _ _ rfl fun _ h _ _ =>
    cancelEntry_tasks.trans h

theorem getElem?_of_prefix {tasks more : List Task} (h : tasks <+: more)
    (hindex : tasks[index]? = some task) : more[index]? = some task := by
  obtain ⟨rest, rfl⟩ := h
  rw [List.getElem?_append_left (List.getElem?_eq_some_iff.mp hindex).1]
  exact hindex

/-- A call goes on after a chain that leaves it where it was. -/
theorem chain_call {task' : Task} (h : Chain config spares m n) (hindex : n.tasks[index]? = some task)
    (hold : task.supervised = none) (hnew : task'.supervised = none)
    (hjobs : ∀ jobs, task'.starting = some jobs → task.starting = some jobs) :
    Chain config spares m (n.setTask index task') := h.tail (.call hindex hold hnew hjobs)

/-- When the input is a retention pass, it takes no success that a queued job needs. -/
def RetentionSpares (config : JobConfig) (m : JobManager) : Input → Prop
  | .maintain now => MaintainSpares config m now
  | .proceed index turn => ∀ task, m.tasks[index]? = some task → task.retains = true →
      MaintainSpares config m turn.now
  | _ => True

/-- What an input does. -/
inductive StepCase (config : JobConfig) (spares : Prop) (m : JobManager) : Input → JobManager → Prop
  | chain {input : Input} {n : JobManager} (h : Chain config spares m n) :
      StepCase config spares m input n
  | start {index : Nat} {turn : Turn} {requestId : JobRequestId} {jobs : List ResolvedJob}
      (hindex : m.tasks[index]? = some (.startInsert requestId jobs)) (hadmits : Admits m requestId jobs) :
      StepCase config spares m (.proceed index turn)
        ((m.insertJobs requestId turn.now jobs).setTask index
          (.startWrite (jobs.map ResolvedJob.jobId) (m.insertJobs requestId turn.now jobs).store.sent))
  | restart {now : Int} : StepCase config spares m (.restart now) (m.restart now)

theorem proceed_cases (hkeys : KeysMatch m) (hindex : m.tasks[index]? = some task)
    (hspares : spares → task.retains = true → MaintainSpares config m turn.now)
    (h : m.proceed config index turn task = some n) : StepCase config spares m (.proceed index turn) n := by
  have hscheduled : Scheduled m (m.schedule turn) := schedule_scheduled hkeys
  have hlater := getElem?_of_prefix hscheduled.tasks hindex
  cases task with
  | startMaintain requestId jobs =>
    cases h
    have hhere : (m.maintain config turn.now).tasks[index]? = some (.startMaintain requestId jobs) := by
      rwa [maintain_tasks]
    exact .chain (chain_call (maintain_chain hkeys _ (hspares · rfl)) hhere rfl rfl
      fun _ h => h)
  | startInsert requestId jobs =>
    have h : (m.start requestId jobs turn.now).1.setTask index
      (m.start requestId jobs turn.now).2 = n := Option.some.inj h
    rcases start_cases m requestId jobs turn.now with ⟨hadmits, hstart, htask⟩ | ⟨-, hstart, answer, htask⟩
    · rw [hstart, htask] at h
      rw [← h]
      exact .start hindex hadmits
    · rw [hstart, htask] at h
      rw [← h]
      exact .chain (.single (.call hindex rfl rfl nofun))
  | startWrite started ticket =>
    unfold proceed at h
    dsimp only at h
    split_ifs at h
    cases h
    exact .chain (.single (.call hindex rfl rfl nofun))
  | startSchedule started | cancelSchedule response | superviseSchedule =>
    cases h
    exact .chain (chain_call (hscheduled.chain config spares) hlater rfl rfl nofun)
  | startAnswer started =>
    cases h
    exact .chain (.single (.call hindex rfl rfl nofun))
  | cancelMaintain params =>
    cases h
    have hhere : (m.maintain config turn.now).tasks[index]? = some (.cancelMaintain params) := by
      rwa [maintain_tasks]
    exact .chain (chain_call (maintain_chain hkeys _ (hspares · rfl)) hhere rfl rfl nofun)
  | cancelEntries params =>
    cases h
    have hhere : (m.cancel config params turn.now).1.tasks[index]? = some (.cancelEntries params) := by
      rwa [cancel_tasks]
    exact .chain (chain_call (cancel_chain hkeys params turn.now) hhere rfl rfl nofun)
  | supervise jobId =>
    unfold proceed at h
    dsimp only at h
    split at h
    next hget =>
      cases h
      exact .chain (.single (.superviseNone hindex hget))
    next entry hget =>
      cases h
      exact .chain (.single (.supervise hindex hget))
  | superviseSend jobId final =>
    cases h
    refine .chain (.single (.superviseSend hindex ?_))
    show m.store.handled + (m.store.queue ++ [StoreCommand.finish final]).length =
      m.store.handled + m.store.queue.length + 1
    rw [List.length_append]
    rfl
  | superviseFinish jobId final ticket =>
    unfold proceed at h
    dsimp only at h
    split_ifs at h with hwaits
    cases h
    exact .chain (.single (.superviseFinish hindex (Nat.not_lt.mp hwaits)))
  | «over» answer => cases h

theorem step_cases (hkeys : KeysMatch m) (hspares : spares → RetentionSpares config m input)
    (h : m.step config input = some n) : StepCase config spares m input n := by
  cases input with
  | startJobs params =>
    unfold step at h
    dsimp only at h
    split at h
    · cases h
      exact .chain (.single (.arrive rfl nofun))
    next jobs hresolve =>
      cases h
      refine .chain (.single (.arrive rfl fun jobs' hjobs => ?_))
      cases hjobs
      exact ⟨params, hresolve⟩
  | cancelJobs params =>
    unfold step at h
    dsimp only at h
    split at h <;> cases h <;> exact .chain (.single (.arrive rfl nofun))
  | maintain now =>
    cases h
    exact .chain (maintain_chain hkeys now hspares)
  | proceed index turn =>
    obtain ⟨task, hindex, h⟩ := Option.bind_eq_some_iff.mp h
    exact proceed_cases hkeys hindex (fun hheld => hspares hheld task hindex) h
  | store =>
    obtain ⟨store, hstore, rfl⟩ := Option.map_eq_some_iff.mp h
    exact .chain (.single (.store hstore))
  | restart now =>
    cases h
    exact .restart

/-! ## What always holds -/

theorem insertJobs_keysMatch {requestId : JobRequestId} {jobs : List ResolvedJob}
    (hkeys : KeysMatch m) : KeysMatch (m.insertJobs requestId now jobs) :=
  List.foldlRecOn jobs _ hkeys fun _ hkeys _ _ => hkeys.insert rfl rfl

/-- The jobs of a new instance are the records on disk. -/
theorem get?_restart {entry : JobEntry} (h : (m.restart now).jobs.get? jobId = some entry) :
    ∃ key record, m.store.disk.get? key = some record ∧ record.jobId = jobId ∧
      entry = { record := reconcile now record, pending := none } := by
  have hmem := OrdMap.mem_of_get?_ofList h
  obtain ⟨record, hrecord, hpair⟩ := List.mem_map.mp hmem
  obtain ⟨key, hget⟩ := OrdMap.mem_values.mp hrecord
  rw [OrdMap.get?_mapValues] at hget
  obtain ⟨found, hfound, rfl⟩ := Option.map_eq_some_iff.mp hget
  obtain ⟨rfl, rfl⟩ := Prod.mk.inj hpair
  refine ⟨key, found, hfound, ?_, rfl⟩
  unfold reconcile
  split_ifs <;> rfl

theorem reconcile_terminal (now : Int) (record : StoredJob) :
    (reconcile now record).status.isTerminal = true := by
  unfold reconcile
  split_ifs with h
  · exact h
  · rfl

theorem reconcile_jobId (now : Int) (record : StoredJob) :
    (reconcile now record).jobId = record.jobId := by
  unfold reconcile
  split_ifs <;> rfl

theorem restart_keysMatch : KeysMatch (m.restart now) := by
  intro jobId entry hget
  obtain ⟨key, record, -, rfl, rfl⟩ := get?_restart hget
  exact reconcile_jobId now record

/-- What a task carries: a resolved request to start, or the final record of the job it supervises. -/
def TaskOk : Task → Prop
  | .startMaintain _ jobs | .startInsert _ jobs => WellResolved jobs
  | .superviseSend jobId final | .superviseFinish jobId final _ =>
    final.jobId = jobId ∧ final.status.isTerminal = true ∧ final.status ≠ .dependencyFailed
  | _ => True

def TasksOk (m : JobManager) : Prop := ∀ task ∈ m.tasks, TaskOk task

theorem taskOk_of_starting {task' : Task} (hnew : task'.supervised = none)
    (hjobs : ∀ jobs, task'.starting = some jobs → WellResolved jobs) : TaskOk task' := by
  cases task' with
  | startMaintain requestId jobs | startInsert requestId jobs => exact hjobs jobs rfl
  | supervise | superviseSend | superviseFinish => cases hnew
  | _ => trivial

theorem TaskOk.starting {jobs : List ResolvedJob} (h : TaskOk task) (hjobs : task.starting = some jobs) :
    WellResolved jobs := by
  cases task with
  | startMaintain requestId jobs' | startInsert requestId jobs' =>
    cases hjobs
    exact h
  | _ => cases hjobs

theorem TasksOk.set {task : Task} (h : TasksOk m) (htasks : n.tasks = m.tasks.set index task)
    (hnew : TaskOk task) : TasksOk n := by
  intro found hfound
  rw [htasks] at hfound
  rcases List.mem_or_eq_of_mem_set hfound with hold | rfl
  · exact h found hold
  · exact hnew

theorem TasksOk.add {task : Task} (h : TasksOk m) (htasks : n.tasks = m.tasks ++ [task])
    (hnew : TaskOk task) : TasksOk n := by
  intro found hfound
  rw [htasks] at hfound
  rcases List.mem_append.mp hfound with hold | hlast
  · exact h found hold
  · rwa [List.mem_singleton.mp hlast]

theorem outcome_status_terminal (outcome : Outcome) : (Outcome.status outcome).isTerminal = true := by
  unfold Outcome.status
  split
  · rfl
  · rfl
  · rfl
  · split_ifs <;> rfl
  · rfl

theorem outcome_status_ne (outcome : Outcome) : Outcome.status outcome ≠ .dependencyFailed := by
  unfold Outcome.status
  split
  · nofun
  · nofun
  · nofun
  · split_ifs <;> nofun
  · nofun

theorem settle_tasks {final : StoredJob} : (m.settle jobId final).tasks = m.tasks := by
  unfold settle
  split
  · rfl
  · dsimp only
    split_ifs <;> rfl

theorem Move.tasksOk (h : Move config spares m n) (hkeys : KeysMatch m) (hm : TasksOk m) : TasksOk n := by
  cases h with
  | call hindex _ hnew hjobs =>
    refine hm.set rfl (taskOk_of_starting hnew fun jobs hstarting => ?_)
    exact (hm _ (List.mem_of_getElem? hindex)).starting (hjobs jobs hstarting)
  | arrive hnew hjobs =>
    refine hm.add rfl (taskOk_of_starting hnew fun jobs hstarting => ?_)
    obtain ⟨params, hresolve⟩ := hjobs jobs hstarting
    exact resolveStart_wellResolved hresolve
  | spawn => exact hm.add rfl trivial
  | superviseNone => exact hm.set rfl trivial
  | supervise hindex hget =>
    exact hm.set rfl ⟨hkeys _ _ hget, outcome_status_terminal _, outcome_status_ne _⟩
  | superviseSend hindex =>
    have hfinal := hm _ (List.mem_of_getElem? hindex)
    exact hm.set rfl hfinal
  | @superviseFinish index jobId final ticket =>
    have htasks : (m.settle jobId final).tasks.set index .superviseSchedule =
        m.tasks.set index .superviseSchedule := by rw [settle_tasks]
    exact hm.set htasks trivial
  | remove | put | update | endQueued | store => exact hm

/-- What every state that comes up has. -/
structure Wf (m : JobManager) : Prop where
  keys : KeysMatch m
  tasks : TasksOk m

theorem wf_chain (h : Chain config spares m n) (hm : Wf m) : Wf n :=
  chain_preserves (fun _ _ hmove hm => ⟨hmove.keysMatch hm.keys, hmove.tasksOk hm.keys hm.tasks⟩) h hm

theorem wf_step (hm : Wf m) (h : m.step config input = some n) : Wf n := by
  have hcase : StepCase config False m input n := step_cases hm.keys nofun h
  cases hcase with
  | chain h => exact wf_chain h hm
  | @start index turn requestId jobs hindex hadmits =>
    have hresolved : WellResolved jobs := hm.tasks _ (List.mem_of_getElem? hindex)
    have htasks : (m.insertJobs requestId turn.now jobs).tasks = m.tasks :=
      (insertJobs_spec jobs hresolved.nodup m).2.2.1
    exact ⟨insertJobs_keysMatch hm.keys, hm.tasks.set (congrArg (List.set · index _) htasks) trivial⟩
  | restart => exact ⟨restart_keysMatch, fun _ htask => absurd htask List.not_mem_nil⟩

theorem reachable_wf (h : (jobManager config).Reaches m) : Wf m := by
  refine h.invariant ?_ fun _ _ _ _ hm hstep => wf_step hm hstep
  rintro _ rfl
  refine ⟨fun jobId entry hget => ?_, fun _ htask => absurd htask List.not_mem_nil⟩
  exact absurd ((OrdMap.get?_empty jobId).symm.trans hget) (Option.some_ne_none entry).symm

end JobManager

end Lightspeed.Daemon
