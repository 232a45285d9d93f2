import Lightspeed.Daemon.Manager

/-!
# What the job manager does

Every section under the lock is a chain of moves, each of which changes one job, one task or one command
of the store, and says what held when it was made. Two steps are not such chains: a start that adds the
jobs of a request, and a restart.
-/

namespace Lightspeed.Daemon

open Lib Relation

namespace Task

/-- The job that a task supervises. -/
def supervised : Task → Option JobId
  | supervise jobId | superviseSend jobId _ | superviseFinish jobId _ _ => some jobId
  | _ => none

/-- The jobs that a task is to start. -/
def starting : Task → Option (List ResolvedJob)
  | startMaintain _ jobs | startInsert _ jobs => some jobs
  | _ => none

/-- Whether the next section of a task is a retention pass. -/
def retains : Task → Bool
  | startMaintain .. | cancelMaintain _ => true
  | _ => false

end Task

namespace JobManager

variable {config : JobConfig} {m n : JobManager} {entry entry' : JobEntry} {record record' : StoredJob}
  {jobId other : JobId} {task : Task} {index : Nat} {status : JobStatus} {spares : Prop}

/-! ## Reading what a change leaves -/

@[simp] theorem endJob_jobs : (m.endJob entry).jobs = m.jobs.insert entry.record.jobId entry := rfl
@[simp] theorem remove_jobs : (m.remove jobId).jobs = m.jobs.erase jobId := rfl
theorem status?_eq_some : m.status? jobId = some status ↔
    ∃ entry, m.jobs.get? jobId = some entry ∧ entry.record.status = status := by
  unfold status?
  rw [Option.map_eq_some_iff]

theorem status?_eq_none : m.status? jobId = none ↔ m.jobs.get? jobId = none := by
  unfold status?
  rw [Option.map_eq_none_iff]

/-- The job of an entry is the one it is kept under. -/
def KeysMatch (m : JobManager) : Prop :=
  ∀ jobId entry, m.jobs.get? jobId = some entry → entry.record.jobId = jobId

/-- What a record says of its job from the start on. -/
structure SameJob (record record' : StoredJob) : Prop where
  jobId : record'.jobId = record.jobId
  seq : record'.seq = record.seq
  dependsOn : record'.dependsOn = record.dependsOn
  dependencyPolicy : record'.dependencyPolicy = record.dependencyPolicy
  queueKey : record'.queueKey = record.queueKey
  birth : record'.birth = record.birth
  needs : record'.needs = record.needs

theorem SameJob.refl (record : StoredJob) : SameJob record record :=
  ⟨rfl, rfl, rfl, rfl, rfl, rfl, rfl⟩

/-! ## Moves -/

/-- Why a queued job ends. -/
def EndReason (m : JobManager) (record : StoredJob) : JobStatus → Prop
  | .cancelled | .failed => True
  | .dependencyFailed => m.isDoomed record = true
  | _ => False

theorem endReason_terminal (h : EndReason m record status) : status.isTerminal = true := by
  cases status with
  | cancelled | failed | dependencyFailed => rfl
  | _ => exact False.elim h

/-- A queued job whose dependencies let it start: under `allSucceeded` each is there and succeeded. -/
def Startable (m : JobManager) (record : StoredJob) : Prop :=
  record.status = .queued ∧ ∀ dependency ∈ record.dependsOn,
    match record.dependencyPolicy with
    | .allSucceeded => m.status? dependency = some .succeeded
    | .allTerminal => ∀ status, m.status? dependency = some status → status.isTerminal = true

/-- No queued job that needs a success names the job, or it did not succeed. -/
def Spared (m : JobManager) (jobId : JobId) : Prop :=
  ∀ other entry, m.jobs.get? other = some entry → entry.record.status = .queued →
    entry.record.dependencyPolicy = .allSucceeded → jobId ∈ entry.record.dependsOn →
      m.status? jobId ≠ some .succeeded

/-- One change. When `spares` holds, no job is removed whose success a queued job needs. -/
inductive Move (config : JobConfig) (spares : Prop) (m : JobManager) : JobManager → Prop
  | call {index : Nat} {task task' : Task} (hindex : m.tasks[index]? = some task)
      (hold : task.supervised = none) (hnew : task'.supervised = none)
      (hjobs : ∀ jobs, task'.starting = some jobs → task.starting = some jobs) :
      Move config spares m (m.setTask index task')
  | arrive {task : Task} (hnew : task.supervised = none)
      (hjobs : ∀ jobs, task.starting = some jobs → ∃ params, resolveStart config params = .ok jobs) :
      Move config spares m (m.addTask task)
  | remove {jobId : JobId} {entry : JobEntry} {now : Int} (hget : m.jobs.get? jobId = some entry)
      (hexpired : isExpired config now entry.record = true) (hspares : spares → Spared m jobId) :
      Move config spares m (m.remove jobId)
  | put {entry entry' : JobEntry} (hget : m.jobs.get? entry.record.jobId = some entry)
      (hsame : SameJob entry.record entry'.record)
      (hstatus : entry'.record.status = entry.record.status) : Move config spares m (m.put entry')
  | update {entry entry' : JobEntry} (hget : m.jobs.get? entry.record.jobId = some entry)
      (hsame : SameJob entry.record entry'.record)
      (hstatus : entry'.record.status = entry.record.status) : Move config spares m (m.update entry')
  | endQueued {entry entry' : JobEntry} (hget : m.jobs.get? entry.record.jobId = some entry)
      (hqueued : entry.record.status = .queued) (hsame : SameJob entry.record entry'.record)
      (hreason : EndReason m entry.record entry'.record.status) : Move config spares m (m.endJob entry')
  | spawn {entry entry' : JobEntry} (hget : m.jobs.get? entry.record.jobId = some entry)
      (hqueued : entry.record.status = .queued) (hsame : SameJob entry.record entry'.record)
      (hrunning : entry'.record.status = .running) (hstartable : m.Startable entry.record)
      (hfree : ∀ key, entry.record.queueKey = some key → key ∉ m.busyKeys) :
      Move config spares m
        { (m.update entry').addTask (.supervise entry'.record.jobId) with
          log := m.log ++ [.spawned entry'.record] }
  | superviseNone {index : Nat} {jobId : JobId} (hindex : m.tasks[index]? = some (.supervise jobId))
      (hget : m.jobs.get? jobId = none) : Move config spares m (m.setTask index (.over .supervised))
  | supervise {index : Nat} {jobId : JobId} {entry : JobEntry} {outcome : Outcome} {now : Int}
      (hindex : m.tasks[index]? = some (.supervise jobId)) (hget : m.jobs.get? jobId = some entry) :
      Move config spares m
        (m.setTask index (.superviseSend jobId (finalRecord entry.record outcome now)))
  | superviseSend {index : Nat} {jobId : JobId} {final : StoredJob} {ticket : Nat}
      (hindex : m.tasks[index]? = some (.superviseSend jobId final))
      (hticket : ticket = m.store.sent + 1) :
      Move config spares m
        ({ m with store := m.store.send (.finish final) }.setTask index
          (.superviseFinish jobId final ticket))
  | superviseFinish {index : Nat} {jobId : JobId} {final : StoredJob} {ticket : Nat}
      (hindex : m.tasks[index]? = some (.superviseFinish jobId final ticket))
      (hticket : ticket ≤ m.store.handled) :
      Move config spares m ((m.settle jobId final).setTask index .superviseSchedule)
  | store {store : JobStore} (h : m.store.handle = some store) : Move config spares m { m with store }

/-- Moves one after the other. -/
abbrev Chain (config : JobConfig) (spares : Prop) : JobManager → JobManager → Prop :=
  ReflTransGen (Move config spares)

theorem KeysMatch.insert {jobs : OrdMap JobId JobEntry} (h : KeysMatch m)
    (hjobs : jobs = m.jobs.insert entry.record.jobId entry) (hn : n.jobs = jobs) : KeysMatch n := by
  intro jobId found hget
  rw [hn, hjobs, OrdMap.get?_insert] at hget
  split_ifs at hget with hid
  · cases hget
    exact hid
  · exact h jobId found hget

/-- What a final record does to the jobs, when its job is still there. -/
theorem settle_jobs {final : StoredJob} : (m.settle jobId final).jobs = m.jobs ∨
    ∃ entry settled, m.jobs.get? jobId = some entry ∧
      settled.record = { final with cancelRequestedAtMs := entry.record.cancelRequestedAtMs } ∧
      (m.settle jobId final).jobs = m.jobs.insert settled.record.jobId settled := by
  unfold settle
  split
  · exact .inl rfl
  next entry hget =>
    let record := { final with cancelRequestedAtMs := entry.record.cancelRequestedAtMs }
    refine .inr ⟨entry, { record, pending := entry.pending }, hget, rfl, ?_⟩
    split_ifs <;> rfl

theorem Move.keysMatch (h : Move config spares m n) (hkeys : KeysMatch m) : KeysMatch n := by
  cases h with
  | remove =>
    intro jobId entry hget
    rw [remove_jobs, OrdMap.get?_erase] at hget
    split_ifs at hget
    exact hkeys jobId entry hget
  | superviseFinish =>
    rcases settle_jobs with hjobs | ⟨-, settled, -, -, hjobs⟩
    · intro jobId entry hget
      exact hkeys jobId entry (hjobs ▸ hget)
    · exact hkeys.insert rfl hjobs
  | put | update | endQueued | spawn => exact hkeys.insert rfl rfl
  | _ => exact hkeys

theorem keysMatch_chain (h : Chain config spares m n) (hkeys : KeysMatch m) : KeysMatch n :=
  chain_preserves (fun _ _ hmove => hmove.keysMatch) h hkeys

/-- A loop is a chain when each of its steps is one, wherever the keys match. -/
theorem chain_foldl {ι : Type} {f : JobManager → ι → JobManager} {xs : List ι}
    (hstep : ∀ m x, KeysMatch m → Chain config spares m (f m x)) (hkeys : KeysMatch m) :
    Chain config spares m (xs.foldl f m) := by
  induction xs generalizing m with
  | nil => exact .refl
  | cons x xs ih => exact (hstep m x hkeys).trans (ih (keysMatch_chain (hstep m x hkeys) hkeys))

/-! ## The jobs with a property -/

theorem mem_jobIds {p : StoredJob → Bool} (hkeys : KeysMatch m) :
    jobId ∈ ((m.jobs.values.map JobEntry.record).filter p).map StoredJob.jobId ↔
      ∃ entry, m.jobs.get? jobId = some entry ∧ p entry.record = true := by
  constructor
  · intro h
    obtain ⟨record, hrecord, rfl⟩ := List.mem_map.mp h
    obtain ⟨hrecord, hp⟩ := List.mem_filter.mp hrecord
    obtain ⟨entry, hentry, rfl⟩ := List.mem_map.mp hrecord
    obtain ⟨key, hget⟩ := OrdMap.mem_values.mp hentry
    exact ⟨entry, by rw [hkeys key entry hget]; exact hget, hp⟩
  · rintro ⟨entry, hget, hp⟩
    refine List.mem_map.mpr ⟨entry.record, List.mem_filter.mpr ⟨?_, hp⟩, hkeys jobId entry hget⟩
    exact List.mem_map.mpr ⟨entry, OrdMap.mem_values.mpr ⟨jobId, hget⟩, rfl⟩

theorem jobIds_nodup {p : StoredJob → Bool} (hkeys : KeysMatch m) :
    (((m.jobs.values.map JobEntry.record).filter p).map StoredJob.jobId).Nodup := by
  have hids : (m.jobs.values.map JobEntry.record).map StoredJob.jobId = m.jobs.keys := by
    unfold OrdMap.values OrdMap.keys
    rw [List.map_map, List.map_map]
    refine List.map_congr_left fun pair hpair => ?_
    exact hkeys pair.1 pair.2 (OrdMap.get?_eq_some_iff.mpr hpair)
  have hsub : (((m.jobs.values.map JobEntry.record).filter p).map StoredJob.jobId).Sublist m.jobs.keys := by
    rw [← hids]
    exact List.filter_sublist.map _
  exact hsub.nodup m.jobs.keys_nodup

/-! ## Retention and cancels -/

/-- No retention pass takes a success that a queued job needs. -/
def MaintainSpares (config : JobConfig) (m : JobManager) (now : Int) : Prop :=
  ∀ jobId entry, m.jobs.get? jobId = some entry → isExpired config now entry.record = true →
    Spared m jobId

theorem Spared.remove (h : Spared m jobId) (hne : other ≠ jobId) : Spared (m.remove other) jobId := by
  intro third entry hget hqueued hpolicy hdepends
  rw [remove_jobs, OrdMap.get?_erase] at hget
  split_ifs at hget
  have hsame : (m.remove other).status? jobId = m.status? jobId := by
    unfold status?
    rw [remove_jobs, OrdMap.get?_erase, if_neg hne.symm]
  rw [hsame]
  exact h third entry hget hqueued hpolicy hdepends

theorem maintain_chain (hkeys : KeysMatch m) (now : Int)
    (hspares : spares → MaintainSpares config m now) :
    Chain config spares m (m.maintain config now) := by
  unfold maintain
  refine foldl_chain (P := fun m jobId => ∃ entry, m.jobs.get? jobId = some entry ∧
      isExpired config now entry.record = true ∧ (spares → Spared m jobId))
    (jobIds_nodup hkeys) ?_ ?_ fun jobId hmem => ?_
  · rintro m x y hne - ⟨entry, hget, hexpired, hspared⟩
    refine ⟨entry, ?_, hexpired, fun h => (hspared h).remove hne⟩
    rw [remove_jobs, OrdMap.get?_erase, if_neg (Ne.symm hne)]
    exact hget
  · rintro m x ⟨entry, hget, hexpired, hspared⟩
    exact .single (.remove hget hexpired hspared)
  · obtain ⟨entry, hget, hexpired⟩ := (mem_jobIds hkeys).mp hmem
    exact ⟨entry, hget, hexpired, fun h => hspares h jobId entry hget hexpired⟩

theorem cancelEntry_chain {force : Bool} {now : Int} (hkeys : KeysMatch m) (jobId : JobId) :
    Chain config spares m (cancelEntry force now m jobId) := by
  unfold cancelEntry
  split
  · exact .refl
  next entry hget =>
    have hget : m.jobs.get? entry.record.jobId = some entry := by rwa [hkeys jobId entry hget]
    split
    next hqueued =>
      exact .single (.endQueued hget hqueued ⟨rfl, rfl, rfl, rfl, rfl, rfl, rfl⟩ trivial)
    next hrunning =>
      by_cases hcancel : entry.record.cancelRequestedAtMs = none
      · rw [if_pos hcancel]
        exact .single (.update hget ⟨rfl, rfl, rfl, rfl, rfl, rfl, rfl⟩ rfl)
      · rw [if_neg hcancel]
        exact .single (.put hget (.refl _) rfl)
    · exact .refl

theorem cancel_chain (hkeys : KeysMatch m) (params : CancelJobsParams) (now : Int) :
    Chain config spares m (m.cancel config params now).1 :=
  chain_foldl (fun _ jobId hkeys => cancelEntry_chain hkeys jobId) hkeys

end JobManager

end Lightspeed.Daemon
