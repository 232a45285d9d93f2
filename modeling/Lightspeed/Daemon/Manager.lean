import Lightspeed.Daemon.Jobs
import Mathlib.Data.Prod.Lex

/-!
# The job manager

`JobManager` of `jobs.rs`: what starts, cancels, ends and collects jobs, and the scheduler. A call is a
task that goes on by one section under the lock at a time, and so does the supervision of a running job;
in between any other task may go on. Records reach the disk through the store thread, which handles its
commands in order. A restart keeps the disk and nothing else.
-/

namespace Lightspeed.Daemon

open Lib

namespace JobManager

/-! ## Entries -/

def put (m : JobManager) (entry : JobEntry) : JobManager :=
  { m with jobs := m.jobs.insert entry.record.jobId entry }

/-- `queue_record`. -/
def queueRecord (m : JobManager) (record : StoredJob) : JobManager :=
  { m with store := m.store.send (.writeRecord record) }

def update (m : JobManager) (entry : JobEntry) : JobManager := (m.put entry).queueRecord entry.record

/-- A job ends without its execution having ended. -/
def endJob (m : JobManager) (entry : JobEntry) : JobManager :=
  { m.update entry with log := m.log ++ [.ended entry.record] }

/-- The status of a job that is retained. -/
def status? (m : JobManager) (jobId : JobId) : Option JobStatus :=
  (m.jobs.get? jobId).map fun entry => entry.record.status

def setTask (m : JobManager) (index : Nat) (task : Task) : JobManager :=
  { m with tasks := m.tasks.set index task }

def addTask (m : JobManager) (task : Task) : JobManager := { m with tasks := m.tasks ++ [task] }

/-! ## Retention -/

def isExpired (config : JobConfig) (now : Int) (record : StoredJob) : Bool :=
  record.status.isTerminal &&
    record.finishedAtMs.any fun finished => min config.recordRetentionMs (2 ^ 63 - 1) ≤ now - finished

def remove (m : JobManager) (jobId : JobId) : JobManager :=
  { m with jobs := m.jobs.erase jobId, store := m.store.send (.remove jobId) }

def maintain (config : JobConfig) (m : JobManager) (now : Int) : JobManager :=
  let expired := (m.jobs.values.map JobEntry.record).filter (isExpired config now)
  (expired.map StoredJob.jobId).foldl remove m

/-! ## Start -/

def jobIdInUse (jobId : JobId) (detail : String) : ProtocolError :=
  .failedPrecondition .jobIdInUse
    ("job id " ++ jobId ++ " " ++ detail ++ "; choose a new job id for a new run")

/-- `replay_or_conflict`. -/
def replayOrConflict (m : JobManager) (requestId : JobRequestId) (resolved : List ResolvedJob) :
    Except ProtocolError (Option (List JobSummary)) :=
  if ¬ resolved.any (fun job => m.jobs.contains job.jobId) then .ok none
  else do
    let summaries ← resolved.mapM fun job => do
      let entry ← orError (m.jobs.get? job.jobId)
        (jobIdInUse job.jobId "is new while other jobs of this request already exist")
      require (entry.record.requestId = requestId)
        (jobIdInUse job.jobId "was started by another request")
      require (entry.record.specHash = job.specHash)
        (jobIdInUse job.jobId "was started with a different spec")
      .ok entry.record.summary
    .ok (some summaries)

def checkDependencies (m : JobManager) (resolved : List ResolvedJob) : Except ProtocolError Unit :=
  resolved.zipIdx.forM fun (job, index) =>
    job.dependsOn.forM fun dependency =>
      require (m.jobs.contains dependency ∨ dependency ∈ resolved.map ResolvedJob.jobId)
        (.invalidField (jobField index "dependsOn") ("unknown job id " ++ dependency))

/-- The number that a job of a request gets when it is started. -/
def newBirth? (m : JobManager) (resolved : List ResolvedJob) (jobId : JobId) : Option Nat :=
  (resolved.findIdx? fun job => job.jobId = jobId).map (m.births + ·)

/-- The job that an id names, when a request is started. -/
def birth? (m : JobManager) (resolved : List ResolvedJob) (jobId : JobId) : Option Nat :=
  (m.newBirth? resolved jobId).or ((m.jobs.get? jobId).map fun entry => entry.record.birth)

/-- The record of a job that is started. -/
def newRecord (requestId : JobRequestId) (now : Int) (birth? : JobId → Option Nat) (m : JobManager)
    (job : ResolvedJob) : StoredJob :=
  { jobId := job.jobId
    requestId
    name := job.name
    specHash := job.specHash
    seq := m.nextSeq
    status := .queued
    dependsOn := job.dependsOn
    dependencyPolicy := job.dependencyPolicy
    queueKey := job.queueKey
    createdAtMs := now
    birth := m.births
    needs := job.dependsOn.filterMap birth? }

def insertJob (requestId : JobRequestId) (now : Int) (birth? : JobId → Option Nat) (m : JobManager)
    (job : ResolvedJob) : JobManager :=
  let record := newRecord requestId now birth? m job
  { m.update { record, pending := some job.command } with
    nextSeq := m.nextSeq + 1
    births := m.births + 1 }

def insertJobs (m : JobManager) (requestId : JobRequestId) (now : Int) (resolved : List ResolvedJob) :
    JobManager :=
  resolved.foldl (insertJob requestId now (m.birth? resolved)) m

/-- The section of a start that adds its jobs, and how the start goes on. -/
def start (m : JobManager) (requestId : JobRequestId) (resolved : List ResolvedJob) (now : Int) :
    JobManager × Task :=
  match m.replayOrConflict requestId resolved with
  | .error error => (m, .over (.started (.error error)))
  | .ok (some replay) => (m, .over (.started (.ok replay)))
  | .ok none =>
    match m.checkDependencies resolved with
    | .error error => (m, .over (.started (.error error)))
    | .ok () =>
      let m := m.insertJobs requestId now resolved
      (m, .startWrite (resolved.map ResolvedJob.jobId) m.store.sent)

/-! ## Cancel -/

/-- The unfinished jobs that depend on one of some jobs and are not among them. -/
def dependentsOf (m : JobManager) (affected : List JobId) : List JobId :=
  ((m.jobs.values.map JobEntry.record).filter fun record =>
    !record.status.isTerminal && !affected.contains record.jobId &&
      record.dependsOn.any affected.contains).map StoredJob.jobId

/-- The loop of `cancel` over the dependents. -/
def allDependents (m : JobManager) : Nat → List JobId → List JobId → List JobId
  | 0, _, dependents => dependents
  | fuel + 1, affected, dependents =>
    match m.dependentsOf affected with
    | [] => dependents
    | next => allDependents m fuel (affected ++ next) (dependents ++ next)

/-- `cancel_entry`. -/
def cancelEntry (force : Bool) (now : Int) (m : JobManager) (jobId : JobId) : JobManager :=
  match m.jobs.get? jobId with
  | none => m
  | some entry =>
    match entry.record.status with
    | .queued =>
      m.endJob
        { entry with
          pending := none
          record := { entry.record with status := .cancelled, finishedAtMs := some now } }
    | .running =>
      let run := entry.run.map fun run =>
        { run with stops := run.stops ++ [if force then .kill else .terminate] }
      if entry.record.cancelRequestedAtMs = none then
        m.update
          { entry with record := { entry.record with cancelRequestedAtMs := some now }, run }
      else m.put { entry with run }
    | _ => m

def summaryEntry (m : JobManager) (jobId : JobId) : JobSummaryEntry :=
  match m.jobs.get? jobId with
  | some entry => .job entry.record.summary
  | none => .error jobId (unknownJob jobId)

/-- The section of a cancel that cancels, and its response. -/
def cancel (config : JobConfig) (m : JobManager) (params : CancelJobsParams) (now : Int) :
    JobManager × CancelJobsResponse :=
  let named := params.jobIds.foldl pushNew []
  let dependents :=
    match params.scope with
    | .job => []
    | .dependents => m.allDependents (m.jobs.entries.length + 1) named []
  let m := (named ++ dependents).foldl (cancelEntry params.force now) m
  let room := config.maxRequestJobs - named.length
  let listed := (dependents.take room).filterMap fun jobId =>
    (m.jobs.get? jobId).map fun entry => JobSummaryEntry.job entry.record.summary
  (m,
    { jobs := named.map m.summaryEntry ++ listed
      unlistedJobCount := min (dependents.length - room) (2 ^ 32 - 1) })

/-! ## The scheduler -/

/-- Whether a queued job can no longer have its dependencies succeed, as the scheduler reads it. -/
def isDoomed (m : JobManager) (record : StoredJob) : Bool :=
  record.status == .queued && record.dependencyPolicy == .allSucceeded &&
    record.dependsOn.any fun dependency =>
      match m.status? dependency with
      | none => true
      | some status => status.isTerminal && status != .succeeded

/-- Whether a queued job's dependencies satisfy its policy, as the scheduler reads it. -/
def isRunnable (m : JobManager) (record : StoredJob) : Bool :=
  record.status == .queued && record.dependsOn.all fun dependency =>
    match m.status? dependency with
    | none => true
    | some status =>
      match record.dependencyPolicy with
      | .allSucceeded => status == .succeeded
      | .allTerminal => status.isTerminal

def failDoomed (now : Int) (m : JobManager) (jobId : JobId) : JobManager :=
  match m.jobs.get? jobId with
  | none => m
  | some entry =>
    m.endJob
      { entry with
        pending := none
        record := { entry.record with status := .dependencyFailed, finishedAtMs := some now } }

def doomed (m : JobManager) : List JobId :=
  ((m.jobs.values.map JobEntry.record).filter m.isDoomed).map StoredJob.jobId

/-- The queue keys of the running jobs. -/
def busyKeys (m : JobManager) : List QueueKey :=
  ((m.jobs.values.map JobEntry.record).filter fun record => record.status == .running).filterMap
    StoredJob.queueKey

/-- The runnable jobs, in the order of their numbers. -/
def runnable (m : JobManager) : List (Nat ×ₗ JobId) :=
  (((m.jobs.values.map JobEntry.record).filter m.isRunnable).map fun record =>
    toLex (record.seq, record.jobId)).insertionSort (· ≤ ·)

/-- A job fails to start. -/
def failStart (now : Int) (m : JobManager) (entry : JobEntry) (error : ProtocolError) : JobManager :=
  m.endJob
    { entry with
      pending := none
      record := { entry.record with status := .failed, finishedAtMs := some now, error := some error } }

/-- `start_entry`. -/
def startEntry (now : Int) (spawn : JobId → Except ProtocolError Unit) (m : JobManager)
    (entry : JobEntry) : JobManager :=
  match entry.pending with
  | none => failStart now m entry (.internal "the job's command was lost")
  | some _ =>
    match spawn entry.record.jobId with
    | .error error => failStart now m entry error
    | .ok () =>
      let record := { entry.record with status := .running, startedAtMs := some now }
      { (m.update { record, pending := none, run := some {} }).addTask (.supervise record.jobId) with
        log := m.log ++ [.spawned record] }

/-- Where a pass over the runnable jobs stands. -/
structure Pass where
  manager : JobManager
  busy : List QueueKey
  progressed : Bool

def startRunnable (now : Int) (spawn : JobId → Except ProtocolError Unit) (pass : Pass)
    (next : Nat ×ₗ JobId) : Pass :=
  match pass.manager.jobs.get? (ofLex next).2 with
  | none => pass
  | some entry =>
    let newlyRunnable := entry.record.queuedAtMs.isNone
    let queued :=
      if newlyRunnable then { entry with record := { entry.record with queuedAtMs := some now } }
      else entry
    let blocked := entry.record.queueKey.any pass.busy.contains
    if blocked then
      { pass with
        manager := if newlyRunnable then pass.manager.update queued else pass.manager.put queued }
    else
      { manager := pass.manager.startEntry now spawn queued
        busy := entry.record.queueKey.toList ++ pass.busy
        progressed := true }

/-- One round of the loop of `schedule`, and whether it made progress. -/
def sweep (now : Int) (spawn : JobId → Except ProtocolError Unit) (m : JobManager) : JobManager × Bool :=
  let doomed := m.doomed
  let m := doomed.foldl (failDoomed now) m
  let pass := m.runnable.foldl (startRunnable now spawn)
    { manager := m, busy := m.busyKeys, progressed := !doomed.isEmpty }
  (pass.manager, pass.progressed)

def scheduleLoop (turn : Turn) : Nat → Nat → JobManager → JobManager
  | 0, _, m => m
  | fuel + 1, round, m =>
    let (m, progressed) := m.sweep (turn.clock round) turn.spawn
    if progressed then scheduleLoop turn fuel (round + 1) m else m

def queuedCount (m : JobManager) : Nat :=
  (m.jobs.values.filter fun entry => entry.record.status == .queued).length

/-- `schedule`: every round that makes progress leaves fewer jobs queued. -/
def schedule (turn : Turn) (m : JobManager) : JobManager := scheduleLoop turn (m.queuedCount + 1) 0 m

/-! ## Supervision -/

def Outcome.status (outcome : Outcome) : JobStatus :=
  match outcome.exit, outcome.stoppedBy with
  | _, some .timeout => .timedOut
  | _, some .terminate | _, some .kill => .cancelled
  | some (.code 0), none => if outcome.error.isNone then .succeeded else .failed
  | _, none => .failed

/-- The final record of a job. -/
def finalRecord (record : StoredJob) (outcome : Outcome) (now : Int) : StoredJob :=
  let status := Outcome.status outcome
  { record with
    status
    exit := outcome.exit
    stoppedBy := outcome.stoppedBy
    error := outcome.error.or
      (match outcome.exit, status with
      | some (.signal signal coreDumped), .failed =>
        some (.processFailed (describeExit (.signal signal coreDumped)))
      | _, _ => none)
    finishedAtMs := some now }

/-- The final record is in memory; a cancel that came since is kept. -/
def settle (m : JobManager) (jobId : JobId) (final : StoredJob) : JobManager :=
  match m.jobs.get? jobId with
  | none => m
  | some entry =>
    let record := { final with cancelRequestedAtMs := entry.record.cancelRequestedAtMs }
    let ended := { m.put { record, pending := entry.pending } with log := m.log ++ [.ended record] }
    if final.cancelRequestedAtMs = entry.record.cancelRequestedAtMs then ended
    else ended.queueRecord record

/-! ## Restart -/

/-- What a new instance makes of a record on disk. -/
def reconcile (now : Int) (record : StoredJob) : StoredJob :=
  if record.status.isTerminal then record
  else
    { record with
      status := .interrupted
      finishedAtMs := some now
      error := some (.aborted ("the daemon stopped while the job was " ++ record.status.name)) }

/-- `JobManager::new`, on what an earlier instance left on disk. -/
def restart (m : JobManager) (now : Int) : JobManager :=
  let disk := m.store.disk.mapValues fun _ record => reconcile now record
  { jobs := OrdMap.ofList (disk.values.map fun record => (record.jobId, { record, pending := none }))
    nextSeq := disk.values.foldl (fun seq record => max seq (record.seq + 1)) 0
    store := { disk }
    tasks := []
    births := m.births
    log := m.log ++ disk.values.map .ended }

/-! ## Steps -/

/-- A task goes on by one section. -/
def proceed (config : JobConfig) (m : JobManager) (index : Nat) (turn : Turn) : Task → Option JobManager
  | .startMaintain requestId jobs =>
    some ((m.maintain config turn.now).setTask index (.startInsert requestId jobs))
  | .startInsert requestId jobs =>
    let (m, task) := m.start requestId jobs turn.now
    some (m.setTask index task)
  | .startWrite started ticket =>
    if m.store.handled < ticket then none else some (m.setTask index (.startSchedule started))
  | .startSchedule started => some ((m.schedule turn).setTask index (.startAnswer started))
  | .startAnswer started =>
    some (m.setTask index (.over (.started (.ok (started.filterMap fun jobId =>
      (m.jobs.get? jobId).map fun entry => entry.record.summary)))))
  | .cancelMaintain params => some ((m.maintain config turn.now).setTask index (.cancelEntries params))
  | .cancelEntries params =>
    let (m, response) := m.cancel config params turn.now
    some (m.setTask index (.cancelSchedule response))
  | .cancelSchedule response =>
    some ((m.schedule turn).setTask index (.over (.cancelled (.ok response))))
  | .supervise jobId =>
    match m.jobs.get? jobId with
    | none => some (m.setTask index (.over .supervised))
    | some entry =>
      some (m.setTask index (.superviseSend jobId (finalRecord entry.record turn.outcome turn.now)))
  | .superviseSend jobId final =>
    let m := { m with store := m.store.send (.finish final) }
    some (m.setTask index (.superviseFinish jobId final m.store.sent))
  | .superviseFinish jobId final ticket =>
    if m.store.handled < ticket then none
    else some ((m.settle jobId final).setTask index .superviseSchedule)
  | .superviseSchedule => some ((m.schedule turn).setTask index (.over .supervised))
  | .over _ => none

inductive Input where
  | startJobs (params : StartJobsParams)
  | cancelJobs (params : CancelJobsParams)
  /-- The retention pass of a read or of a count of the running jobs. -/
  | maintain (now : Int)
  | proceed (index : Nat) (turn : Turn)
  /-- The store thread handles a command. -/
  | store
  | restart (now : Int)

def step (config : JobConfig) (m : JobManager) : Input → Option JobManager
  | .startJobs params =>
    match resolveStart config params with
    | .error error => some (m.addTask (.over (.started (.error error))))
    | .ok jobs => some (m.addTask (.startMaintain params.requestId jobs))
  | .cancelJobs params =>
    match checkJobCount "jobIds" params.jobIds.length config.maxRequestJobs with
    | .error error => some (m.addTask (.over (.cancelled (.error error))))
    | .ok () => some (m.addTask (.cancelMaintain params))
  | .maintain now => some (m.maintain config now)
  | .proceed index turn => m.tasks[index]?.bind (m.proceed config index turn)
  | .store => m.store.handle.map fun store => { m with store }
  | .restart now => some (m.restart now)

end JobManager

/-- A daemon over an empty state directory. -/
def jobManager (config : JobConfig) : Machine JobManager JobManager.Input where
  init m := m = {}
  step m input := m.step config input

end Lightspeed.Daemon
