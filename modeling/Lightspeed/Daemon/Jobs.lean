import Lightspeed.Daemon.Protocol
import Lightspeed.Lib.Acyclic
import Lightspeed.Lib.Machine
import Mathlib.Data.List.Sort

/-!
# Jobs

The data of the job manager of `jobs.rs`, and what a `job/start` goes through before it meets the state:
its checks, the resolution of its dependencies, and the search for a cycle among its own jobs. Beside the
program's data each record carries a number that tells the jobs of one id apart, and the manager a log
of the spawns and the ends.
-/

namespace Lightspeed.Daemon

open Lib

/-! ## Data -/

/-- What the hash of a spec is taken of. -/
structure SpecMaterial where
  name : Option JobName
  argv : List String
  cwd : Option String
  env : OrdMap String String
  secretEnv : OrdMap String String
  input : String
  timeoutMs : Option Nat
  dependsOn : List JobId
  dependencyPolicy : JobDependencyPolicy
  queueKey : Option QueueKey

structure JobConfig where
  maxRequestJobs : Nat
  recordRetentionMs : Nat
  /-- How the language prints a text in quotes. -/
  quote : String → String
  /-- The SHA-256 digest in hexadecimal digits. -/
  hexDigest : List UInt8 → String
  /-- The JSON text of a spec's material. -/
  encodeMaterial : SpecMaterial → List UInt8
  deriving Inhabited

/-- The persisted record of one job. -/
structure StoredJob where
  jobId : JobId
  requestId : JobRequestId
  name : Option JobName
  specHash : String
  seq : Nat
  status : JobStatus
  dependsOn : List JobId
  dependencyPolicy : JobDependencyPolicy
  queueKey : Option QueueKey
  createdAtMs : Int
  queuedAtMs : Option Int := none
  startedAtMs : Option Int := none
  finishedAtMs : Option Int := none
  cancelRequestedAtMs : Option Int := none
  exit : Option ExitStatus := none
  stoppedBy : Option StoppedBy := none
  error : Option ProtocolError := none
  /-- Which of all the jobs ever started this is. -/
  birth : Nat
  /-- The jobs that the dependencies named when this one was started. -/
  needs : List Nat

def StoredJob.summary (record : StoredJob) : JobSummary :=
  { jobId := record.jobId
    requestId := record.requestId
    name := record.name
    status := record.status
    dependsOn := record.dependsOn
    queueKey := record.queueKey
    createdAtMs := record.createdAtMs
    queuedAtMs := record.queuedAtMs
    startedAtMs := record.startedAtMs
    finishedAtMs := record.finishedAtMs
    cancelRequestedAtMs := record.cancelRequestedAtMs
    exit := record.exit
    stoppedBy := record.stoppedBy
    error := record.error }

/-- A running execution: the stops that were asked of it. -/
structure Run where
  stops : List StoppedBy := []

structure JobEntry where
  record : StoredJob
  /-- The command of a queued job. -/
  pending : Option CommandSpec
  run : Option Run := none

/-- A validated entry of a `job/start` with its dependencies resolved. -/
structure ResolvedJob where
  jobId : JobId
  name : Option JobName
  command : CommandSpec
  dependsOn : List JobId
  dependencyPolicy : JobDependencyPolicy
  queueKey : Option QueueKey
  specHash : String

/-! ## The store -/

inductive StoreCommand where
  | writeRecord (record : StoredJob)
  /-- The output of the job is written out before its final record. -/
  | finish (record : StoredJob)
  | remove (jobId : JobId)

/-- The records on disk, the commands that the store thread has yet to handle, and how many it has
handled. -/
structure JobStore where
  disk : OrdMap JobId StoredJob := ∅
  queue : List StoreCommand := []
  handled : Nat := 0

namespace JobStore

def send (s : JobStore) (command : StoreCommand) : JobStore := { s with queue := s.queue ++ [command] }

/-- How many commands were sent. -/
def sent (s : JobStore) : Nat := s.handled + s.queue.length

def apply (disk : OrdMap JobId StoredJob) : StoreCommand → OrdMap JobId StoredJob
  | .writeRecord record | .finish record => disk.insert record.jobId record
  | .remove jobId => disk.erase jobId

/-- `Writer::handle`, of the first command. -/
def handle (s : JobStore) : Option JobStore :=
  match s.queue with
  | [] => none
  | command :: rest => some { disk := apply s.disk command, queue := rest, handled := s.handled + 1 }

end JobStore

/-! ## The state -/

inductive JobAnswer where
  | started (result : Except ProtocolError (List JobSummary))
  | cancelled (result : Except ProtocolError CancelJobsResponse)
  /-- The supervision of a job is over. -/
  | supervised

/-- Where a call, or the supervision of a job, stands between two sections under the lock. -/
inductive Task where
  /-- A resolved start, before its retention pass. -/
  | startMaintain (requestId : JobRequestId) (jobs : List ResolvedJob)
  | startInsert (requestId : JobRequestId) (jobs : List ResolvedJob)
  /-- Waits for the records, which are among the first `ticket` commands of the store. -/
  | startWrite (started : List JobId) (ticket : Nat)
  | startSchedule (started : List JobId)
  | startAnswer (started : List JobId)
  | cancelMaintain (params : CancelJobsParams)
  | cancelEntries (params : CancelJobsParams)
  | cancelSchedule (response : CancelJobsResponse)
  /-- Follows the execution of a job to its end. -/
  | supervise (jobId : JobId)
  | superviseSend (jobId : JobId) (finalRecord : StoredJob)
  | superviseFinish (jobId : JobId) (finalRecord : StoredJob) (ticket : Nat)
  | superviseSchedule
  | over (answer : JobAnswer)

/-- What is logged of a job: its record when it was spawned, and when it ended. -/
inductive JobObs where
  | spawned (record : StoredJob)
  | ended (record : StoredJob)

structure JobManager where
  jobs : OrdMap JobId JobEntry := ∅
  nextSeq : Nat := 0
  store : JobStore := {}
  tasks : List Task := []
  /-- How many jobs were ever started. -/
  births : Nat := 0
  log : List JobObs := []

/-- How an execution ended. -/
structure Outcome where
  exit : Option ExitStatus
  stoppedBy : Option StoppedBy
  error : Option ProtocolError

/-- What a section under the lock reads from outside. -/
structure Turn where
  now : Int := 0
  /-- The clock at each pass of the scheduler. -/
  clock : Nat → Int := fun _ => 0
  /-- Whether the working directory of a job resolves and its command spawns. -/
  spawn : JobId → Except ProtocolError Unit := fun _ => .ok ()
  outcome : Outcome := ⟨none, none, none⟩

/-! ## Requests -/

/-- A list with an element at its end, unless it has it already. -/
def pushNew (xs : List JobId) (x : JobId) : List JobId := if x ∈ xs then xs else xs ++ [x]

def checkJobCount (field : String) (count max : Nat) : Except ProtocolError Unit := do
  require (count ≠ 0) (.invalidField field "name at least one job")
  require (count ≤ max) (.aboveCeiling field count max)

def unknownJob (jobId : JobId) : ProtocolError := .notFound ("unknown job id: " ++ jobId)

/-- The path of a field of one job of a request. -/
def jobField (index : Nat) (field : String) : String := "jobs[" ++ toString index ++ "]." ++ field

section Resolve

variable (config : JobConfig)

def specHash (name : Option JobName) (command : CommandSpec) (dependsOn : List JobId)
    (dependencyPolicy : JobDependencyPolicy) (queueKey : Option QueueKey) : String :=
  config.hexDigest (config.encodeMaterial
    { name
      argv := command.argv
      cwd := command.cwd
      env := command.env
      secretEnv := command.secretEnv.mapValues fun _ value => config.hexDigest value.toUTF8.toList
      input :=
        match command.input with
        | .none => "none"
        | .bytes data => "bytes:" ++ config.hexDigest data
        | .pipe => "pipe"
      timeoutMs := command.timeoutMs
      dependsOn, dependencyPolicy, queueKey })

/-- The check of one job of a request, over the ids and the names before it. -/
def checkSpec (seen : List JobId × OrdMap JobName JobId) (indexed : JobSpec × Nat) :
    Except ProtocolError (List JobId × OrdMap JobName JobId) := do
  let (ids, names) := seen
  let (job, index) := indexed
  let field := jobField index "command"
  validateCommand config.quote job.command field
  require (job.command.input ≠ .pipe)
    (.invalidField (field ++ ".input") "jobs take no pipe input; use bytes")
  require (job.jobId ∉ ids)
    (.invalidField (jobField index "jobId") ("job id " ++ job.jobId ++ " appears twice"))
  match job.name with
  | none => .ok (job.jobId :: ids, names)
  | some name => do
    require (¬ names.contains name)
      (.invalidField (jobField index "name") ("job name " ++ name ++ " appears twice"))
    .ok (job.jobId :: ids, names.insert name job.jobId)

/-- The ids of the dependencies of one job, each once. -/
def resolveDependencies (names : OrdMap JobName JobId) (index : Nat) (dependsOn : List JobDependency) :
    Except ProtocolError (List JobId) :=
  dependsOn.foldlM (fun resolved dependency => do
    let jobId ←
      match dependency with
      | .jobId jobId => .ok jobId
      | .name name => orError (names.get? name) (.invalidField (jobField index "dependsOn")
          ("no job of this request is named " ++ name))
    .ok (pushNew resolved jobId)) []

/-- One job of a request, with its dependencies resolved. -/
def resolveJob (names : OrdMap JobName JobId) (indexed : JobSpec × Nat) :
    Except ProtocolError ResolvedJob := do
  let (job, index) := indexed
  let dependsOn ← resolveDependencies names index job.dependsOn
  .ok
    { jobId := job.jobId
      name := job.name
      command := job.command
      dependsOn
      dependencyPolicy := job.dependencyPolicy
      queueKey := job.queueKey
      specHash := specHash config job.name job.command dependsOn job.dependencyPolicy job.queueKey }

/-- The positions that the job at a position depends on within the request. -/
def successors (resolved : List ResolvedJob) (position : Nat) : List Nat :=
  let index := OrdMap.ofList (resolved.zipIdx.map fun (job, position) => (job.jobId, position))
  match resolved[position]? with
  | none => []
  | some job => job.dependsOn.filterMap index.get?

def rejectCycles (resolved : List ResolvedJob) : Except ProtocolError Unit :=
  match findCycle (successors resolved) resolved.length (List.range resolved.length) with
  | none => .ok ()
  | some cycle =>
    .error (.invalidField (jobField cycle "dependsOn")
      ("job " ++ (resolved[cycle]?.map ResolvedJob.jobId).getD "" ++
        " depends on itself through a cycle"))

/-- `resolve_start`. -/
def resolveStart (params : StartJobsParams) : Except ProtocolError (List ResolvedJob) := do
  checkJobCount "jobs" params.jobs.length config.maxRequestJobs
  let (_, names) ← params.jobs.zipIdx.foldlM (checkSpec config) ([], ∅)
  let resolved ← params.jobs.zipIdx.mapM (resolveJob config names)
  rejectCycles resolved
  .ok resolved

end Resolve

end Lightspeed.Daemon
