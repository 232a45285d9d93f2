import Lightspeed.Lib.OrdMap
import Lightspeed.Lib.Result
import Mathlib.Data.String.Basic

/-!
# The environment protocol

What the job manager takes and answers: the errors, the commands with their check, and the parameters
and summaries of `job/start` and `job/cancel`.
-/

namespace Lightspeed.Daemon

open Lib

abbrev JobId := String
abbrev JobRequestId := String
abbrev JobName := String
abbrev QueueKey := String

/-! ## Errors -/

inductive PreconditionReason where
  | jobIdInUse

inductive ErrorData where
  | invalidParams (field : Option String) (ceiling : Option Nat)
  | notFound
  | failedPrecondition (reason : PreconditionReason)
  | processFailed
  | aborted
  | internal

structure ProtocolError where
  data : ErrorData
  message : String

namespace ProtocolError

def invalidField (field message : String) : ProtocolError := ⟨.invalidParams (some field) none, message⟩

def aboveCeiling (field : String) (value ceiling : Nat) : ProtocolError :=
  ⟨.invalidParams (some field) (some ceiling),
    field ++ " is " ++ toString value ++ "; the ceiling is " ++ toString ceiling⟩

def failedPrecondition (reason : PreconditionReason) (message : String) : ProtocolError :=
  ⟨.failedPrecondition reason, message⟩

def notFound (message : String) : ProtocolError := ⟨.notFound, message⟩

def processFailed (message : String) : ProtocolError := ⟨.processFailed, message⟩

/-- `aborted` without a reason. -/
def aborted (message : String) : ProtocolError := ⟨.aborted, message⟩

def internal (message : String) : ProtocolError := ⟨.internal, message⟩

end ProtocolError

/-! ## Commands -/

inductive ExecInput where
  | none
  | bytes (data : List UInt8)
  | pipe
  deriving DecidableEq

structure CommandSpec where
  argv : List String
  cwd : Option String := none
  env : OrdMap String String := ∅
  secretEnv : OrdMap String String := ∅
  input : ExecInput := .none
  timeoutMs : Option Nat := none

/-- Whether a text contains U+0000. -/
def containsNul (text : String) : Bool := text.toList.contains (Char.ofNat 0)

section Validate

-- How the language prints a text in quotes.
variable (quote : String → String)

def validateEnvName (name field : String) : Except ProtocolError Unit :=
  require (¬ (name = "" ∨ name.toList.contains '=' ∨ containsNul name))
    (.invalidField field ("invalid variable name " ++ quote name))

/-- `validate_command`. -/
def validateCommand (spec : CommandSpec) (field : String) : Except ProtocolError Unit := do
  let argv := field ++ ".argv"
  require (spec.argv ≠ []) (.invalidField argv "argv must name a program")
  require (spec.argv.head? ≠ some "") (.invalidField argv "argv[0] must not be empty")
  require (¬ spec.argv.any containsNul) (.invalidField argv "arguments must not contain NUL")
  spec.env.entries.forM fun (name, value) => do
    validateEnvName quote name (field ++ ".env")
    require (¬ containsNul value)
      (.invalidField (field ++ ".env") ("value of " ++ name ++ " contains NUL"))
  spec.secretEnv.entries.forM fun (name, value) => do
    validateEnvName quote name (field ++ ".secretEnv")
    require (¬ containsNul value)
      (.invalidField (field ++ ".secretEnv") ("value of " ++ name ++ " contains NUL"))
    require (¬ spec.env.contains name)
      (.invalidField (field ++ ".secretEnv") (name ++ " is also set in env"))
  require (spec.timeoutMs ≠ some 0) (.invalidField (field ++ ".timeoutMs")
    "timeoutMs must be positive; omit it for no deadline")

end Validate

/-! ## Exits -/

inductive ExitStatus where
  | code (code : Int)
  | signal (signal : String) (coreDumped : Bool)

inductive StoppedBy where
  | timeout
  | terminate
  | kill

/-- `describe_exit`. -/
def describeExit : ExitStatus → String
  | .code code => "exited with status " ++ toString code
  | .signal signal true => "terminated by signal " ++ signal ++ " (core dumped)"
  | .signal signal false => "terminated by signal " ++ signal

/-! ## Jobs -/

inductive JobStatus where
  | queued
  | running
  | succeeded
  | failed
  | timedOut
  | cancelled
  | dependencyFailed
  | interrupted
  deriving DecidableEq

namespace JobStatus

def isTerminal : JobStatus → Bool
  | queued | running => false
  | _ => true

/-- `status_name`. -/
def name : JobStatus → String
  | queued => "queued"
  | running => "running"
  | succeeded => "succeeded"
  | failed => "failed"
  | timedOut => "timedOut"
  | cancelled => "cancelled"
  | dependencyFailed => "dependencyFailed"
  | interrupted => "interrupted"

end JobStatus

/-- What a job waits for from its dependencies. -/
inductive JobDependencyPolicy where
  | allSucceeded
  | allTerminal
  deriving DecidableEq

inductive JobDependency where
  | jobId (jobId : JobId)
  | name (name : JobName)

/-- One job of a `job/start`. -/
structure JobSpec where
  jobId : JobId
  name : Option JobName := none
  command : CommandSpec
  dependsOn : List JobDependency := []
  dependencyPolicy : JobDependencyPolicy := .allSucceeded
  queueKey : Option QueueKey := none

structure StartJobsParams where
  requestId : JobRequestId
  jobs : List JobSpec

inductive JobCancelScope where
  | job
  | dependents

structure CancelJobsParams where
  jobIds : List JobId
  scope : JobCancelScope := .job
  force : Bool := false

structure JobSummary where
  jobId : JobId
  requestId : JobRequestId
  name : Option JobName
  status : JobStatus
  dependsOn : List JobId
  queueKey : Option QueueKey
  createdAtMs : Int
  queuedAtMs : Option Int
  startedAtMs : Option Int
  finishedAtMs : Option Int
  cancelRequestedAtMs : Option Int
  exit : Option ExitStatus
  stoppedBy : Option StoppedBy
  error : Option ProtocolError

inductive JobSummaryEntry where
  | job (summary : JobSummary)
  | error (jobId : JobId) (error : ProtocolError)

structure CancelJobsResponse where
  jobs : List JobSummaryEntry
  unlistedJobCount : Nat

end Lightspeed.Daemon
