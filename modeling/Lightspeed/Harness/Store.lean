import Lightspeed.Harness.State

/-!
# The session store

`SessionRecord` of `storage/session.rs`: what a store keeps about a session beside its log. The store
reads no state. It projects the status and the activity that lists show from the kinds of the events that
it appends. A kind names one constructor of an event, so that the projection matches on those.
-/

namespace Lightspeed.Harness

/-- `SessionActivity`: what a session is doing now, as lists show it. -/
inductive SessionActivity where
  | idle
  | working
  | waiting
  deriving DecidableEq

/-- `SessionLifecycleStatus`. -/
inductive SessionLifecycleStatus where
  | new
  | open
  | closed
  deriving DecidableEq

/-- `SessionRecord`. -/
structure SessionRecord where
  sessionId : SessionId
  lifecycleStatus : SessionLifecycleStatus := .new
  closedAtSeq : Option EventSeq := none
  closedAtMs : Option Nat := none
  activity : SessionActivity := .idle
  retentionRootSessionId : SessionId
  deleteAfterCloseMs : Option Nat := none
  deleteAtMs : Option Nat := none
  lifecycleControlled : Bool := false
  head : Option EventSeq := none
  sourceSessionId : Option SessionId := none
  sourceSeq : Option EventSeq := none
  createdAtMs : Nat
  updatedAtMs : Nat

/-- `CreateSession`, for a session that is its own retention root. -/
structure CreateSession where
  sessionId : SessionId
  deleteAfterCloseMs : Option Nat := none
  createdAtMs : Nat

/-- The record that `create_session` stores. -/
def CreateSession.record (request : CreateSession) : SessionRecord where
  sessionId := request.sessionId
  retentionRootSessionId := request.sessionId
  deleteAfterCloseMs := request.deleteAfterCloseMs
  createdAtMs := request.createdAtMs
  updatedAtMs := request.createdAtMs

/-- `refresh_delete_at`. -/
def refreshDeleteAt (record : SessionRecord) : SessionRecord :=
  { record with
    deleteAtMs :=
      if record.retentionRootSessionId = record.sessionId then
        record.closedAtMs.bind fun closedAtMs =>
          record.deleteAfterCloseMs.map fun durationMs => saturatingAdd64 closedAtMs durationMs
      else none }

/-- A session that waits goes back to work. -/
def SessionRecord.resume (record : SessionRecord) : SessionRecord :=
  if record.activity = .waiting then { record with activity := .working } else record

/-- `apply_lifecycle_projection`. -/
def applyLifecycleProjection (record : SessionRecord) (entry : CoreAgentEntry) : SessionRecord :=
  match entry.event with
  | .lifecycle (.opened _) => { record with lifecycleStatus := .open }
  | .lifecycle .closed =>
    refreshDeleteAt { record with
      lifecycleStatus := .closed
      closedAtSeq := some entry.seq
      closedAtMs := some entry.observedAtMs
      activity := .idle }
  | .run (.started _) => { record with activity := .working }
  | .approval (.runParked _) => { record with activity := .waiting }
  | .approval (.runUnparked _) | .turn (.started _ _) | .turn (.generationRequested _ _)
  | .tool (.callStarted _ _ _ _ _ _) | .tool (.batchUnparked _ _ _) => record.resume
  | .run (.completed _ _) | .run (.failed _ _) | .run (.cancelled _) | .run (.forceCancelled _) =>
    { record with activity := .idle }
  | .workflowToolConfig (.declaredBindingsAdmitted _ _ (some _) _ _) =>
    { record with lifecycleControlled := true }
  | _ => record

/-- The record after a log. -/
def SessionRecord.project (record : SessionRecord) (log : List CoreAgentEntry) : SessionRecord :=
  log.foldl applyLifecycleProjection record

theorem SessionRecord.resume_lifecycleStatus (record : SessionRecord) :
    record.resume.lifecycleStatus = record.lifecycleStatus := by
  unfold resume
  split_ifs <;> rfl

/-- A session that does anything works once it resumes. -/
theorem SessionRecord.resume_activity {record : SessionRecord} (h : record.activity ≠ .idle) :
    record.resume.activity = .working := by
  unfold resume
  split_ifs with hwaiting
  · rfl
  · cases hactivity : record.activity with
    | idle => exact absurd hactivity h
    | working => rfl
    | waiting => exact absurd hactivity hwaiting

theorem SessionRecord.project_concat (record : SessionRecord) (log : List CoreAgentEntry)
    (entry : CoreAgentEntry) :
    record.project (log ++ [entry]) = applyLifecycleProjection (record.project log) entry :=
  List.foldl_concat ..

end Lightspeed.Harness
