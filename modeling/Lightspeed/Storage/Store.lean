import Lightspeed.Harness.ForkPoint
import Lightspeed.Harness.Store
import Lightspeed.Lib.Machine

/-!
# The store of session logs

`InMemorySessionStore` of `storage/session.rs`. A session's record says how far its log goes, and where the
log branched off when the session is a fork: a fork keeps only what it appended itself, under the numbers
that follow the branch point, and reads the rest out of its source. Sessions are made afresh, as clones with
events of their own, or as forks. A session that never opened is discarded, and closed sessions are deleted
together with what descends from them.

Whether a typed walk of an event sees every reference in it (`check_typed_walk_sees_every_ref`) is a parameter
of what is appended.
-/

namespace Lightspeed.Storage

open Lib Harness

/-! ## Records -/

/-- `SubagentLimits` of `components/config.rs`, as far as a store checks them. -/
structure SubagentLimits where
  maxDepth : Nat
  maxConcurrent : Nat

/-- `SessionOrigin`, as far as a store reads it. -/
structure SessionOrigin where
  parentSessionId : SessionId
  rootSessionId : SessionId
  depth : Nat
  limits : SubagentLimits

/-- `SessionRecord`, with what a catalog keeps beside the lifecycle. -/
structure SessionRecord extends Harness.SessionRecord where
  displayName : Option String := none
  metadata : OrdMap String String := .empty
  origin : Option SessionOrigin := none

/-- `SessionCheckpoint`. -/
structure SessionCheckpoint where
  sessionId : SessionId
  throughSeq : EventSeq
  formatVersion : Nat
  stateRef : BlobRef
  lineageSourceSessionId : Option SessionId
  lineageSourceSeq : Option EventSeq
  byteLen : Nat
  createdAtMs : Nat

/-- `InMemorySessionStoreInner`. -/
structure Store where
  records : OrdMap SessionId SessionRecord := .empty
  entries : OrdMap SessionId (List CoreAgentEntry) := .empty
  checkpoints : OrdMap SessionId SessionCheckpoint := .empty

/-- `SessionOriginLimit`. -/
inductive SessionOriginLimit where
  | maxDepth
  | maxConcurrent
  deriving DecidableEq

/-- `SessionStoreError`. The last one stands for a recursion deeper than the store has sessions. -/
inductive SessionStoreError where
  | sessionAlreadyExists (sessionId : SessionId)
  | sessionNotFound (sessionId : SessionId)
  | expectedHeadMismatch (sessionId : SessionId) (expected actual : Option EventSeq)
  | invalidLimit (limit : Nat)
  | invalidRetention (message : String)
  | invalidForkPoint (sessionId : SessionId) (sourceSeq : EventSeq) (message : String)
  | originLimitExceeded (rootSessionId : SessionId) (limit : SessionOriginLimit) (max actual : Nat)
  | sessionNotClosed (sessionId : SessionId) (lifecycleStatus : SessionLifecycleStatus)
  | sessionHasChildren (sessionId : SessionId)
  | sessionRetentionOwnedBy (sessionId retentionRootSessionId : SessionId)
  | sessionRetentionNotDue (sessionId : SessionId)
  | sessionTreeNotClosed (sessionId : SessionId) (lifecycleStatus : SessionLifecycleStatus)
  | lifecycleControlledSessionCannotBranch (sessionId : SessionId)
  | dataRejected (event : CoreAgentEvent)
  | recursion (sessionId : SessionId)
  deriving DecidableEq

abbrev Stored (α : Type) := Except SessionStoreError α

namespace Store

variable (store : Store)

/-- The record of a session, or the error of a session that is not there. -/
def record (sessionId : SessionId) : Stored SessionRecord :=
  orError (store.records.get? sessionId) (.sessionNotFound sessionId)

/-! ## Effective logs -/

/-- `effective_head_u64`. -/
def effectiveHead (sessionId : SessionId) : Stored EventSeq := do
  let record ← store.record sessionId
  .ok (record.head.getD 0)

/-- `local_entries_up_to`. -/
def localEntriesUpTo (sessionId : SessionId) (after maxSeq : EventSeq) : Stored (List CoreAgentEntry) := do
  let entries ← orError (store.entries.get? sessionId) (.sessionNotFound sessionId)
  .ok (entries.filter fun entry => after < entry.seq ∧ entry.seq ≤ maxSeq)

/-- `effective_entries_up_to`, with a bound on how deep it goes. -/
def effectiveEntriesUpTo : Nat → SessionId → EventSeq → Stored (List CoreAgentEntry)
  | 0, sessionId, _ => .error (.recursion sessionId)
  | depth + 1, sessionId, maxSeq => do
    let record ← store.record sessionId
    match record.sourceSessionId, record.sourceSeq with
    | some sourceSessionId, some branchSeq =>
      if maxSeq ≤ branchSeq then effectiveEntriesUpTo depth sourceSessionId maxSeq
      else do
        let inherited ← effectiveEntriesUpTo depth sourceSessionId branchSeq
        let own ← store.localEntriesUpTo sessionId branchSeq maxSeq
        .ok (inherited ++ own)
    | _, _ => store.localEntriesUpTo sessionId 0 maxSeq

/-- `effective_entries`. A walk that finds each ancestor once ends at the last one, or at one that is not
there. -/
def effectiveEntries (sessionId : SessionId) : Stored (List CoreAgentEntry) := do
  let head ← store.effectiveHead sessionId
  store.effectiveEntriesUpTo (store.records.entries.length + 1) sessionId head

end Store

/-! ## Appending -/

/-- `UncommittedStoredEvent`. -/
structure UncommittedStoredEvent where
  observedAtMs : Nat
  joins : CoreAgentJoins := {}
  event : CoreAgentEvent

/-- The entry that an event becomes at the next position of a record. -/
def UncommittedStoredEvent.commit (event : UncommittedStoredEvent) (record : SessionRecord) :
    CoreAgentEntry where
  seq := record.head.elim 1 (· + 1)
  observedAtMs := event.observedAtMs
  joins := event.joins
  event := event.event

/-- The record after an entry. -/
def SessionRecord.advance (record : SessionRecord) (entry : CoreAgentEntry) : SessionRecord :=
  let projected := applyLifecycleProjection record.toSessionRecord entry
  { record with
    toSessionRecord := { projected with head := some entry.seq, updatedAtMs := entry.observedAtMs } }

/-- `commit_uncommitted_events`: the record at the end, and the entries. -/
def commitUncommittedEvents (record : SessionRecord) :
    List UncommittedStoredEvent → SessionRecord × List CoreAgentEntry
  | [] => (record, [])
  | event :: events =>
    let entry := event.commit record
    let (record, entries) := commitUncommittedEvents (record.advance entry) events
    (record, entry :: entries)

/-- `check_typed_walk_sees_every_ref` of each event. -/
def checkTypedWalks (walks : CoreAgentEvent → Bool) (events : List UncommittedStoredEvent) : Stored Unit :=
  events.forM fun event => require (walks event.event) (.dataRejected event.event)

/-- `AppendSessionEvents`. -/
structure AppendSessionEvents where
  sessionId : SessionId
  expectedHead : Option EventSeq
  events : List UncommittedStoredEvent

namespace Store

variable (walks : CoreAgentEvent → Bool) (store : Store)

/-- `append`, with the entries that it committed. -/
def append (request : AppendSessionEvents) : Stored (Store × List CoreAgentEntry) := do
  let record ← store.record request.sessionId
  require (request.expectedHead = record.head)
    (.expectedHeadMismatch request.sessionId request.expectedHead record.head)
  checkTypedWalks walks request.events
  let (record, committed) := commitUncommittedEvents record request.events
  let entries ← orError (store.entries.get? request.sessionId) (.sessionNotFound request.sessionId)
  .ok ({ store with
    records := store.records.insert request.sessionId record
    entries := store.entries.insert request.sessionId (entries ++ committed) }, committed)

end Store

/-! ## New sessions -/

/-- `CreateSession`. -/
structure CreateSession where
  sessionId : SessionId
  displayName : Option String := none
  metadata : OrdMap String String := .empty
  origin : Option SessionOrigin := none
  deleteAfterCloseMs : Option Nat := none
  createdAtMs : Nat

/-- `CreateClonedSession`. -/
structure CreateClonedSession where
  sourceSessionId : SessionId
  sessionId : SessionId
  createdAtMs : Nat
  openingEvents : List UncommittedStoredEvent := []

/-- `CreateForkedSession`. -/
structure CreateForkedSession where
  sourceSessionId : SessionId
  sessionId : SessionId
  sourceSeq : EventSeq
  createdAtMs : Nat

/-- `check_origin_limits`. -/
def checkOriginLimits (origin : SessionOrigin) (openDescendants : Nat) : Stored Unit := do
  require (origin.depth ≤ origin.limits.maxDepth)
    (.originLimitExceeded origin.rootSessionId .maxDepth origin.limits.maxDepth origin.depth)
  require (openDescendants < origin.limits.maxConcurrent)
    (.originLimitExceeded origin.rootSessionId .maxConcurrent origin.limits.maxConcurrent openDescendants)

/-- `validate_fork_point`. -/
def validateForkPoint (sessionId : SessionId) (sourceSeq : EventSeq) (entries : List CoreAgentEntry)
    (head : EventSeq) : Stored Unit := do
  require (sourceSeq ≤ head)
    (.invalidForkPoint sessionId sourceSeq s!"source seq is beyond session head {head}")
  (coreRunRanges entries).values.forM fun range =>
    let endExclusive := range.terminalSeq.getD (head + 1)
    let runId := range.runId
    let firstSeq := range.firstSeq
    let stop := range.terminalSeq.elim "head" toString
    require (¬ (range.firstSeq ≤ sourceSeq ∧ sourceSeq < endExclusive))
      (.invalidForkPoint sessionId sourceSeq
        s!"seq is inside non-terminal run {runId} ({firstSeq}..{stop})")

/-- `lifecycle_at_fork`. -/
def lifecycleAtFork (source : SessionRecord) (sourceSeq : EventSeq) :
    SessionLifecycleStatus × Option EventSeq :=
  if sourceSeq = 0 then (.new, none)
  else
    match source.closedAtSeq with
    | some closedAtSeq => if closedAtSeq ≤ sourceSeq then (.closed, some closedAtSeq) else (.open, none)
    | none => (.open, none)

/-- `position_from_nonzero_seq`. -/
def positionFromNonzeroSeq (seq : EventSeq) : Option EventSeq := if 0 < seq then some seq else none

namespace Store

variable (walks : CoreAgentEvent → Bool) (store : Store)

/-- The store with a new session. -/
def insertSession (record : SessionRecord) (entries : List CoreAgentEntry) : Store :=
  { store with
    records := store.records.insert record.sessionId record
    entries := store.entries.insert record.sessionId entries }

/-- `in_memory_open_descendants`. -/
def openDescendants (rootSessionId : SessionId) : Nat :=
  (store.records.values.filter fun record =>
    record.origin.any (fun origin => origin.rootSessionId = rootSessionId) &&
      record.lifecycleStatus != .closed).length

/-- The checks of the origin of a new session. -/
def checkOrigin (request : CreateSession) (origin : SessionOrigin) : Stored Unit := do
  require (request.deleteAfterCloseMs = none)
    (.sessionRetentionOwnedBy request.sessionId origin.rootSessionId)
  [origin.parentSessionId, origin.rootSessionId].forM fun sessionId =>
    require (store.records.contains sessionId) (.sessionNotFound sessionId)
  checkOriginLimits origin (store.openDescendants origin.rootSessionId)

/-- `create_session`. -/
def createSession (request : CreateSession) : Stored (Store × SessionRecord) := do
  require (¬ store.records.contains request.sessionId) (.sessionAlreadyExists request.sessionId)
  require (request.deleteAfterCloseMs ≠ some 0) (.invalidRetention "deleteAfterCloseMs must be positive")
  match request.origin with
  | some origin => store.checkOrigin request origin
  | none => .ok ()
  let parent := request.origin.bind fun origin => store.records.get? origin.parentSessionId
  let record : SessionRecord :=
    { sessionId := request.sessionId
      displayName := request.displayName
      metadata := request.metadata
      retentionRootSessionId := parent.elim request.sessionId fun parent => parent.retentionRootSessionId
      deleteAfterCloseMs := request.deleteAfterCloseMs
      origin := request.origin
      createdAtMs := request.createdAtMs
      updatedAtMs := request.createdAtMs }
  .ok (store.insertSession record [], record)

/-- What a clone and a fork ask of the source and of the new id. -/
def checkBranch (sourceSessionId sessionId : SessionId) : Stored SessionRecord := do
  let source ← store.record sourceSessionId
  require (¬ source.lifecycleControlled) (.lifecycleControlledSessionCannotBranch sourceSessionId)
  require (¬ store.records.contains sessionId) (.sessionAlreadyExists sessionId)
  .ok source

/-- `create_cloned_session`. -/
def createClonedSession (request : CreateClonedSession) : Stored (Store × SessionRecord) := do
  let _ ← store.checkBranch request.sourceSessionId request.sessionId
  let record : SessionRecord :=
    { sessionId := request.sessionId
      retentionRootSessionId := request.sessionId
      sourceSessionId := some request.sourceSessionId
      createdAtMs := request.createdAtMs
      updatedAtMs := request.createdAtMs }
  checkTypedWalks walks request.openingEvents
  let (record, committed) := commitUncommittedEvents record request.openingEvents
  .ok (store.insertSession record committed, record)

/-- `create_forked_session`. -/
def createForkedSession (request : CreateForkedSession) : Stored (Store × SessionRecord) := do
  let source ← store.checkBranch request.sourceSessionId request.sessionId
  let entries ← store.effectiveEntries request.sourceSessionId
  let head ← store.effectiveHead request.sourceSessionId
  validateForkPoint request.sourceSessionId request.sourceSeq entries head
  let (lifecycleStatus, closedAtSeq) := lifecycleAtFork source request.sourceSeq
  let record : SessionRecord :=
    { sessionId := request.sessionId
      lifecycleStatus
      closedAtSeq
      closedAtMs := closedAtSeq.bind fun _ => source.closedAtMs
      retentionRootSessionId := source.retentionRootSessionId
      head := positionFromNonzeroSeq request.sourceSeq
      sourceSessionId := some request.sourceSessionId
      sourceSeq := some request.sourceSeq
      createdAtMs := request.createdAtMs
      updatedAtMs := request.createdAtMs }
  .ok (store.insertSession record [], record)

/-! ## Other changes of a session -/

/-- A change of one session's record. -/
def modifyRecord (sessionId : SessionId) (change : SessionRecord → SessionRecord) :
    Stored (Store × SessionRecord) := do
  let record ← store.record sessionId
  .ok ({ store with records := store.records.insert sessionId (change record) }, change record)

/-- `set_session_display_name`. -/
def setSessionDisplayName (sessionId : SessionId) (displayName : Option String) :
    Stored (Store × SessionRecord) :=
  store.modifyRecord sessionId fun record => { record with displayName }

/-- `set_session_metadata`. -/
def setSessionMetadata (sessionId : SessionId) (metadata : OrdMap String String) :
    Stored (Store × SessionRecord) :=
  store.modifyRecord sessionId fun record => { record with metadata }

/-- `set_session_retention`. -/
def setSessionRetention (sessionId : SessionId) (deleteAfterCloseMs : Option Nat) :
    Stored (Store × SessionRecord) := do
  require (deleteAfterCloseMs ≠ some 0) (.invalidRetention "deleteAfterCloseMs must be positive")
  let record ← store.record sessionId
  require (record.retentionRootSessionId = sessionId)
    (.sessionRetentionOwnedBy sessionId record.retentionRootSessionId)
  store.modifyRecord sessionId fun record =>
    { record with
      toSessionRecord := refreshDeleteAt { record.toSessionRecord with deleteAfterCloseMs } }

/-- `load_checkpoint`. -/
def loadCheckpoint (sessionId : SessionId) : Stored (Option SessionCheckpoint) := do
  let _ ← store.record sessionId
  .ok (store.checkpoints.get? sessionId)

end Store

/-! ## Checkpoints -/

/-- Whether a stored pointer keeps a new one out. -/
def SessionCheckpoint.bars (current new : SessionCheckpoint) : Bool :=
  new.throughSeq < current.throughSeq ||
    (current.throughSeq == new.throughSeq && current.formatVersion == new.formatVersion)

/-- `advance_checkpoint`, with whether the pointer moved. -/
def Store.advanceCheckpoint (store : Store) (checkpoint : SessionCheckpoint) : Stored (Store × Bool) := do
  let _ ← store.record checkpoint.sessionId
  if (store.checkpoints.get? checkpoint.sessionId).any (·.bars checkpoint) then .ok (store, false)
  else
    .ok ({ store with checkpoints := store.checkpoints.insert checkpoint.sessionId checkpoint }, true)

/-! ## Removal -/

/-- Whether a session reads a part of its log out of another one. -/
def SessionRecord.forksFrom (record : SessionRecord) (sourceSessionId : SessionId) : Bool :=
  record.sourceSeq.isSome && record.sourceSessionId == some sourceSessionId

/-- A session that was delegated by another one, or forked from it. -/
def SessionRecord.childOf (record : SessionRecord) (sessionId : SessionId) : Bool :=
  record.origin.any (fun origin => origin.parentSessionId = sessionId) || record.forksFrom sessionId

/-- The children that were not discovered before, on the stack and among the descendants. -/
def discover (pending descendants : List SessionId) : List SessionId → List SessionId × List SessionId
  | [] => (pending, descendants)
  | child :: rest =>
    if child ∈ descendants then discover pending descendants rest
    else discover (child :: pending) (descendants ++ [child]) rest

/-- `DeleteClosedSessions`. -/
structure DeleteClosedSessions where
  sessionId : SessionId
  cascade : Bool
  dueAtOrBeforeMs : Option Nat := none

/-- `DeleteClosedSessionsResult`. -/
structure DeleteClosedSessionsResult where
  target : SessionRecord
  deletedSessionIds : List SessionId

namespace Store

variable (walks : CoreAgentEvent → Bool) (store : Store)

/-- The children of a session, in the order of their ids. -/
def children (sessionId : SessionId) : List SessionId :=
  (store.records.entries.filter fun entry => entry.2.childOf sessionId).map fun entry => entry.1

/-- The loop of `in_memory_retention_descendants`; the last session that was found is on top. -/
def descend : Nat → List SessionId → List SessionId → List SessionId
  | 0, _, descendants => descendants
  | _ + 1, [], descendants => descendants
  | steps + 1, parent :: pending, descendants =>
    let (pending, descendants) := discover pending descendants (store.children parent)
    descend steps pending descendants

/-- `in_memory_retention_descendants`: each session is on the stack once. -/
def retentionDescendants (sessionId : SessionId) : List SessionId :=
  (store.descend (store.records.entries.length + 2) [sessionId] []).reverse

/-- `discard_unopened_session`, with whether a session went. -/
def discardUnopenedSession (sessionId : SessionId) : Store × Bool :=
  let unopened := (store.records.get? sessionId).any fun record =>
    record.lifecycleStatus = .new ∧ record.head = none
  if unopened then
    ({ store with
      records := store.records.erase sessionId
      entries := store.entries.erase sessionId }, true)
  else (store, false)

/-- The store without some sessions, which are no longer the source of any other. -/
def removeSessions (sessionIds : List SessionId) : Store where
  records := (store.records.filter fun id _ => id ∉ sessionIds).mapValues fun _ record =>
    if record.sourceSessionId.any (· ∈ sessionIds) then
      { record with toSessionRecord := { record.toSessionRecord with sourceSessionId := none } }
    else record
  entries := store.entries.filter fun id _ => id ∉ sessionIds
  checkpoints := store.checkpoints.filter fun id _ => id ∉ sessionIds

/-- `delete_closed_sessions`. -/
def deleteClosedSessions (request : DeleteClosedSessions) : Stored (Store × DeleteClosedSessionsResult) := do
  let record ← store.record request.sessionId
  require (record.lifecycleStatus = .closed) (.sessionNotClosed request.sessionId record.lifecycleStatus)
  match request.dueAtOrBeforeMs with
  | some nowMs =>
    require (record.retentionRootSessionId = record.sessionId ∧ record.deleteAtMs.any (· ≤ nowMs))
      (.sessionRetentionNotDue record.sessionId)
  | none => .ok ()
  let descendants := store.retentionDescendants request.sessionId
  require (request.cascade ∨ descendants = []) (.sessionHasChildren request.sessionId)
  let deletedSessionIds := (if request.cascade then descendants else []) ++ [record.sessionId]
  deletedSessionIds.forM fun sessionId => do
    let candidate ← store.record sessionId
    require (candidate.lifecycleStatus = .closed) (.sessionTreeNotClosed sessionId candidate.lifecycleStatus)
  .ok (store.removeSessions deletedSessionIds, ⟨record, deletedSessionIds⟩)

end Store

/-! ## The store at work -/

/-- The calls that change a store. -/
inductive StoreCall where
  | createSession (request : CreateSession)
  | createClonedSession (request : CreateClonedSession)
  | createForkedSession (request : CreateForkedSession)
  | append (request : AppendSessionEvents)
  | setSessionDisplayName (sessionId : SessionId) (displayName : Option String)
  | setSessionMetadata (sessionId : SessionId) (metadata : OrdMap String String)
  | setSessionRetention (sessionId : SessionId) (deleteAfterCloseMs : Option Nat)
  | discardUnopenedSession (sessionId : SessionId)
  | deleteClosedSessions (request : DeleteClosedSessions)
  | advanceCheckpoint (checkpoint : SessionCheckpoint)

/-- The store after a call. A call that fails leaves it as it was. -/
def Store.call (walks : CoreAgentEvent → Bool) (store : Store) : StoreCall → Stored Store
  | .createSession request => (store.createSession request).map Prod.fst
  | .createClonedSession request => (store.createClonedSession walks request).map Prod.fst
  | .createForkedSession request => (store.createForkedSession request).map Prod.fst
  | .append request => (store.append walks request).map Prod.fst
  | .setSessionDisplayName sessionId name => (store.setSessionDisplayName sessionId name).map Prod.fst
  | .setSessionMetadata sessionId metadata => (store.setSessionMetadata sessionId metadata).map Prod.fst
  | .setSessionRetention sessionId duration => (store.setSessionRetention sessionId duration).map Prod.fst
  | .discardUnopenedSession sessionId => .ok (store.discardUnopenedSession sessionId).1
  | .deleteClosedSessions request => (store.deleteClosedSessions request).map Prod.fst
  | .advanceCheckpoint checkpoint => (store.advanceCheckpoint checkpoint).map Prod.fst

/-- A store that starts empty. -/
def sessionStore (walks : CoreAgentEvent → Bool) : Machine Store StoreCall where
  init := (· = {})
  step store call := (store.call walks call).toOption

end Lightspeed.Storage
