import Lightspeed.Harness.Planned

/-!
# What the drive proposes

`Proposed sessionId s input proposals` lists, once, every form of the proposals that an input is answered
with, each with what was checked for it. `inputProposals_cases` says that no entry point of the drive
proposes anything else. Invariants read the forms and never the entry points.
-/

namespace Lightspeed.Harness

open Lib

/-! ## Kinds of events -/

/-- Events that touch no run, turn, batch or context, and mint or reserve no promise. -/
def CoreAgentEvent.isQuiet : CoreAgentEvent → Bool
  | .lifecycle (.opened _) | .lifecycle (.configChanged _ _) | .environment _
  | .promise (.resolved _ _) | .promise (.failed _ _) | .promise (.cancelled _)
  | .promise (.detached _) | .workflowToolConfig _ | .workflowTool (.deliveryFailed _ _)
  | .workflowTool (.startFailed _ _) | .codeTool (.scopeOpened _) | .codeTool (.callCompleted _ _)
  | .codeTool (.callDeferred _ _) | .codeTool (.scopeClosed _) => true
  | _ => false

/-- The limit that an event sets, if it sets one, lets a turn start. -/
def CoreAgentEvent.AllowsTurns : CoreAgentEvent → Prop
  | .lifecycle (.opened config) | .lifecycle (.configChanged config _) =>
    config.limits.maxTurns ≠ some 0
  | .run (.accepted accepted) => accepted.runConfig.maxTurns ≠ some 0
  | _ => True

/-- Whether a run may be given an entry of this kind as input or steering. -/
def ContextEntryKind.isSupplied : ContextEntryKind → Bool
  | .message .user | .providerOpaque => true
  | _ => false

/-- The submission ids that the session still knows. -/
def RunsState.submissionIds (runs : RunsState) : List SubmissionId :=
  runs.active.toList.filterMap ActiveRun.submissionId ++
    runs.queued.filterMap AcceptedRun.submissionId ++ runs.finished.filterMap RunRecord.submissionId

/-- A context edit that an external caller may make. -/
inductive ContextEdit (s : CoreAgentState) : ContextEvent → Prop
  | apply {key : ContextEntryKey} {input : ContextEntryInput}
      (hedit : validateExternalContextEdit key input = .ok ()) :
      ContextEdit s (.entriesApplied s.context.revision
        (contextEntriesFromInputs s [(some key, .contextEdit, input)]))
  | replacePrefix {keyPrefix : ContextEntryKey}
      {entries : OrdMap ContextEntryKey ContextEntryInput}
      (hedit : validateExternalContextPrefixReplacement keyPrefix entries = .ok ()) :
      ContextEdit s (.keyPrefixReplaced s.context.revision keyPrefix
        (contextEntriesFromInputs s
          (entries.entries.map (fun (key, entry) => (some key, .contextEdit, entry)))))
  | remove {key : ContextEntryKey} (hkey : validateExternalContextKey key = .ok ()) :
      ContextEdit s (.keysRemoved s.context.revision [key])
  | replace {entries : List ContextEntry}
      (hkeeps : ∀ entry ∈ entries, ∀ active, entryById s entry.entryId = some active →
        entry.supersedes = active.supersedes) :
      ContextEdit s (.entriesReplaced s.context.revision entries)

/-- The proposals of a generation's result. -/
def generationProposals (s : CoreAgentState) (result : LlmGenerationResult)
    (entries : List ContextEntry) (requests : List ObservedApprovalRequest) :
    List CoreAgentEventProposal :=
  let propose := turnProposal result.runId result.turnId
  (if entries = [] then [] else [propose (.context (.entriesApplied s.context.revision entries))]) ++
    [propose (.turn (.generationCompleted result.turnId result.runId result.status result.facts))] ++
    (approvalRequestsAfter result.runId s.idCursors.lastApprovalId requests).map
      (fun approval => propose (.approval (.requested approval))) ++
    [propose (.turn (.completed result.turnId (turnOutcomeForGenerationResult result)))]

/-- The forms of the proposals that an input is answered with. -/
inductive Proposed (sessionId : SessionId) (s : CoreAgentState) :
    DriveInput → List CoreAgentEventProposal → Prop
  /-- Nothing that a run could notice. -/
  | quiet {input : DriveInput} {proposals : List CoreAgentEventProposal}
      (hquiet : ∀ proposal ∈ proposals, proposal.event.isQuiet = true ∧ proposal.event.AllowsTurns) :
      Proposed sessionId s input proposals
  | plan {proposals : List CoreAgentEventProposal} (hplan : Planned s proposals) :
      Proposed sessionId s .nextAction proposals
  | accept {request : RunRequestCommand} {accepted : AcceptedRunEvent}
      (hpending : s.context.compaction.isPending = false)
      (hid : accepted.runId = s.idCursors.lastRunId + 1)
      (hfresh : ∀ id, accepted.submissionId = some id → id ∉ s.runs.submissionIds)
      (hkinds : ∀ input ∈ accepted.source.input, input.kind.isSupplied = true)
      (hlimit : accepted.runConfig.maxTurns ≠ some 0) :
      Proposed sessionId s (.admitCommand (.requestRun request))
        [{ joins := { runId := some accepted.runId, submissionId := accepted.submissionId }
           event := .run (.accepted accepted) }]
  | steer {run : ActiveRun} {submissionId : SubmissionId} {input : List ContextEntryInput}
      (hactive : s.runs.active = some run)
      (hkinds : ∀ entry ∈ input, entry.kind.isSupplied = true) :
      Proposed sessionId s (.admitCommand (.requestRunSteering run.runId submissionId input))
        [runProposal run.runId (.run (.steeringAccepted run.runId (s.idCursors.lastSteeringId + 1)
          submissionId input))]
  | cancelRun {run : ActiveRun} (hactive : s.runs.active = some run)
      (hstatus : run.status.acceptsInput = true) :
      Proposed sessionId s (.admitCommand (.cancelRun run.runId))
        (runProposal run.runId (.run (.cancellationRequested run.runId)) ::
          pendingApprovalCancellations run)
  | cancelQueued {runId : RunId} :
      Proposed sessionId s (.admitCommand (.cancelRun runId))
        [runProposal runId (.run (.queuedCancelled runId))]
  | decide {command : DecideApprovalCommand} {run : ActiveRun} {record : ApprovalRecord}
      {unparked : List CoreAgentEventProposal} (hactive : s.runs.active = some run)
      (hrun : run.runId = command.runId)
      (hrecord : run.approvals.get? command.approvalId = some record)
      (hstatus : run.status.acceptsInput = true)
      (hresponse : ∀ response ∈ command.response,
        ∃ id approve, response.kind = .mcpApprovalResponse id approve)
      (hunparked : unparked =
        if run.status = .parked ∧ run.parkedToolBatch.isNone ∧ run.pendingApprovals.length = 1 then
          [runProposal command.runId (.approval (.runUnparked command.runId))] else []) :
      Proposed sessionId s (.admitCommand (.decideApproval command))
        (runProposal command.runId
            (.approval (.decided command.approvalId command.runId command.decision command.note)) ::
          unparked ++ appliedProposals command.runId s.context.revision
            (contextEntriesFromInputs s (command.response.toList.map (fun response =>
              (none, .approvalDecision command.runId command.approvalId, response)))))
  | edit {command : CoreAgentCommand} {event : ContextEvent}
      (hpending : s.context.compaction.isPending = false) (hedit : ContextEdit s event) :
      Proposed sessionId s (.admitCommand command) [contextProposal event]
  | compact (hpending : s.context.compaction.isPending = false)
      (hqueued : s.context.compaction.isQueued = false) (hcovers : standalonePrefixIds s ≠ []) :
      Proposed sessionId s (.admitCommand .compactContext) [manualCompactionRequestedProposal s]
  | close : Proposed sessionId s (.admitCommand (.closeSession false))
      [sessionProposal (.lifecycle .closed)]
  | forceClose : Proposed sessionId s (.admitCommand (.closeSession true))
      (forceCloseProposals s ++ [sessionProposal (.lifecycle .closed)])
  | forceCancel {run : ActiveRun} {closing : List ContextEntry}
      (hactive : s.runs.active = some run)
      (hclosing : openToolGroupClosingEntries s run = .ok closing) :
      Proposed sessionId s (.admitCommand (.forceCancelRun run.runId))
        (appliedProposals run.runId s.context.revision closing ++
          [runProposal run.runId (.run (.forceCancelled run.runId))])
  | failRun {run : ActiveRun} {messageRef : BlobRef} {proposals : List CoreAgentEventProposal}
      (hactive : s.runs.active = some run)
      (hfail : failRunProposals s run messageRef = .ok proposals) :
      Proposed sessionId s (.admitCommand (.failRun run.runId messageRef)) proposals
  | unpark {command : UnparkToolBatchCommand} {run : ActiveRun} {parked : ParkedToolBatch}
      {result : ToolInvocationBatchResult} {completed : List CoreAgentEventProposal}
      {observedAtMs : Nat} (hactive : s.runs.active = some run)
      (hparked : run.parkedToolBatch = some parked) (hrun : run.runId = command.runId)
      (hbatch : parked.batchId = command.batchId)
      (hclaim : overtakenUnparkClaim s command observedAtMs = none)
      (hresult : unparkResult s run parked command = .ok result)
      (hmatches : validateResultMatchesActiveToolBatch s result true = .ok ())
      (hcompleted : toolCallCompletedProposals s (result.scope none) result.results = .ok completed) :
      Proposed sessionId s (.admitCommand (.unparkToolBatch command))
        ((abandonedPromises s command.claim parked.suspension).map
            (fun promiseId => ⟨result.joins, .promise (.cancelled promiseId)⟩) ++
          [⟨result.joins, .tool (.batchUnparked result.runId result.turnId result.batchId)⟩] ++
          completed)
  | tools {command : CoreAgentCommand} {event : ToolConfigEvent}
      (hfrozen : toolsFrozen s = false) :
      Proposed sessionId s (.admitCommand command) [sessionProposal (.toolConfig event)]
  | reserve {command : CoreAgentCommand} {joins : CoreAgentJoins} {call : CodeToolCallSpec}
      {promiseIdBase : Nat} (hvalid : validateCall s call = .ok ()) :
      Proposed sessionId s (.admitCommand command)
        [⟨joins, .codeTool (.callAdmitted call promiseIdBase)⟩]
  | generation {result : LlmGenerationResult} {run : ActiveRun} (hactive : s.runs.active = some run)
      (hrun : run.runId = result.runId) (hturn : run.activeTurnId = some result.turnId) :
      Proposed sessionId s (.resumeGeneration result)
        (generationProposals s result
          (if result.facts.finish == .contextLimit then []
            else contextEntriesFromLlmResult s result (turnOutcomeForGenerationResult result))
          (if result.facts.finish == .contextLimit then [] else result.facts.approvalRequests))
  | compacted {result : ContextCompactionResult} {plan : ContextCompactionPlan}
      (hplan : s.context.compaction.pendingPlan = some plan) (hstatus : result.status = .succeeded) :
      Proposed sessionId s (.resumeContextCompaction result)
        [sessionProposal (.context
            (.entriesRemoved s.context.revision plan.coveredEntryIds .providerCompacted)),
          sessionProposal (.context (.entriesApplied (s.context.revision + 1)
            (compactionEntries s result.contextEntries))),
          sessionProposal (.context (.compactionFinished (s.context.revision + 2) .succeeded
            result.failureRef result.usage result.calls))]
  | compactionFailed {result : ContextCompactionResult} {plan : ContextCompactionPlan}
      (hplan : s.context.compaction.pendingPlan = some plan)
      (hrun : s.runs.active = none ∨ plan.trigger ≠ .contextLimit) :
      Proposed sessionId s (.resumeContextCompaction result)
        [sessionProposal (.context (.compactionFinished s.context.revision .failed
          result.failureRef result.usage result.calls))]
  | overflowed {result : ContextCompactionResult} {plan : ContextCompactionPlan} {run : ActiveRun}
      (hplan : s.context.compaction.pendingPlan = some plan) (hstatus : result.status = .failed)
      (hactive : s.runs.active = some run) (htrigger : plan.trigger = .contextLimit) :
      Proposed sessionId s (.resumeContextCompaction result)
        (sessionProposal (.context (.compactionFinished s.context.revision .failed
            result.failureRef result.usage result.calls)) ::
          overflowFailureProposals s run (s.context.revision + 1) result.failureRef)
  | results {input : DriveInput} {result : ToolInvocationBatchResult}
      {proposals : List CoreAgentEventProposal}
      (hmatches : validateResultMatchesActiveToolBatch s result false = .ok ())
      (hproposals : toolCallCompletedProposals s (result.scope (some sessionId)) result.results =
        .ok proposals) :
      Proposed sessionId s input proposals
  | codeResults {input : DriveInput} {origin : CodeToolOrigin} {call : CodeToolCall}
      {parent : WorkflowToolInvocation} {result : ToolCallResult}
      {proposals : List CoreAgentEventProposal} (hcall : codeToolCall s origin = some call)
      (hstatus : call.status = .pending) (hparent : codeToolCallParent s origin = .ok parent)
      (hproposals : toolCallCompletedProposals s
        { sessionId := some parent.sessionId, runId := parent.runId, turnId := parent.turnId
          batchId := parent.toolBatchId, origin := some origin } [result] = .ok proposals) :
      Proposed sessionId s input proposals
  | park {input : DriveInput} {run : ActiveRun} {batchId : ToolBatchId} {batch : ActiveToolBatch}
      {callId : ToolCallId} {spec : AwaitSpec} {results : List ToolCallResult}
      {completed : List CoreAgentEventProposal} (hactive : s.runs.active = some run)
      (hid : run.activeToolBatchId = some batchId)
      (hbatch : run.toolBatches.get? batchId = some batch)
      (hmatches : validateResultMatchesActiveToolBatch s (batch.result results) false = .ok ())
      (hvalid : validateAwaitSpecForActiveRun s run.runId spec = .ok ())
      (hcompleted : toolCallCompletedProposals s ((batch.result results).scope (some sessionId))
        results = .ok completed) :
      Proposed sessionId s input (completed ++ [⟨batch.joins, .tool
        (.batchParked batch.runId batch.turnId batch.batchId (.awaitTool callId spec))⟩])
  | approve {batchId : ToolBatchId} {run : ActiveRun} {batch : ActiveToolBatch}
      {approvals : List RuntimeMcpApprovalRequest}
      {requested : List CoreAgentEventProposal} (hactive : s.runs.active = some run)
      (hid : run.activeToolBatchId = some batchId)
      (hbatch : run.toolBatches.get? batchId = some batch)
      (hrequested : ∀ proposal ∈ requested, ∃ approval,
        proposal.event = .approval (.requested approval)) :
      Proposed sessionId s (.requestRuntimeMcpApprovals batchId approvals)
        (requested ++ [⟨batch.joins, .approval (.runParked batch.runId)⟩])

/-! ## The entry points -/

variable {sessionId : SessionId} {s : CoreAgentState} {input : DriveInput}
  {proposals : List CoreAgentEventProposal} {command : CoreAgentCommand} {revision : Option Nat}
  {runId : RunId} {observedAtMs : Nat} {α : Type} {request : RunRequestCommand}
  {key : ContextEntryKey} {origin : CodeToolOrigin}

@[simp]
theorem policy_eq_ok {checked : Result α} {a : α} : policy checked = .ok a ↔ checked = .ok a := by
  cases checked <;> simp [policy]

@[simp]
theorem domain_eq_ok {checked : Result α} {a : α} : domain checked = .ok a ↔ checked = .ok a := by
  cases checked <;> simp [domain]

@[simp]
theorem driven_eq_ok {result : Result α} {a : α} : driven result = .ok a ↔ result = .ok a := by
  cases result <;> simp [driven]

/-- An answer of no events is quiet. -/
theorem Proposed.none : Proposed sessionId s input [] := .quiet (by simp)

/-- An answer of one quiet event. -/
theorem Proposed.one {proposal : CoreAgentEventProposal} (h : proposal.event.isQuiet = true)
    (hlimit : proposal.event.AllowsTurns) : Proposed sessionId s input [proposal] :=
  .quiet (by simpa using ⟨h, hlimit⟩)

theorem validateMaxTurns_eq_ok {maxTurns : Option Nat} :
    validateMaxTurns maxTurns = .ok () ↔ maxTurns ≠ some 0 := by
  simp [validateMaxTurns]

theorem allowsTurns_of_validate {config : SessionConfig} (h : config.validate = .ok ()) :
    config.limits.maxTurns ≠ some 0 := by
  simp only [SessionConfig.validate, bind_eq_ok, exists_unit] at h
  exact validateMaxTurns_eq_ok.mp h.1

theorem openedEvent_eq_ok {config : SessionConfig} {opened : CoreAgentEventProposal}
    (h : openedEvent s config = .ok opened) :
    opened.event.isQuiet = true ∧ opened.event.AllowsTurns := by
  simp only [openedEvent, bind_eq_ok, require_eq_ok, policy_eq_ok, exists_unit,
    Except.ok.injEq] at h
  obtain ⟨-, hvalid, rfl⟩ := h
  exact ⟨rfl, allowsTurns_of_validate hvalid⟩

theorem admitSystemWorkflowTool_cases {universeId : String} {declaration : WorkflowToolDeclaration}
    (h : admitSystemWorkflowTool s universeId declaration = .ok proposals) :
    Proposed sessionId s input proposals := by
  simp only [admitSystemWorkflowTool, bind_eq_ok, policy_eq_ok] at h
  obtain ⟨_, -, binding, -, h⟩ := h
  split at h
  · simp only [bind_eq_ok, require_eq_ok, exists_unit, Except.ok.injEq] at h
    obtain ⟨-, rfl⟩ := h
    exact .none
  · split at h
    · cases h
    · cases h
      exact .one rfl trivial

theorem replaceSessionConfig_cases {config : SessionConfig}
    (h : replaceSessionConfig s revision config = .ok proposals) :
    Proposed sessionId s input proposals := by
  simp only [replaceSessionConfig, bind_eq_ok, require_eq_ok, policy_eq_ok, domain_eq_ok,
    exists_unit, validateConfigUpdateForState] at h
  obtain ⟨-, -, -, current, -, ⟨-, hvalid⟩, h⟩ := h
  split_ifs at h
  · cases h
    exact .none
  · cases h
    refine .quiet fun proposal hproposal => ?_
    simp only [environmentEvents, List.mem_cons, List.mem_append, List.mem_map] at hproposal
    rcases hproposal with rfl | hclear | ⟨_, -, rfl⟩
    · exact ⟨rfl, allowsTurns_of_validate hvalid⟩
    · split_ifs at hclear
      · rw [List.mem_singleton.mp hclear]
        exact ⟨rfl, trivial⟩
      · cases hclear
    · exact ⟨rfl, trivial⟩

theorem closeSession_cases {force : Bool} (h : closeSession s force = .ok proposals) :
    Proposed sessionId s (.admitCommand (.closeSession force)) proposals := by
  unfold closeSession at h
  by_cases hclosed : force ∧ s.lifecycle.status = .closed
  · rw [if_pos hclosed] at h
    cases h
    exact .none
  · rw [if_neg hclosed] at h
    simp only [bind_eq_ok, require_eq_ok, exists_unit, Except.ok.injEq] at h
    obtain ⟨-, -, rfl⟩ := h
    cases force with
    | false => exact .close
    | true => exact .forceClose

/-- A submission that matches no run the session still knows is fresh. -/
theorem matchExistingRunSubmission_eq_none {id : SubmissionId}
    (h : matchExistingRunSubmission s id request = .none) : id ∉ s.runs.submissionIds := by
  simp only [matchExistingRunSubmission, Option.or_eq_none_iff, Option.map_eq_none_iff,
    Option.filter_eq_none_iff, List.find?_eq_none, beq_iff_eq] at h
  obtain ⟨hactive, hqueued, hfinished⟩ := h
  simp only [RunsState.submissionIds, List.mem_append, List.mem_filterMap, Option.mem_toList, not_or,
    not_exists, not_and]
  exact ⟨⟨hactive, hqueued⟩, hfinished⟩

theorem validateRunSuppliedEntries_eq_ok {source : String} {entries : List ContextEntryInput}
    (h : validateRunSuppliedEntries source entries = .ok ()) :
    ∀ entry ∈ entries, entry.kind.isSupplied = true := by
  intro entry hentry
  have hkind := require_eq_ok.mp (forM_eq_ok.mp h entry hentry)
  rcases hkind with hkind | hkind <;> rw [hkind] <;> rfl

theorem acceptRun_cases (hfresh : ∀ id, request.submissionId = some id → id ∉ s.runs.submissionIds)
    (h : acceptRun s request = .ok proposals) :
    Proposed sessionId s (.admitCommand (.requestRun request)) proposals := by
  simp only [acceptRun, requireNoPendingCompaction, validateRunConfigForState, bind_eq_ok, require_eq_ok,
    policy_eq_ok, exists_unit, Except.ok.injEq, Bool.not_eq_true] at h
  obtain ⟨-, hpending, ⟨hlimit, -⟩, -, -, hkinds, rfl⟩ := h
  have hkinds := validateRunSuppliedEntries_eq_ok hkinds
  let accepted : AcceptedRunEvent :=
    { runId := s.idCursors.lastRunId + 1
      submissionId := request.submissionId
      source := request.source
      runConfig := request.runConfig
      inputLimitTokens := request.inputLimitTokens
      configRevision := s.lifecycle.configRevision
      notifyOnTerminal := request.notifyOnTerminal }
  have haccept : Proposed sessionId s (.admitCommand (.requestRun request))
      [{ joins := { runId := some accepted.runId, submissionId := accepted.submissionId }
         event := .run (.accepted accepted) }] := .accept hpending rfl hfresh hkinds
      (validateMaxTurns_eq_ok.mp hlimit)
  exact haccept

theorem requestRun_cases (h : requestRun s request = .ok proposals) :
    Proposed sessionId s (.admitCommand (.requestRun request)) proposals := by
  unfold requestRun at h
  split at h
  next hid => exact acceptRun_cases (by simp [hid]) h
  next id hid =>
    split at h
    · cases h
      exact .none
    · cases h
    next hmatch =>
      refine acceptRun_cases (fun id' hid' => ?_) h
      obtain rfl : id = id' := Option.mem_unique hid hid'
      exact matchExistingRunSubmission_eq_none hmatch

theorem requestRunSteering_cases {submissionId : SubmissionId} {entries : List ContextEntryInput}
    (h : requestRunSteering s runId submissionId entries = .ok proposals) :
    Proposed sessionId s (.admitCommand (.requestRunSteering runId submissionId entries))
      proposals := by
  simp only [requestRunSteering, activeRunForCommand, bind_eq_ok, require_eq_ok, orError_eq_ok,
    exists_unit, Except.ok.injEq] at h
  obtain ⟨-, run, ⟨_, hactive, -, rfl⟩, rfl, h⟩ := h
  split at h
  · simp only [bind_eq_ok, require_eq_ok, exists_unit, Except.ok.injEq] at h
    obtain ⟨-, rfl⟩ := h
    exact .none
  · simp only [bind_eq_ok, policy_eq_ok, exists_unit, Except.ok.injEq] at h
    obtain ⟨hkinds, rfl⟩ := h
    exact .steer hactive (validateRunSuppliedEntries_eq_ok hkinds)

/-- The active run, when it has this id. -/
theorem active_filter_eq_some {run : ActiveRun} :
    s.runs.active.filter (fun run => run.runId == runId) = some run ↔
      s.runs.active = some run ∧ run.runId = runId := by
  simp [Option.filter_eq_some_iff]

theorem cancelRun_cases (h : cancelRun s runId = .ok proposals) :
    Proposed sessionId s (.admitCommand (.cancelRun runId)) proposals := by
  simp only [cancelRun, bind_eq_ok, exists_unit] at h
  obtain ⟨-, h⟩ := h
  split at h
  next run hrun =>
    obtain ⟨hactive, rfl⟩ := active_filter_eq_some.mp hrun
    split_ifs at h with hstatus
    · cases h
      exact .cancelRun hactive hstatus
    · cases h
      exact .none
  · split_ifs at h
    · cases h
      exact .cancelQueued
    · cases h
      exact .none

theorem forceCancelRun_cases (h : forceCancelRun s runId = .ok proposals) :
    Proposed sessionId s (.admitCommand (.forceCancelRun runId)) proposals := by
  simp only [forceCancelRun, bind_eq_ok, exists_unit] at h
  obtain ⟨-, h⟩ := h
  split at h
  · cases h
    exact .none
  next run hrun =>
    obtain ⟨hactive, rfl⟩ := active_filter_eq_some.mp hrun
    simp only [bind_eq_ok, domain_eq_ok, Except.ok.injEq] at h
    obtain ⟨closing, hclosing, rfl⟩ := h
    exact .forceCancel hactive hclosing

theorem failRun_cases {messageRef : BlobRef} (h : failRun s runId messageRef = .ok proposals) :
    Proposed sessionId s (.admitCommand (.failRun runId messageRef)) proposals := by
  simp only [failRun, bind_eq_ok, exists_unit] at h
  obtain ⟨-, h⟩ := h
  split at h
  · cases h
    exact .none
  next run hrun =>
    obtain ⟨hactive, rfl⟩ := active_filter_eq_some.mp hrun
    exact .failRun hactive (domain_eq_ok.mp h)

theorem decideApproval_cases {command : DecideApprovalCommand}
    (h : decideApproval s command = .ok proposals) :
    Proposed sessionId s (.admitCommand (.decideApproval command)) proposals := by
  simp only [decideApproval, bind_eq_ok, require_eq_ok, policy_eq_ok, orError_eq_ok, exists_unit,
    Except.ok.injEq] at h
  obtain ⟨-, -, run, hrun, record, hrecord, -, -, hstatus, hresponse, rfl⟩ := h
  obtain ⟨hactive, hrun⟩ := active_filter_eq_some.mp hrun
  refine .decide hactive hrun hrecord hstatus (fun response hmem => ?_) rfl
  unfold validateApprovalResponse at hresponse
  rw [Option.mem_def] at hmem
  split at hresponse <;> rw [require_eq_ok, hmem] at hresponse
  · exact ⟨_, _, by simpa using hresponse⟩
  · simp at hresponse

theorem editable_eq_ok (h : requireEditableContext s = .ok ()) :
    s.context.compaction.isPending = false := by
  simp only [requireEditableContext, requireNoPendingCompaction, bind_eq_ok, require_eq_ok,
    exists_unit, Bool.not_eq_true] at h
  exact h.2

theorem replacementEntry_eq_some {id : ContextEntryId} {input : ContextEntryInput}
    {entry : ContextEntry} (h : replacementEntry s id input = some entry) :
    ∀ active, entryById s entry.entryId = some active → entry.supersedes = active.supersedes := by
  obtain ⟨current, hcurrent, rfl⟩ := Option.map_eq_some_iff.mp h
  intro active hactive
  have heq : entryById s id = some active := hactive
  rw [hcurrent] at heq
  rw [← Option.some.inj heq]
  rfl

/-- What `ReplaceContextEntries` puts in place keeps what it supersedes. -/
theorem replacedEntries_supersedes {inputs : List (ContextEntryId × ContextEntryInput)}
    {replaced : List ContextEntry} (h : replacedEntries s inputs = .ok replaced) :
    ∀ entry ∈ replaced, ∀ active, entryById s entry.entryId = some active →
      entry.supersedes = active.supersedes := by
  induction inputs generalizing replaced with
  | nil =>
    cases h
    rintro entry ⟨⟩
  | cons first rest ih =>
    obtain ⟨id, input⟩ := first
    unfold replacedEntries at h
    split at h
    · exact ih h
    next entry hentry =>
      split_ifs at h
      · exact ih h
      · simp only [bind_eq_ok, exists_unit, Except.ok.injEq] at h
        obtain ⟨-, tail, htail, rfl⟩ := h
        intro other hother
        rcases List.mem_cons.mp hother with rfl | hother
        · exact replacementEntry_eq_some hentry
        · exact ih htail other hother

theorem upsertContext_cases {entry : ContextEntryInput}
    (h : upsertContext s revision key entry = .ok proposals) :
    Proposed sessionId s (.admitCommand command) proposals := by
  simp only [upsertContext, bind_eq_ok, policy_eq_ok, exists_unit] at h
  obtain ⟨heditable, hedit, -, h⟩ := h
  split_ifs at h
  · cases h
    exact .none
  · split at h
    next replacement hreplacement =>
      cases h
      refine .edit (editable_eq_ok heditable) (.replace fun entry hentry => ?_)
      rw [List.mem_singleton.mp hentry]
      simp only [catalogMetadataReplacement, Option.bind_eq_bind, Option.bind_eq_some_iff] at hreplacement
      obtain ⟨current, -, hreplacement⟩ := hreplacement
      split_ifs at hreplacement
      exact replacementEntry_eq_some hreplacement
    · cases h
      exact .edit (editable_eq_ok heditable) (.apply hedit)

theorem replaceContextPrefix_cases {entries : OrdMap ContextEntryKey ContextEntryInput}
    (h : replaceContextPrefix s revision key entries = .ok proposals) :
    Proposed sessionId s (.admitCommand command) proposals := by
  simp only [replaceContextPrefix, bind_eq_ok, policy_eq_ok, exists_unit] at h
  obtain ⟨heditable, hedit, -, h⟩ := h
  split_ifs at h
  · cases h
    exact .none
  · cases h
    exact .edit (editable_eq_ok heditable) (.replacePrefix hedit)

theorem removeContext_cases (h : removeContext s revision key = .ok proposals) :
    Proposed sessionId s (.admitCommand command) proposals := by
  simp only [removeContext, bind_eq_ok, policy_eq_ok, exists_unit] at h
  obtain ⟨heditable, hkey, -, h⟩ := h
  split at h
  · cases h
    exact .edit (editable_eq_ok heditable) (.remove hkey)
  · cases h

theorem replaceContextEntries_cases {entries : OrdMap ContextEntryId ContextEntryInput}
    (h : replaceContextEntries s revision entries = .ok proposals) :
    Proposed sessionId s (.admitCommand command) proposals := by
  simp only [replaceContextEntries, bind_eq_ok, require_eq_ok, policy_eq_ok, exists_unit] at h
  obtain ⟨heditable, -, -, replaced, hreplaced, h⟩ := h
  split_ifs at h
  · cases h
    exact .none
  · cases h
    exact .edit (editable_eq_ok heditable) (.replace (replacedEntries_supersedes hreplaced))

theorem compactContext_cases (h : compactContext s = .ok proposals) :
    Proposed sessionId s (.admitCommand .compactContext) proposals := by
  simp only [compactContext, bind_eq_ok, require_eq_ok, exists_unit, Except.ok.injEq,
    Bool.not_eq_true] at h
  obtain ⟨-, ⟨hpending, hqueued⟩, hcovers, rfl⟩ := h
  exact .compact hpending hqueued hcovers

theorem resolvePromise_cases {promiseId : PromiseId} {resolution : PromiseResolution}
    (h : resolvePromise s promiseId resolution = .ok proposals) :
    Proposed sessionId s input proposals := by
  unfold resolvePromise at h
  split at h
  · split_ifs at h
    cases h
    exact .none
  · split_ifs at h
    · cases h
      exact .none
    · cases h
      exact .one (by cases resolution <;> rfl) (by cases resolution <;> trivial)

theorem failInvocation_cases {invocations : OrdMap WorkflowToolInvocationId WorkflowToolInvocation}
    {failures : OrdMap WorkflowToolInvocationId BlobRef} {id : WorkflowToolInvocationId}
    {errorRef : BlobRef} {event : WorkflowToolEvent} {conflict : String}
    (hevent : (CoreAgentEvent.workflowTool event).isQuiet = true)
    (h : failInvocation s invocations failures id errorRef event conflict = .ok proposals) :
    Proposed sessionId s input proposals := by
  unfold failInvocation at h
  split at h
  · cases h
    exact .none
  · split at h
    · simp only [bind_eq_ok, require_eq_ok, exists_unit, Except.ok.injEq] at h
      obtain ⟨-, rfl⟩ := h
      exact .none
    · cases h
      refine .quiet fun proposal hproposal => ?_
      simp only [failPendingCompletionPromises, List.mem_cons, List.mem_map] at hproposal
      rcases hproposal with rfl | ⟨_, -, rfl⟩
      · exact ⟨hevent, trivial⟩
      · exact ⟨rfl, trivial⟩

/-! ## Tools, suspensions and code calls -/

theorem toolBatchResultProposals_cases {result : ToolInvocationBatchResult}
    (h : toolBatchResultProposals sessionId s result = .ok proposals) :
    Proposed sessionId s input proposals := by
  simp only [toolBatchResultProposals, bind_eq_ok, exists_unit] at h
  obtain ⟨-, hmatches, h⟩ := h
  exact .results hmatches h

theorem toolBatchParkedProposals_cases {batchId : ToolBatchId} {callId : ToolCallId}
    {results : List ToolCallResult} {spec : AwaitSpec}
    (h : toolBatchParkedProposals sessionId s batchId callId results spec = .ok proposals) :
    Proposed sessionId s input proposals := by
  simp only [toolBatchParkedProposals, bind_eq_ok, require_eq_ok, orError_eq_ok, exists_unit] at h
  obtain ⟨run, hactive, hid, batch, hbatch, -, -, hmatches, -, -, joined, -, h⟩ := h
  split_ifs at h
  · exact toolBatchResultProposals_cases h
  · exact toolBatchResultProposals_cases h
  · simp only [parkOnAwait, bind_eq_ok, require_eq_ok, exists_unit] at h
    obtain ⟨-, -, h⟩ := h
    split at h
    · exact toolBatchResultProposals_cases h
    next hvalid =>
      simp only [bind_eq_ok, Except.ok.injEq] at h
      obtain ⟨completed, hcompleted, rfl⟩ := h
      exact .park hactive hid hbatch hmatches hvalid hcompleted

theorem unparkToolBatchCommand_cases {command : UnparkToolBatchCommand}
    (h : unparkToolBatchCommand s command observedAtMs = .ok proposals) :
    Proposed sessionId s (.admitCommand (.unparkToolBatch command)) proposals := by
  simp only [unparkToolBatchCommand, bind_eq_ok, exists_unit] at h
  obtain ⟨-, h⟩ := h
  split at h
  · cases h
  next hclaim =>
    rw [domain_eq_ok, unparkToolBatchProposals] at h
    split at h
    · cases h
      exact .none
    next run hactive =>
      split at h
      · cases h
        exact .none
      next parked hparked =>
        split_ifs at h with hother
        · cases h
          exact .none
        · simp only [not_or, not_not] at hother
          simp only [bind_eq_ok, exists_unit, Except.ok.injEq] at h
          obtain ⟨result, hresult, -, hmatches, completed, hcompleted, rfl⟩ := h
          exact .unpark hactive hparked hother.1 hother.2 hclaim hresult hmatches hcompleted

theorem replaceTools_cases {tools : ToolMap} (h : replaceTools s revision tools = .ok proposals) :
    Proposed sessionId s (.admitCommand command) proposals := by
  simp only [replaceTools, requireToolsNotFrozen, bind_eq_ok, require_eq_ok, policy_eq_ok,
    exists_unit, Except.ok.injEq, Bool.not_eq_true] at h
  obtain ⟨-, hfrozen, -, -, rfl⟩ := h
  exact .tools hfrozen

theorem patchTools_cases {patch : ToolPatch} (h : patchTools s revision patch = .ok proposals) :
    Proposed sessionId s (.admitCommand command) proposals := by
  simp only [patchTools, requireToolsNotFrozen, bind_eq_ok, require_eq_ok, exists_unit,
    Bool.not_eq_true] at h
  obtain ⟨-, hfrozen, -, h⟩ := h
  split_ifs at h
  · cases h
    exact .none
  · simp only [bind_eq_ok, Except.ok.injEq] at h
    obtain ⟨_, -, rfl⟩ := h
    exact .tools hfrozen

theorem setActiveEnvironment_cases {environmentId : EnvironmentId}
    (h : setActiveEnvironment s environmentId = .ok proposals) :
    Proposed sessionId s input proposals := by
  simp only [setActiveEnvironment, bind_eq_ok, require_eq_ok, exists_unit] at h
  obtain ⟨-, feature, -, -, h⟩ := h
  split_ifs at h
  · cases h
    exact .none
  · cases h
    exact .one rfl trivial

theorem clearActiveEnvironment_cases (h : clearActiveEnvironment s = .ok proposals) :
    Proposed sessionId s input proposals := by
  simp only [clearActiveEnvironment, bind_eq_ok, exists_unit] at h
  obtain ⟨-, h⟩ := h
  split_ifs at h
  · cases h
    exact .none
  · cases h
    exact .one rfl trivial

theorem openCodeToolScope_cases {scope : CodeToolScopeSpec}
    (h : openCodeToolScopeProposals s scope = .ok proposals) :
    Proposed sessionId s input proposals := by
  unfold openCodeToolScopeProposals at h
  split at h <;> simp only [bind_eq_ok, require_eq_ok, exists_unit, Except.ok.injEq] at h
  · obtain ⟨-, rfl⟩ := h
    exact .none
  · obtain ⟨-, joins, -, rfl⟩ := h
    exact .one rfl trivial

theorem admitCodeToolCall_cases {call : CodeToolCallSpec}
    (h : admitCodeToolCallProposals s call = .ok proposals) :
    Proposed sessionId s (.admitCommand command) proposals := by
  unfold admitCodeToolCallProposals at h
  split at h <;> simp only [bind_eq_ok, require_eq_ok, exists_unit, Except.ok.injEq] at h
  · obtain ⟨-, rfl⟩ := h
    exact .none
  · obtain ⟨hvalid, base, -, _, -, joins, -, rfl⟩ := h
    exact .reserve hvalid

theorem completeCodeToolCall_cases {result : ToolCallResult}
    (h : completeCodeToolCallProposals s origin result = .ok proposals) :
    Proposed sessionId s input proposals := by
  simp only [completeCodeToolCallProposals, bind_eq_ok, require_eq_ok, orError_eq_ok,
    exists_unit] at h
  obtain ⟨call, hcall, hstatus, -, parent, hparent, -, h⟩ := h
  exact .codeResults hcall hstatus hparent h

theorem deferCodeToolCall_cases {spec : AwaitSpec}
    (h : deferCodeToolCallProposals s origin spec = .ok proposals) :
    Proposed sessionId s input proposals := by
  simp only [deferCodeToolCallProposals, bind_eq_ok, require_eq_ok, orError_eq_ok,
    exists_unit] at h
  obtain ⟨call, -, -, -, parent, -, h⟩ := h
  split at h
  · split at h <;> simp only [bind_eq_ok, require_eq_ok, exists_unit,
      Except.ok.injEq] at h
    · obtain ⟨-, -, rfl⟩ := h
      exact .none
    · cases h.2
    · obtain ⟨-, joins, -, rfl⟩ := h
      exact .one rfl trivial
  · simp at h

theorem resumeCodeToolCall_cases {result : ToolCallResult} {claimObservedAtMs : Nat}
    (h : resumeCodeToolCallProposals s origin result claimObservedAtMs observedAtMs =
      .ok proposals) : Proposed sessionId s input proposals := by
  simp only [resumeCodeToolCallProposals, bind_eq_ok, require_eq_ok, orError_eq_ok, exists_unit,
    Except.ok.injEq] at h
  obtain ⟨call, -, -, -, -, wake, -, -, -, joins, -, rfl⟩ := h
  refine .quiet fun proposal hproposal => ?_
  simp only [List.mem_append, List.mem_map, List.mem_singleton] at hproposal
  rcases hproposal with ⟨_, -, rfl⟩ | rfl <;> exact ⟨rfl, trivial⟩

theorem closeCodeToolScope_cases {executionId : String}
    (h : closeCodeToolScopeProposals s executionId = .ok proposals) :
    Proposed sessionId s input proposals := by
  unfold closeCodeToolScopeProposals at h
  split at h
  · cases h
    exact .none
  next scope hscope =>
    split_ifs at h
    · cases h
      exact .none
    · simp only [bind_eq_ok, Except.ok.injEq] at h
      obtain ⟨cancelled, hcancelled, rfl⟩ := h
      refine .quiet fun proposal hproposal => ?_
      rcases List.mem_cons.mp hproposal with rfl | hproposal
      · exact ⟨rfl, trivial⟩
      · obtain ⟨events, hevents, hproposal⟩ := List.mem_flatten.mp hproposal
        obtain ⟨call, -, hcall⟩ := mem_of_mapM hcancelled hevents
        obtain ⟨promiseId, -, hcancel⟩ := mem_of_mapM hcall hproposal
        simp only [bind_eq_ok, Except.ok.injEq] at hcancel
        obtain ⟨joins, -, rfl⟩ := hcancel
        exact ⟨rfl, trivial⟩

/-! ## Effect results -/

theorem generationResultProposals_cases {result : LlmGenerationResult}
    (h : generationResultProposals s result = .ok proposals) :
    Proposed sessionId s (.resumeGeneration result) proposals := by
  simp only [generationResultProposals, bind_eq_ok, require_eq_ok, orError_eq_ok, exists_unit,
    Except.ok.injEq] at h
  obtain ⟨run, hactive, ⟨hrun, hturn⟩, rfl⟩ := h
  exact .generation hactive hrun hturn

theorem contextCompactionResultProposals_cases {result : ContextCompactionResult}
    (h : contextCompactionResultProposals s result = .ok proposals) :
    Proposed sessionId s (.resumeContextCompaction result) proposals := by
  simp only [contextCompactionResultProposals, bind_eq_ok, require_eq_ok, orError_eq_ok,
    exists_unit] at h
  obtain ⟨plan, hplan, hrevision, -, -, h⟩ := h
  split at h
  next hstatus =>
    cases h
    exact .compacted hplan hstatus
  next hstatus =>
    split at h
    next run hactive =>
      split_ifs at h with htrigger
      · cases h
        exact .overflowed hplan hstatus hactive htrigger
      · cases h
        exact .compactionFailed hplan (.inr htrigger)
    next hactive =>
      cases h
      exact .compactionFailed hplan (.inl hactive)

theorem runtimeMcpApprovalProposals_cases {batchId : ToolBatchId}
    {approvals : List RuntimeMcpApprovalRequest}
    (h : runtimeMcpApprovalProposals s batchId approvals = .ok proposals) :
    Proposed sessionId s (.requestRuntimeMcpApprovals batchId approvals) proposals := by
  simp only [runtimeMcpApprovalProposals, bind_eq_ok, require_eq_ok, orError_eq_ok, exists_unit,
    Except.ok.injEq] at h
  obtain ⟨-, run, hactive, batch, hbatch, hid, -, rfl⟩ := h
  refine .approve hactive hid hbatch fun proposal hproposal => ?_
  obtain ⟨⟨approval, callId⟩, -, rfl⟩ := List.mem_map.mp hproposal
  exact ⟨approval, rfl⟩

theorem admitCommand_cases (h : admitCommand s observedAtMs command = .ok proposals) :
    Proposed sessionId s (.admitCommand command) proposals := by
  cases command with
  | openSession config =>
    simp only [admitCommand, bind_eq_ok, Except.ok.injEq] at h
    obtain ⟨opened, hopened, rfl⟩ := h
    exact .one (openedEvent_eq_ok hopened).1 (openedEvent_eq_ok hopened).2
  | openDeclaredSession config universeId tools =>
    simp only [admitCommand, bind_eq_ok, policy_eq_ok, Except.ok.injEq] at h
    obtain ⟨opened, hopened, admitted, -, rfl⟩ := h
    refine .quiet fun proposal hproposal => ?_
    rcases List.mem_cons.mp hproposal with rfl | hproposal
    · exact openedEvent_eq_ok hopened
    · rw [List.mem_singleton.mp hproposal]
      exact ⟨rfl, trivial⟩
  | admitSystemWorkflowTool universeId declaration => exact admitSystemWorkflowTool_cases h
  | replaceSessionConfig revision config => exact replaceSessionConfig_cases h
  | requestRun request => exact requestRun_cases h
  | upsertContext revision key entry => exact upsertContext_cases h
  | replaceContextPrefix revision key entries => exact replaceContextPrefix_cases h
  | removeContext revision key => exact removeContext_cases h
  | replaceContextEntries revision entries => exact replaceContextEntries_cases h
  | compactContext => exact compactContext_cases h
  | closeSession force => exact closeSession_cases h
  | requestRunSteering runId submissionId entries => exact requestRunSteering_cases h
  | cancelRun runId => exact cancelRun_cases h
  | decideApproval command => exact decideApproval_cases h
  | resolvePromise promiseId resolution => exact resolvePromise_cases h
  | failWorkflowToolDelivery id errorRef | failWorkflowToolStart id errorRef =>
    exact failInvocation_cases rfl h
  | forceCancelRun runId => exact forceCancelRun_cases h
  | failRun runId messageRef => exact failRun_cases h
  | unparkToolBatch command => exact unparkToolBatchCommand_cases h
  | replaceTools revision tools => exact replaceTools_cases h
  | patchTools revision patch => exact patchTools_cases h
  | setActiveEnvironment environmentId => exact setActiveEnvironment_cases h
  | clearActiveEnvironment => exact clearActiveEnvironment_cases h
  | openCodeToolScope scope => exact openCodeToolScope_cases (policy_eq_ok.mp h)
  | admitCodeToolCall call => exact admitCodeToolCall_cases (policy_eq_ok.mp h)
  | completeCodeToolCall origin result => exact completeCodeToolCall_cases (policy_eq_ok.mp h)
  | deferCodeToolCall origin spec => exact deferCodeToolCall_cases (policy_eq_ok.mp h)
  | resumeCodeToolCall origin result claimObservedAtMs =>
    exact resumeCodeToolCall_cases (policy_eq_ok.mp h)
  | closeCodeToolScope executionId => exact closeCodeToolScope_cases (policy_eq_ok.mp h)

/-- No entry point of the drive proposes anything but the forms of `Proposed`. -/
theorem inputProposals_cases (h : inputProposals sessionId s observedAtMs input = .ok proposals) :
    Proposed sessionId s input proposals := by
  cases input with
  | admitCommand command =>
    simp only [inputProposals] at h
    split at h
    next hadmit =>
      cases h
      exact admitCommand_cases hadmit
    · cases h
  | nextAction =>
    simp only [inputProposals, driven_eq_ok] at h
    by_cases hne : proposals = []
    · exact hne ▸ .none
    · exact .plan (planNext_cases h hne)
  | resumeGeneration result =>
    simp only [inputProposals, driven_eq_ok] at h
    exact generationResultProposals_cases h
  | resumeContextCompaction result =>
    simp only [inputProposals, driven_eq_ok, resumedCompactionProposals, bind_eq_ok,
      exists_unit] at h
    exact contextCompactionResultProposals_cases h.2
  | resumeToolBatch result =>
    simp only [inputProposals, driven_eq_ok] at h
    exact toolBatchResultProposals_cases h
  | resumeToolCall batchId result =>
    simp only [inputProposals, driven_eq_ok, bind_eq_ok] at h
    obtain ⟨batch, -, h⟩ := h
    exact toolBatchResultProposals_cases h
  | requestRuntimeMcpApprovals batchId approvals =>
    simp only [inputProposals, driven_eq_ok] at h
    exact runtimeMcpApprovalProposals_cases h
  | parkToolBatch batchId callId results spec =>
    simp only [inputProposals, driven_eq_ok] at h
    exact toolBatchParkedProposals_cases h

end Lightspeed.Harness
