import Lightspeed.Harness.Proposed

/-!
# What the results of tool calls propose

The effect loop of `tool_call_completed_proposals_inner` builds its events in several lists and puts
them together at the end. `ResultEvent` says what each event is, and `Scanned` that the promises it
creates are new and have distinct ids at or above the base that the executor was given.
-/

namespace Lightspeed.Harness

open Lib

variable {s : CoreAgentState} {scope : ResultScope} {scan scan' : ResultScan}
  {item : ToolCallResult} {callId : ToolCallId} {promiseId : PromiseId}
  {invocation : WorkflowToolInvocation}

/-- The promise that an event creates. -/
def CoreAgentEvent.createdId : CoreAgentEvent → Option PromiseId
  | .promise (.created created) => some created.promiseId
  | _ => none

/-- The promises that a list of proposals creates. -/
def createdIds (proposals : List CoreAgentEventProposal) : List PromiseId :=
  proposals.filterMap (fun proposal => proposal.event.createdId)

/-- A promise id that an executor may use: at or above its base, and not in state. -/
def Mintable (s : CoreAgentState) (scope : ResultScope) (promiseId : PromiseId) : Prop :=
  (∃ base, mintBase s scope promiseId = .ok base ∧ base ≤ promiseId.number) ∧
    s.promises.promises.contains promiseId = false

/-- The events of a result. -/
inductive ResultEvent (s : CoreAgentState) (scope : ResultScope) : CoreAgentEvent → Prop
  | quiet {event : CoreAgentEvent} (hquiet : event.isQuiet = true) : ResultEvent s scope event
  | completed {item : ToolCallResult} (horigin : scope.origin = none) :
      ResultEvent s scope (.tool (.callCompleted scope.runId scope.turnId scope.batchId item))
  | created {promise : Promise} (hscope : promise.scope = .run scope.runId)
      (hmint : Mintable s scope promise.promiseId) :
      ResultEvent s scope (.promise (.created promise))
  | invoked {binding : WorkflowToolBinding} {invocation : WorkflowToolInvocation}
      (hbatch : invocation.toolBatchId = scope.batchId) :
      ResultEvent s scope (.workflowTool (invocationEvent binding invocation))
  | parked {suspension : ToolBatchSuspension} (horigin : scope.origin = none)
      (hjoined : suspension.isJoined = true) :
      ResultEvent s scope
        (.tool (.batchParked scope.runId scope.turnId scope.batchId suspension))

/-- The invariant of the effect loop. The promise events stand in three lists until the loop ends. -/
structure Scanned (s : CoreAgentState) (scope : ResultScope) (scan : ResultScan) : Prop where
  proposals : ∀ proposal ∈ scan.proposals, ResultEvent s scope proposal.event
  joinedPromises : ∀ proposal ∈ scan.joinedPromises, ResultEvent s scope proposal.event
  joinedTools : ∀ proposal ∈ scan.joinedTools, ResultEvent s scope proposal.event
  promises : ∀ proposal ∈ scan.promises, ResultEvent s scope proposal.event
  tools : ∀ proposal ∈ scan.tools, ResultEvent s scope proposal.event
  environment : ∀ proposal ∈ scan.environment, ResultEvent s scope proposal.event
  minted : ∀ id ∈ createdIds (scan.proposals ++ scan.joinedPromises ++ scan.promises),
    id ∈ scan.minted
  distinct : (createdIds (scan.proposals ++ scan.joinedPromises ++ scan.promises)).Nodup
  noneJoined : createdIds scan.joinedTools = []
  noneTools : createdIds scan.tools = []
  noneEnvironment : createdIds scan.environment = []

theorem createdIds_append (xs ys : List CoreAgentEventProposal) :
    createdIds (xs ++ ys) = createdIds xs ++ createdIds ys :=
  List.filterMap_append

theorem Scanned.init : Scanned s scope {} := by
  constructor <;> simp [createdIds]

theorem validateMintedPromiseId_eq_ok {minted : List PromiseId}
    (h : validateMintedPromiseId s scope promiseId minted = .ok ()) :
    Mintable s scope promiseId ∧ promiseId ∉ minted := by
  simp only [validateMintedPromiseId, bind_eq_ok, require_eq_ok, exists_unit,
    Bool.not_eq_true] at h
  obtain ⟨base, hbase, hle, hcontains, hminted⟩ := h
  exact ⟨⟨⟨base, hbase, hle⟩, hcontains⟩, hminted⟩

/-- A new promise joins the scan. -/
theorem Scanned.create (h : Scanned s scope scan) (callId : ToolCallId) {promise : Promise}
    (hscope : promise.scope = .run scope.runId)
    (hvalid : validateMintedPromiseId s scope promise.promiseId scan.minted = .ok ()) :
    Scanned s scope { scan.addPromise scope callId (.created promise) with
      minted := promise.promiseId :: scan.minted } := by
  obtain ⟨hmint, hnew⟩ := validateMintedPromiseId_eq_ok hvalid
  have hcreated : ∀ joins : CoreAgentJoins,
      createdIds [⟨joins, .promise (.created promise)⟩] = [promise.promiseId] := fun _ => rfl
  refine { h with promises := ?_, minted := ?_, distinct := ?_ }
  · intro proposal hproposal
    rcases List.mem_append.mp hproposal with hold | hnew
    · exact h.promises proposal hold
    · rw [List.mem_singleton.mp hnew]
      exact .created hscope hmint
  · simp only [ResultScan.addPromise, ← List.append_assoc]
    rw [createdIds_append, hcreated]
    intro id hid
    rcases List.mem_append.mp hid with hold | hnew
    · exact List.mem_cons_of_mem _ (h.minted id hold)
    · exact List.mem_singleton.mp hnew ▸ List.mem_cons_self
  · simp only [ResultScan.addPromise, ← List.append_assoc]
    rw [createdIds_append, hcreated]
    refine List.nodup_append.mpr ⟨h.distinct, List.nodup_singleton _, fun id hid id' hid' heq => ?_⟩
    rw [List.mem_singleton.mp hid'] at heq
    exact hnew (heq ▸ h.minted id hid)

/-- A promise event that creates nothing joins the scan. -/
theorem Scanned.addQuiet (h : Scanned s scope scan) {event : PromiseEvent}
    (hquiet : (CoreAgentEvent.promise event).isQuiet = true) :
    Scanned s scope (scan.addPromise scope callId event) := by
  have hcreated : ∀ joins : CoreAgentJoins, createdIds [⟨joins, .promise event⟩] = [] := by
    intro joins
    cases event <;> first | rfl | cases hquiet
  refine { h with promises := ?_, minted := ?_, distinct := ?_ }
  · intro proposal hproposal
    rcases List.mem_append.mp hproposal with hold | hnew
    · exact h.promises proposal hold
    · rw [List.mem_singleton.mp hnew]
      exact .quiet hquiet
  · simp only [ResultScan.addPromise, ← List.append_assoc]
    rw [createdIds_append, hcreated, List.append_nil]
    exact h.minted
  · simp only [ResultScan.addPromise, ← List.append_assoc]
    rw [createdIds_append, hcreated, List.append_nil]
    exact h.distinct

theorem scanEnvironment_scanned (h : Scanned s scope scan) {event : EnvironmentEvent}
    (hscan : scanEnvironment s scope item scan event = .ok scan') : Scanned s scope scan' := by
  simp only [scanEnvironment, bind_eq_ok, require_eq_ok, exists_unit, Except.ok.injEq] at hscan
  obtain ⟨-, -, -, rfl⟩ := hscan
  refine { h with environment := ?_, noneEnvironment := ?_ }
  · intro proposal hproposal
    rcases List.mem_append.mp hproposal with hold | hnew
    · exact h.environment proposal hold
    · rw [List.mem_singleton.mp hnew]
      exact .quiet rfl
  · rw [createdIds_append, h.noneEnvironment]
    rfl

theorem scanCreate_scanned (h : Scanned s scope scan) {promise : Promise}
    (hscope : promise.scope = .run scope.runId)
    (hscan : scanCreate s scope item scan promise = .ok scan') : Scanned s scope scan' := by
  simp only [scanCreate, bind_eq_ok, exists_unit, Except.ok.injEq] at hscan
  obtain ⟨hvalid, rfl⟩ := hscan
  exact h.create item.callId hscope hvalid

theorem scanCancel_scanned (h : Scanned s scope scan)
    (hscan : scanCancel s scope item scan promiseId = .ok scan') : Scanned s scope scan' := by
  simp only [scanCancel, bind_eq_ok] at hscan
  obtain ⟨promise, -, hscan⟩ := hscan
  split at hscan
  · exact Except.ok.inj hscan ▸ h
  · split_ifs at hscan
    · exact Except.ok.inj hscan ▸ h
    · cases hscan
      exact { h.addQuiet rfl with }

theorem scanDetach_scanned (h : Scanned s scope scan)
    (hscan : scanDetach s scope item scan promiseId = .ok scan') : Scanned s scope scan' := by
  simp only [scanDetach, bind_eq_ok] at hscan
  obtain ⟨promise, -, hscan⟩ := hscan
  split at hscan
  · exact Except.ok.inj hscan ▸ h
  · split_ifs at hscan
    · exact Except.ok.inj hscan ▸ h
    · split at hscan
      · exact Except.ok.inj hscan ▸ h
      · simp only [bind_eq_ok, require_eq_ok, exists_unit, Except.ok.injEq] at hscan
        obtain ⟨-, rfl⟩ := hscan
        exact h.addQuiet rfl

theorem scanCompletions_scanned {promise : String → PromiseId → Promise}
    (hscope : ∀ key id, (promise key id).scope = .run scope.runId)
    (hid : ∀ key id, (promise key id).promiseId = id) {keys : List (String × PromiseId)}
    (h : Scanned s scope scan)
    (hscan : scanCompletions s scope callId promise scan keys = .ok scan') :
    Scanned s scope scan' := by
  induction keys generalizing scan with
  | nil => exact Except.ok.inj hscan ▸ h
  | cons first rest ih =>
    obtain ⟨key, promiseId⟩ := first
    simp only [scanCompletions, bind_eq_ok, exists_unit] at hscan
    obtain ⟨hvalid, hscan⟩ := hscan
    refine ih ?_ hscan
    have hcreate := h.create callId (hscope key promiseId)
      (by rw [hid key promiseId]; exact hvalid)
    rwa [hid key promiseId] at hcreate

theorem scanInvocationPromises_scanned {binding : WorkflowToolBinding}
    {deadline : Except DomainError (Option Nat)} (h : Scanned s scope scan)
    (hscan : scanInvocationPromises s scope callId binding invocation deadline scan = .ok scan') :
    Scanned s scope scan' := by
  unfold scanInvocationPromises at hscan
  split at hscan
  · exact Except.ok.inj hscan ▸ h
  · simp only [bind_eq_ok, require_eq_ok, exists_unit] at hscan
    obtain ⟨deadlineAtMs, -, -, hscan⟩ := hscan
    exact scanCompletions_scanned (fun _ _ => rfl) (fun _ _ => rfl) h hscan

theorem addInvocation_scanned {binding : WorkflowToolBinding}
    (hbatch : invocation.toolBatchId = scope.batchId) (h : Scanned s scope scan)
    (hscan : scan.addInvocation scope callId binding invocation = .ok scan') :
    Scanned s scope scan' := by
  have hcreated : ∀ joins : CoreAgentJoins,
      createdIds [⟨joins, .workflowTool (invocationEvent binding invocation)⟩] = [] := by
    intro joins
    simp [createdIds, CoreAgentEvent.createdId]
  have hevent : ∀ proposal ∈ [(⟨scope.callJoins callId,
      .workflowTool (invocationEvent binding invocation)⟩ : CoreAgentEventProposal)],
      ResultEvent s scope proposal.event := by
    intro proposal hproposal
    rw [List.mem_singleton.mp hproposal]
    exact .invoked hbatch
  unfold ResultScan.addInvocation at hscan
  split_ifs at hscan
  · simp only [bind_eq_ok, Except.ok.injEq] at hscan
    obtain ⟨promiseId, -, rfl⟩ := hscan
    refine { h with
      joinedPromises := ?_, joinedTools := ?_, promises := by simp, tools := by simp, minted := ?_
      distinct := ?_, noneJoined := ?_, noneTools := rfl }
    · intro proposal hproposal
      rcases List.mem_append.mp hproposal with hold | hnew
      · exact h.joinedPromises proposal hold
      · exact h.promises proposal hnew
    · intro proposal hproposal
      rcases List.mem_append.mp hproposal with hold | hnew
      · rcases List.mem_append.mp hold with hold | htools
        · exact h.joinedTools proposal hold
        · exact h.tools proposal htools
      · exact hevent proposal hnew
    · simpa [List.append_assoc] using h.minted
    · simpa [List.append_assoc] using h.distinct
    · rw [createdIds_append, createdIds_append, h.noneJoined, h.noneTools, hcreated]
      rfl
  · cases hscan
    refine { h with tools := ?_, noneTools := ?_ }
    · intro proposal hproposal
      rcases List.mem_append.mp hproposal with hold | hnew
      · exact h.tools proposal hold
      · exact hevent proposal hnew
    · rw [createdIds_append, h.noneTools, hcreated]
      rfl

theorem scanInvoke_scanned {deadline : Except DomainError (Option Nat)} (h : Scanned s scope scan)
    (hscan : scanInvoke s scope item scan invocation deadline = .ok scan') :
    Scanned s scope scan' := by
  simp only [scanInvoke, bind_eq_ok, require_eq_ok, orError_eq_ok, exists_unit] at hscan
  obtain ⟨-, -, sessionId, -, binding, hbinding, -, promised, hpromised, hscan⟩ := hscan
  simp only [validateInvokeEffect, bind_eq_ok, require_eq_ok, exists_unit] at hbinding
  obtain ⟨⟨-, -, -, hbatch, -⟩, -⟩ := hbinding
  refine addInvocation_scanned hbatch (scanInvocationPromises_scanned ?_ hpromised) hscan
  exact { h with }

/-- One effect keeps the invariant. -/
theorem scanEffect_scanned {effect : ToolEffect} (h : Scanned s scope scan)
    (hscan : scanEffect s scope item scan effect = .ok scan') : Scanned s scope scan' := by
  cases effect with
  | environmentActivate id | environmentDeactivate => exact scanEnvironment_scanned h hscan
  | promiseCreate id fireAtMs deadlineAtMs => exact scanCreate_scanned h rfl hscan
  | promiseCancel id => exact scanCancel_scanned h hscan
  | promiseDetach id => exact scanDetach_scanned h hscan
  | workflowInvoke invocation deadline => exact scanInvoke_scanned h hscan
  | malformedInvoke error => cases hscan
  | malformed error => cases hscan
  | other kind => exact Except.ok.inj hscan ▸ h

/-- The scan between two results: what one result collected has moved on. -/
def ResultScan.cleared (scan : ResultScan) : ResultScan :=
  { scan with promises := [], tools := [], environment := [], invoked := false }

theorem ResultScope.completedEvent_resultEvent : ResultEvent s scope (scope.completedEvent item) := by
  unfold ResultScope.completedEvent
  split
  · exact .quiet rfl
  next horigin => exact .completed horigin

theorem ResultScope.completedEvent_createdId : (scope.completedEvent item).createdId = none := by
  unfold ResultScope.completedEvent
  split <;> rfl

/-- One result keeps the invariant. -/
theorem scanResult_scanned (h : Scanned s scope scan.cleared)
    (hscan : scanResult s scope scan item = .ok scan') : Scanned s scope scan'.cleared := by
  simp only [scanResult, bind_eq_ok] at hscan
  obtain ⟨effected, heffects, hscan⟩ := hscan
  have heffected : Scanned s scope effected :=
    foldlM_preserves (fun _ _ _ _ hstep hscanned => scanEffect_scanned hscanned hstep) heffects h
  split_ifs at hscan
  · simp only [bind_eq_ok, require_eq_ok, exists_unit, Except.ok.injEq] at hscan
    obtain ⟨⟨hpromises, htools, henvironment⟩, rfl⟩ := hscan
    refine { heffected with
      promises := by simp [ResultScan.cleared], tools := by simp [ResultScan.cleared]
      environment := by simp [ResultScan.cleared], minted := ?_, distinct := ?_
      noneTools := rfl, noneEnvironment := rfl }
    · simpa [ResultScan.cleared, hpromises] using heffected.minted
    · simpa [ResultScan.cleared, hpromises] using heffected.distinct
  · cases hscan
    have hids : createdIds (effected.proposals ++
        (⟨scope.callJoins item.callId, scope.completedEvent item⟩ ::
          (effected.promises ++ effected.tools ++ effected.environment)) ++
        effected.joinedPromises) =
        createdIds effected.proposals ++ createdIds effected.promises ++
          createdIds effected.joinedPromises := by
      have hcons : ∀ rest : List CoreAgentEventProposal,
          createdIds (⟨scope.callJoins item.callId, scope.completedEvent item⟩ :: rest) =
            createdIds rest := by
        intro rest
        simp [createdIds, ResultScope.completedEvent_createdId]
      rw [createdIds_append, createdIds_append, hcons, createdIds_append, createdIds_append,
        heffected.noneTools, heffected.noneEnvironment, List.append_nil, List.append_nil]
    have hperm : (createdIds effected.proposals ++ createdIds effected.promises ++
        createdIds effected.joinedPromises).Perm
        (createdIds (effected.proposals ++ effected.joinedPromises ++ effected.promises)) := by
      rw [createdIds_append, createdIds_append, List.append_assoc, List.append_assoc]
      exact List.perm_append_comm.append_left _
    refine { heffected with
      proposals := ?_, promises := by simp [ResultScan.cleared]
      tools := by simp [ResultScan.cleared], environment := by simp [ResultScan.cleared]
      minted := ?_, distinct := ?_, noneTools := rfl, noneEnvironment := rfl }
    · intro proposal hproposal
      rcases List.mem_append.mp hproposal with hold | hnew
      · exact heffected.proposals proposal hold
      · rcases List.mem_cons.mp hnew with rfl | hnew
        · exact ResultScope.completedEvent_resultEvent
        · rcases List.mem_append.mp hnew with hnew | henvironment
          · rcases List.mem_append.mp hnew with hpromise | htool
            · exact heffected.promises proposal hpromise
            · exact heffected.tools proposal htool
          · exact heffected.environment proposal henvironment
    · intro id hid
      simp only [ResultScan.cleared, List.append_nil] at hid
      rw [hids] at hid
      exact heffected.minted id (hperm.mem_iff.mp hid)
    · simp only [ResultScan.cleared, List.append_nil]
      rw [hids]
      exact hperm.nodup_iff.mpr heffected.distinct

/-- The events of a list of results are result events, and the promises that they create have distinct
ids. -/
theorem toolCallCompletedProposals_spec {results : List ToolCallResult}
    {proposals : List CoreAgentEventProposal}
    (h : toolCallCompletedProposals s scope results = .ok proposals) :
    (∀ proposal ∈ proposals, ResultEvent s scope proposal.event) ∧ (createdIds proposals).Nodup := by
  simp only [toolCallCompletedProposals, bind_eq_ok, Except.ok.injEq] at h
  obtain ⟨scan, hscan, rfl⟩ := h
  have hscanned : Scanned s scope scan.cleared :=
    foldlM_preserves (P := fun scan => Scanned s scope scan.cleared)
      (fun _ _ _ _ hstep hscanned => scanResult_scanned hscanned hstep) hscan Scanned.init
  unfold ResultScan.finish
  split_ifs with hjoined
  · refine ⟨hscanned.proposals, ?_⟩
    have hdistinct := hscanned.distinct
    simp only [ResultScan.cleared, List.append_nil, createdIds_append] at hdistinct
    exact (List.nodup_append.mp hdistinct).1
  · constructor
    · intro proposal hproposal
      simp only [List.mem_append, List.mem_singleton] at hproposal
      rcases hproposal with ((hmem | hmem) | rfl) | hmem
      · exact hscanned.proposals proposal hmem
      · exact hscanned.joinedPromises proposal hmem
      · unfold ResultScope.deferredEvent
        split
        · exact .quiet rfl
        next horigin => exact .parked horigin rfl
      · exact hscanned.joinedTools proposal hmem
    · have hnone : createdIds scan.joinedTools = [] := hscanned.noneJoined
      have hdistinct := hscanned.distinct
      simp only [ResultScan.cleared, List.append_nil] at hdistinct
      have hdeferred : ∀ (joins : CoreAgentJoins) (suspension : ToolBatchSuspension),
          createdIds [⟨joins, scope.deferredEvent suspension⟩] = [] := by
        intro joins suspension
        have hid : (scope.deferredEvent suspension).createdId = none := by
          unfold ResultScope.deferredEvent
          split <;> rfl
        simp [createdIds, hid]
      rw [createdIds_append, createdIds_append, hdeferred, hnone, List.append_nil, List.append_nil]
      exact hdistinct

end Lightspeed.Harness
