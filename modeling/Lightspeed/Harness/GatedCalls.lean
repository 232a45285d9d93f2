import Lightspeed.Harness.Answers
import Lightspeed.Harness.PromiseLedger

/-!
# Approvals of gated calls

The calls of a batch that need a decision are parked by one append: a request for each of them and the park
of the run. The requests are always taken. The park is refused while another approval of the run is
pending, one that a provider has asked for in the same turn: with a batch active a run parks on runtime MCP
approvals only. `plan_approval_next` leaves such a run to its batch.
-/

namespace Lightspeed.Harness

open Lib

variable {sessionId : SessionId} {s : CoreAgentState} {log : List CoreAgentEntry} {ms last : Nat}
  {run : ActiveRun} {batch : ActiveToolBatch} {batchId : ToolBatchId}
  {approvals : List RuntimeMcpApprovalRequest}

/-! ## The proposals -/

/-- Distinct pending calls pass the checks. -/
theorem validateGatedCalls_ok {seen : List ToolCallId}
    (hpending : ∀ approval ∈ approvals, batch.hasPending approval.callId = true)
    (hdistinct : (approvals.map RuntimeMcpApprovalRequest.callId).Nodup)
    (hunseen : ∀ approval ∈ approvals, approval.callId ∉ seen) :
    validateGatedCalls batch seen approvals = .ok () := by
  induction approvals generalizing seen with
  | nil => rfl
  | cons first rest ih =>
    rw [List.map_cons, List.nodup_cons] at hdistinct
    have hfirst : batch.hasPending first.callId = true ∧ first.callId ∉ seen :=
      ⟨hpending first List.mem_cons_self, hunseen first List.mem_cons_self⟩
    rw [validateGatedCalls, require_pos hfirst, ok_bind]
    apply ih (fun approval hmem => hpending approval (List.mem_cons_of_mem _ hmem)) hdistinct.2
    intro approval hmem hseen
    rcases List.mem_cons.mp hseen with heq | hseen
    · exact hdistinct.1 (heq ▸ List.mem_map_of_mem hmem)
    · exact hunseen approval (List.mem_cons_of_mem _ hmem) hseen

/-- The proposals of the requests, numbered after `last`. -/
def gatedProposals (batch : ActiveToolBatch) (batchId : ToolBatchId) (last : Nat) :
    List RuntimeMcpApprovalRequest → List CoreAgentEventProposal
  | [] => []
  | approval :: rest =>
    ⟨{ batch.joins with toolCallId := some approval.callId }, .approval (.requested
      { approvalId := approvalId (last + 1), runId := batch.runId, subject := approval.subject
        continuation := .runtimeMcp batchId approval.callId })⟩ ::
      gatedProposals batch batchId (last + 1) rest

theorem gatedProposals_eq : ((approvalRequestsAfter batch.runId last (approvals.map
      fun approval : RuntimeMcpApprovalRequest =>
        (⟨approval.subject, .runtimeMcp batchId approval.callId⟩ : ObservedApprovalRequest))).zip
      (approvals.map RuntimeMcpApprovalRequest.callId)).map (fun (approval, callId) =>
        (⟨{ batch.joins with toolCallId := some callId }, .approval (.requested approval)⟩ :
          CoreAgentEventProposal)) =
    gatedProposals batch batchId last approvals := by
  induction approvals generalizing last with
  | nil => rfl
  | cons first rest ih =>
    rw [gatedProposals, ← ih]
    rfl

theorem gatedProposals_terminalRunId {proposal : CoreAgentEventProposal}
    (h : proposal ∈ gatedProposals batch batchId last approvals) :
    proposal.event.terminalRunId = none := by
  induction approvals generalizing last with
  | nil => cases h
  | cons first rest ih =>
    rcases List.mem_cons.mp h with rfl | h
    · rfl
    · exact ih h

/-! ## The requests -/

/-- A running run that waits on the calls of its batch, with the approvals pending that were pending in
`before` and those of calls of the batch. -/
structure Gating (batchId : ToolBatchId) (before run : ActiveRun) (s : CoreAgentState) : Prop where
  active : s.runs.active = some run
  runId : run.runId = before.runId
  running : run.status = .running
  turn : run.activeTurnId = none
  batch : run.activeToolBatchId = some batchId
  numbered : NumberedUpTo s.idCursors.lastApprovalId run.approvals
  held : ∀ record ∈ before.pendingApprovals, record ∈ run.pendingApprovals
  gated : ∀ record ∈ run.pendingApprovals, record ∈ before.pendingApprovals ∨
    record.request.continuation.isRuntimeMcp = true

/-- An approval that is requested is pending beside those that were. -/
theorem mem_pendingApprovals_requested {run : ActiveRun} {id : ApprovalId} {record held : ApprovalRecord}
    (hfresh : run.approvals.contains id = false) (hstatus : record.status = .pending) :
    held ∈ ({ run with approvals := run.approvals.insert id record } : ActiveRun).pendingApprovals ↔
      held = record ∨ held ∈ run.pendingApprovals := by
  unfold ActiveRun.pendingApprovals
  rw [List.mem_filter, List.mem_filter, (OrdMap.values_insert_perm record hfresh).mem_iff,
    List.mem_cons]
  constructor
  · rintro ⟨rfl | hmem, hpending⟩
    · exact .inl rfl
    · exact .inr ⟨hmem, hpending⟩
  · rintro (rfl | ⟨hmem, hpending⟩)
    · exact ⟨.inl rfl, by rw [hstatus]; rfl⟩
    · exact ⟨.inr hmem, hpending⟩

/-- The requests are taken one after another, and the run waits on them afterwards. -/
theorem gated_commit {before : ActiveRun} (h : Gating batchId before run s)
    (hrun : batch.runId = before.runId) (hlast : s.idCursors.lastApprovalId = last)
    (hdistinct : (approvals.map RuntimeMcpApprovalRequest.callId).Nodup)
    (hunasked : ∀ approval ∈ approvals, ∀ record ∈ run.approvals.values,
      record.request.continuation ≠ .runtimeMcp batchId approval.callId) :
    ∃ t run', Commits ms s (gatedProposals batch batchId last approvals) t ∧
      Gating batchId before run' t ∧
      (approvals ≠ [] ∨ run.pendingApprovals ≠ [] → run'.pendingApprovals ≠ []) := by
  induction approvals generalizing s run last with
  | nil =>
    refine ⟨s, run, commits_nil.mpr rfl, h, fun hsome => ?_⟩
    exact hsome.resolve_left (fun hnil => hnil rfl)
  | cons first rest ih =>
    subst hlast
    let last := s.idCursors.lastApprovalId
    let approval : ApprovalRequested :=
      { approvalId := approvalId (last + 1), runId := batch.runId, subject := first.subject.stored
        continuation := .runtimeMcp batchId first.callId }
    let record : ApprovalRecord := { request := approval, requestedAtMs := ms, status := .pending }
    let asked : ActiveRun := { run with approvals := run.approvals.insert (approvalId (last + 1)) record }
    let next : CoreAgentState :=
      { s.setActive asked with idCursors := { s.idCursors with lastApprovalId := last + 1 } }
    have hfresh : run.approvals.contains (approvalId (last + 1)) = false := h.numbered.fresh
    have hstep : applyApprovalEvent s ms (.requested approval) = .ok next := by
      refine approvalRequested_eq_ok.mpr
        ⟨run, h.active, h.runId.trans hrun.symm, h.running, rfl, ?_, rfl⟩
      rw [List.any_eq_false]
      intro held hmem heq
      exact hunasked first List.mem_cons_self held hmem (beq_iff_eq.mp heq)
    have hpending : ∀ held, held ∈ asked.pendingApprovals ↔
        held = record ∨ held ∈ run.pendingApprovals :=
      fun held => mem_pendingApprovals_requested hfresh rfl
    have hnext : Gating batchId before asked (s.reducedAt next) := by
      refine ⟨rfl, h.runId, h.running, h.turn, h.batch, h.numbered.insertNext record, ?_, ?_⟩
      · intro held hmem
        exact (hpending held).mpr (.inr (h.held held hmem))
      · intro held hmem
        rcases (hpending held).mp hmem with rfl | hmem
        · exact .inr rfl
        · exact h.gated held hmem
    rw [List.map_cons, List.nodup_cons] at hdistinct
    have hrest : ∀ approval ∈ rest, ∀ held ∈ asked.approvals.values,
        held.request.continuation ≠ .runtimeMcp batchId approval.callId := by
      intro other hother held hmem
      rcases List.mem_cons.mp ((OrdMap.values_insert_perm record hfresh).mem_iff.mp hmem) with
        rfl | hmem
      · intro heq
        have hcall : first.callId = other.callId := (ApprovalContinuation.runtimeMcp.inj heq).2
        exact hdistinct.1 (hcall ▸ List.mem_map_of_mem hother)
      · exact hunasked other (List.mem_cons_of_mem _ hother) held hmem
    obtain ⟨t, run', hcommit, hgating, hsome⟩ := ih hnext rfl hdistinct.2 hrest
    have hasked : asked.pendingApprovals ≠ [] :=
      List.ne_nil_of_mem ((hpending record).mpr (.inl rfl))
    exact ⟨t, run', commits_cons.mpr ⟨next, hstep, hcommit⟩, hgating, fun _ => hsome (.inr hasked)⟩

/-! ## The park -/

/-- With a batch active, a run parks exactly when all it waits on are runtime MCP calls. -/
theorem park_commits_iff {before : ActiveRun} (h : Gating batchId before run s)
    (hrun : batch.runId = before.runId) (hsome : run.pendingApprovals ≠ []) :
    (∃ t, Commits ms s [⟨batch.joins, .approval (.runParked batch.runId)⟩] t) ↔
      ∀ record ∈ before.pendingApprovals, record.request.continuation.isRuntimeMcp = true := by
  have hstep : (∃ m, applyApprovalEvent s ms (.runParked batch.runId) = .ok m) ↔
      ∀ record ∈ before.pendingApprovals, record.request.continuation.isRuntimeMcp = true := by
    constructor
    · rintro ⟨m, hm⟩ record hrecord
      obtain ⟨run', hactive, -, -, -, -, hall, -⟩ := runParked_eq_ok.mp hm
      obtain rfl : run = run' := Option.mem_unique h.active hactive
      have hruntime := hall.resolve_left (by rw [h.batch]; nofun)
      exact List.all_eq_true.mp hruntime record (h.held record hrecord)
    · intro hbefore
      have hall : run.pendingApprovals.all
          (fun record => record.request.continuation.isRuntimeMcp) = true := by
        rw [List.all_eq_true]
        intro record hrecord
        exact (h.gated record hrecord).elim (hbefore record) id
      exact ⟨_, runParked_eq_ok.mpr ⟨run, h.active, h.runId.trans hrun.symm, hsome, h.running, h.turn,
        .inr hall, rfl⟩⟩
  rw [← hstep]
  constructor
  · rintro ⟨t, ht⟩
    obtain ⟨m, hm, -⟩ := commits_cons.mp ht
    exact ⟨m, hm⟩
  · rintro ⟨m, hm⟩
    exact ⟨_, commits_cons.mpr ⟨m, hm, commits_nil.mpr rfl⟩⟩

/-- The gated calls of an active batch are parked exactly when no approval but those of runtime MCP calls
is pending. -/
theorem gated_parks_iff (ms : Nat) (h : Reachable sessionId s log) (hactive : s.runs.active = some run)
    (hrunning : run.status = .running) (hbatch : run.activeToolBatchId = some batchId)
    (hget : run.toolBatches.get? batchId = some batch)
    (hsome : approvals ≠ [])
    (hdistinct : (approvals.map RuntimeMcpApprovalRequest.callId).Nodup)
    (hpending : ∀ approval ∈ approvals, batch.hasPending approval.callId = true)
    (hunasked : ∀ approval ∈ approvals, ∀ record ∈ run.approvals.values,
      record.request.continuation ≠ .runtimeMcp batchId approval.callId) :
    (∃ committed t,
        proposeEntries sessionId s (ms, .requestRuntimeMcpApprovals batchId approvals) = .ok committed ∧
          committed.foldlM applyEvent s = .ok t) ↔
      ∀ record ∈ run.pendingApprovals, record.request.continuation.isRuntimeMcp = true := by
  have hinv := ((reachable_inv h).1).run run hactive
  have hturn : run.activeTurnId = none := by
    by_contra hopen
    have hnone := hinv.openAlone hopen
    rw [hbatch] at hnone
    cases hnone
  obtain ⟨held, turn, facts, hheld, hbatchId, hrun, -⟩ := hinv.openBatch batchId hbatch
  obtain rfl : batch = held := Option.mem_unique hget hheld
  let park : CoreAgentEventProposal := ⟨batch.joins, .approval (.runParked batch.runId)⟩
  let requests := gatedProposals batch batchId s.idCursors.lastApprovalId approvals
  have hproposals : inputProposals sessionId s ms (.requestRuntimeMcpApprovals batchId approvals) =
      .ok (requests ++ [park]) := by
    simp only [inputProposals, runtimeMcpApprovalProposals, require_pos hsome, hactive, orError_some,
      hget, require_pos hbatch, validateGatedCalls_ok hpending hdistinct (fun _ _ => List.not_mem_nil),
      ok_bind, driven, gatedProposals_eq]
    rfl
  have hends : withRunTerminalSideEffects s (requests ++ [park]) = requests ++ [park] := by
    refine runTerminalSideEffects_eq fun proposal hmem => ?_
    rcases List.mem_append.mp hmem with hmem | hmem
    · exact gatedProposals_terminalRunId hmem
    · rw [List.mem_singleton.mp hmem]
      rfl
  have hgating : Gating batchId run run s :=
    ⟨hactive, rfl, hrunning, hturn, hbatch, reachable_numbered h run hactive, fun _ hmem => hmem,
      fun _ hmem => .inl hmem⟩
  obtain ⟨m, run', hcommit, hwaits, hasked⟩ := gated_commit hgating hrun rfl hdistinct hunasked
  have hparked : (∃ t, Commits ms m [⟨batch.joins, .approval (.runParked batch.runId)⟩] t) ↔ _ :=
    park_commits_iff hwaits hrun (hasked (.inl hsome))
  rw [← hparked]
  constructor
  · rintro ⟨committed, t, hpropose, hfold⟩
    obtain ⟨proposals, hok, hall⟩ := propose_iff.mp ⟨committed, hpropose, hfold⟩
    obtain rfl := Except.ok.inj (hproposals.symm.trans hok)
    rw [hends] at hall
    obtain ⟨m', hm', hpark⟩ := commits_append.mp hall
    obtain rfl : m = m' := Except.ok.inj (hcommit.symm.trans hm')
    exact ⟨t, hpark⟩
  · rintro ⟨t, hpark⟩
    have hall := commits_append.mpr ⟨m, hcommit, hpark⟩
    obtain ⟨committed, hpropose, hfold⟩ := propose_iff.mpr ⟨_, hproposals, hends.symm ▸ hall⟩
    exact ⟨committed, t, hpropose, hfold⟩

/-- A remote MCP server whose tools are called by the session, each call after a decision. -/
def sampleMailTool : ToolSpec where
  id := "mail"
  kind := .remoteMcp
    { serverId := "mail", recordRevision := 1, serverLabel := "mail", approval := .always }

/-- A turn that calls the server's tool and asks for approvals of the provider's own tools. -/
def gatedAnswer (approvalRequests : List ObservedApprovalRequest) : LlmGenerationResult where
  runId := 1
  turnId := 1
  status := .succeeded
  facts :=
    { finish := .toolCalls, approvalRequests
      toolCalls := [{ callId := "send", toolId := some "mail", toolName := "mcp_mail__send"
                      argumentsRef := ⟨"args"⟩ }] }
  contextEntries :=
    [{ kind := .toolCall "send" "mcp_mail__send", content := { contentRef := ⟨"args"⟩ } }]

/-- What the call's approval is asked for with. -/
def sampleGatedCall : RuntimeMcpApprovalRequest where
  callId := "send"
  subject := .mcpToolCall "mail" "mail" "send" ⟨"args"⟩

/-- The session up to the dispatch of the call. -/
def gatedRun (approvalRequests : List ObservedApprovalRequest) : List (Nat × DriveInput) :=
  [(0, .admitCommand (.openSession sampleConfig)),
    (1, .admitCommand (.replaceTools none (OrdMap.ofList [("mail", sampleMailTool)]))),
    (2, .admitCommand (.requestRun { source := ⟨[sampleMessage]⟩ }))] ++
  planTurn 3 ++
  [(4, .resumeGeneration (gatedAnswer approvalRequests)), (5, .nextAction), (6, .nextAction)]

/-- What the run waits on at the dispatch, and the approvals that it holds by then. -/
def gatedDispatch (s : CoreAgentState) : Option (RunStatus × Option ToolBatchId × Bool ×
    List ApprovalContinuation × List ApprovalContinuation) :=
  s.runs.active.bind fun run => (run.toolBatches.get? 1).map fun batch =>
    (run.status, run.activeToolBatchId, batch.hasPending "send",
      run.approvals.values.map (fun record => record.request.continuation),
      run.pendingApprovals.map (fun record => record.request.continuation))

theorem gatedRun_waits {requests : List ObservedApprovalRequest} {held : List ApprovalContinuation}
    (hread : ((drive "session").exec (gatedRun requests)).bind (fun p => gatedDispatch p.1) =
      some (.running, some 1, true, held, held)) :
    ∃ s log run batch, (drive "session").exec (gatedRun requests) = some (s, log) ∧
      s.runs.active = some run ∧ run.status = .running ∧ run.activeToolBatchId = some 1 ∧
      run.toolBatches.get? 1 = some batch ∧ batch.hasPending "send" = true ∧
      run.approvals.values.map (fun record => record.request.continuation) = held ∧
      run.pendingApprovals.map (fun record => record.request.continuation) = held := by
  obtain ⟨⟨s, log⟩, hexec, hread⟩ := Option.bind_eq_some_iff.mp hread
  obtain ⟨run, hactive, hread⟩ := Option.bind_eq_some_iff.mp hread
  obtain ⟨batch, hget, hread⟩ := Option.map_eq_some_iff.mp hread
  simp only [Prod.mk.injEq] at hread
  obtain ⟨hstatus, hbatch, hpending, hheld, hwaits⟩ := hread
  exact ⟨s, log, run, batch, hexec, hactive, hstatus, hbatch, hget, hpending, hheld, hwaits⟩

/-- A call of a turn that asked for nothing else is parked. -/
theorem gated_parks_sampleGatedCall : ∃ s log committed t,
    (drive "session").exec (gatedRun []) = some (s, log) ∧
      proposeEntries "session" s (7, .requestRuntimeMcpApprovals 1 [sampleGatedCall]) = .ok committed ∧
      committed.foldlM applyEvent s = .ok t := by
  obtain ⟨s, log, run, batch, hexec, hactive, hstatus, hbatch, hget, hpending, hheld, hwaits⟩ :=
    @gatedRun_waits [] [] (by decide +kernel)
  have hcall : ∀ approval ∈ [sampleGatedCall], batch.hasPending approval.callId = true := by
    intro approval hmem
    rwa [List.mem_singleton.mp hmem]
  have hunasked : ∀ approval ∈ [sampleGatedCall], ∀ record ∈ run.approvals.values,
      record.request.continuation ≠ .runtimeMcp 1 approval.callId := by
    rw [List.map_eq_nil_iff.mp hheld]
    nofun
  have hruntime : ∀ record ∈ run.pendingApprovals,
      record.request.continuation.isRuntimeMcp = true := by
    rw [List.map_eq_nil_iff.mp hwaits]
    nofun
  have hdistinct : ([sampleGatedCall].map RuntimeMcpApprovalRequest.callId).Nodup :=
    List.nodup_singleton _
  have hparks := gated_parks_iff 7 (EventSource.exec_reaches hexec) hactive hstatus hbatch hget
    (List.cons_ne_nil _ _) hdistinct hcall hunasked
  obtain ⟨committed, t, hpropose, hfold⟩ := hparks.mpr hruntime
  exact ⟨s, log, committed, t, hexec, hpropose, hfold⟩

/-- The same call is refused while the provider's approval is pending. -/
theorem gated_refused : ∃ s log run batch, Reachable "session" s log ∧ s.runs.active = some run ∧
    run.status = .running ∧ run.activeToolBatchId = some 1 ∧ run.toolBatches.get? 1 = some batch ∧
    batch.hasPending sampleGatedCall.callId = true ∧
    (∀ record ∈ run.approvals.values,
      record.request.continuation ≠ .runtimeMcp 1 sampleGatedCall.callId) ∧
    ∀ committed, proposeEntries "session" s
      (7, .requestRuntimeMcpApprovals 1 [sampleGatedCall]) ≠ .ok committed := by
  obtain ⟨s, log, run, batch, hexec, hactive, hstatus, hbatch, hget, hpending, hheld, -⟩ :=
    @gatedRun_waits [sampleApproval] [.providerMcp "request"] (by decide +kernel)
  refine ⟨s, log, run, batch, EventSource.exec_reaches hexec, hactive, hstatus, hbatch, hget, hpending,
    ?_, fun committed hpropose => ?_⟩
  · intro record hrecord heq
    have hmem := List.mem_map_of_mem (f := fun record => record.request.continuation) hrecord
    rw [hheld, heq] at hmem
    cases List.mem_singleton.mp hmem
  · have hrefused : ((drive "session").exec (gatedRun [sampleApproval])).all (fun p =>
        (proposeEntries "session" p.1
          (7, .requestRuntimeMcpApprovals 1 [sampleGatedCall])).toBool) = false := by
      decide +kernel
    rw [hexec, Option.all_some, hpropose] at hrefused
    cases hrefused

end Lightspeed.Harness
