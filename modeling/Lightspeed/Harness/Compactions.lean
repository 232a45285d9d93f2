import Lightspeed.Harness.Inputs
import Lightspeed.Harness.Rendering
import Lightspeed.Harness.Terminal

/-!
# Pending compactions

A compaction is asked for at a boundary and answered later, against the context that it was asked for. While
it is pending nothing may write context but the end of the run that owns it: `compaction_answerable` says
that the answer is taken in every state in which the compaction is still pending, unless an approval was
decided in between with a response for the provider, and `decision_orphans_compaction` is such a session.
-/

namespace Lightspeed.Harness

open Lib

variable {sessionId : SessionId} {base s t u : CoreAgentState} {input : DriveInput}
  {entry : CoreAgentEntry} {proposal : CoreAgentEventProposal}
  {proposals : List CoreAgentEventProposal} {log entries : List CoreAgentEntry} {ms : Nat}
  {run : ActiveRun} {id : ContextEntryId} {plan : ContextCompactionPlan}

/-! ## Entries that a run waits for -/

/-- No turn has consumed the entry yet, and the run's input or a steering batch of it holds it. -/
def ActiveRun.Awaits (run : ActiveRun) (id : ContextEntryId) : Prop :=
  (run.inputConsumedByTurnId = none ∧ id ∈ run.inputEntryIds) ∨
    ∃ batch ∈ run.steering, batch.consumedByTurnId = none ∧ id ∈ batch.entryIds

theorem removable_iff : validateEntryIsNotUnconsumedActiveRunInput s id = .ok () ↔
    s.ForActive fun run => ¬ run.Awaits id := by
  rw [removable_eq_ok]
  constructor
  · rintro h run hactive (⟨hconsumed, hmem⟩ | ⟨batch, hbatch, hconsumed, hmem⟩)
    · exact (h run hactive).1 hconsumed hmem
    · exact (h run hactive).2 batch hbatch hconsumed hmem
  · intro h run hactive
    refine ⟨fun hconsumed hmem => h run hactive (.inl ⟨hconsumed, hmem⟩), ?_⟩
    exact fun batch hbatch hconsumed hmem => h run hactive (.inr ⟨batch, hbatch, hconsumed, hmem⟩)

/-- A run that only took new steering waits for no more entries. -/
theorem ActiveRun.Awaits.of_steered {a b : ActiveRun} (h : b.Awaits id)
    (hconsumed : b.inputConsumedByTurnId = a.inputConsumedByTurnId)
    (hinput : b.inputEntryIds = a.inputEntryIds)
    (hsteering : ∀ batch ∈ b.steering, batch ∈ a.steering ∨ batch.entryIds = []) : a.Awaits id := by
  rcases h with ⟨hnone, hmem⟩ | ⟨batch, hbatch, hnone, hmem⟩
  · exact .inl ⟨hconsumed ▸ hnone, hinput ▸ hmem⟩
  · rcases hsteering batch hbatch with hheld | hempty
    · exact .inr ⟨batch, hheld, hnone, hmem⟩
    · rw [hempty] at hmem
      cases hmem

theorem awaits_run {seq : Nat} {event : RunEvent} (happly : applyRunEvent s seq ms event = .ok t)
    (h : s.ForActive fun run => ¬ run.Awaits id) : t.ForActive fun run => ¬ run.Awaits id := by
  cases applyRunEvent_moves happly with
  | queues hqueues hactive ht => exact fun run hrun => h run (hactive ▸ hrun)
  | starts =>
    rintro _ ⟨⟩ (⟨-, hmem⟩ | ⟨batch, hbatch, -⟩)
    · cases hmem
    · cases hbatch
  | @steers run _ _ _ hactive =>
    rintro _ ⟨⟩ hawaits
    refine h run hactive (hawaits.of_steered rfl rfl fun batch hbatch => ?_)
    refine (List.mem_append.mp hbatch).imp_right fun hnew => ?_
    rw [List.mem_singleton.mp hnew]
  | @stops run hactive =>
    rintro _ ⟨⟩ hawaits
    exact h run hactive (hawaits.of_steered rfl rfl fun batch hbatch => .inl hbatch)
  | ends =>
    intro run hrun
    simp at hrun

theorem awaits_approval {event : ApprovalEvent} (happly : applyApprovalEvent s ms event = .ok t)
    (h : s.ForActive fun run => ¬ run.Awaits id) : t.ForActive fun run => ¬ run.Awaits id := by
  obtain ⟨run, run', hactive, hjudged, ht⟩ := applyApprovalEvent_moves happly
  rw [ht]
  rintro _ ⟨⟩ hawaits
  rw [hjudged.run] at hawaits
  exact h run hactive (hawaits.of_steered rfl rfl fun batch hbatch => .inl hbatch)

/-- While a compaction is pending, no event but a context event makes the run wait for an entry. -/
theorem awaits_step (hinv : Inv s) (hw : Warrant base input s entry)
    (hpending : s.context.compaction.isPending = true) (hcontext : entry.event.isContext = false)
    (happly : applyEvent s entry = .ok t) (h : s.ForActive fun run => ¬ run.Awaits id) :
    t.ForActive fun run => ¬ run.Awaits id := by
  have hwork : ¬ ((∃ event, entry.event = .turn event) ∨ ∃ event, entry.event = .tool event) := by
    intro hwork
    rw [not_pending_of_work hinv hw happly hwork] at hpending
    cases hpending
  obtain ⟨-, m, hm, rfl⟩ := applyEvent_eq_ok.mp happly
  change m.ForActive fun run => ¬ run.Awaits id
  cases applyEventKind_moves hm with
  | run heq hm => exact awaits_run hm h
  | approval heq hm => exact awaits_approval hm h
  | turn heq hm => exact absurd (.inl ⟨_, heq⟩) hwork
  | context heq hm => rw [heq] at hcontext; cases hcontext
  | tool heq hm => exact absurd (.inr ⟨_, heq⟩) hwork
  | rests hspares hruns => exact fun run hrun => h run (hruns ▸ hrun)

/-! ## From the request on -/

/-- Whether an event makes a compaction pending. -/
def CoreAgentEvent.requestsCompaction : CoreAgentEvent → Bool
  | .context (.compactionRequested _ _ _) => true
  | _ => false

/-- Whether an event finishes or abandons a compaction. -/
def CoreAgentEvent.finishesCompaction : CoreAgentEvent → Bool
  | .context (.compactionFinished _ _ _ _ _) => true
  | _ => false

theorem idle_step (hinv : EntriesInv s) (hevent : entry.event.requestsCompaction = false)
    (happly : applyEvent s entry = .ok t)
    (h : s.context.compaction.isPending = false ∨ entry.event.finishesCompaction = true) :
    t.context.compaction.isPending = false := by
  cases hcontext : entry.event.isContext with
  | false =>
    rw [(applyEvent_sameContext hcontext happly).compaction]
    refine h.resolve_right fun hfinishes => ?_
    cases hkind : entry.event with
    | context event => rw [hkind] at hcontext; cases hcontext
    | _ => rw [hkind] at hfinishes; cases hfinishes
  | true =>
    obtain ⟨-, m, hm, rfl⟩ := applyEvent_eq_ok.mp happly
    cases hkind : entry.event with
    | context event =>
      rw [applyEventKind, hkind] at hm
      change m.context.compaction.isPending = false
      rw [hkind] at hevent h
      cases event with
      | compactionRequested baseRevision trigger plan => cases hevent
      | compactionQueued baseRevision =>
        obtain ⟨-, -, -, rfl⟩ := compactionQueued_eq_ok.mp hm
        rfl
      | compactionFinished baseRevision status failureRef usage calls =>
        obtain ⟨-, -, -, rfl⟩ := compactionFinished_eq_ok.mp hm
        rfl
      | _ =>
        have hphase := compaction_of_write hinv hm trivial
        rw [hphase]
        exact h.resolve_right Bool.false_ne_true
    | _ => rw [hkind] at hcontext; cases hcontext

/-- An append that finishes a compaction and requests none leaves none pending. -/
theorem idle_of_finished (hinv : EntriesInv s) (hcommit : entries.foldlM applyEvent s = .ok t)
    (hrequest : ∀ entry ∈ entries, entry.event.requestsCompaction = false)
    (h : s.context.compaction.isPending = false ∨
      ∃ entry ∈ entries, entry.event.finishesCompaction = true) :
    t.context.compaction.isPending = false := by
  induction entries generalizing s with
  | nil =>
    rw [List.foldlM_nil, pure_eq_ok] at hcommit
    rcases h with h | ⟨entry, hmem, -⟩
    · exact hcommit ▸ h
    · cases hmem
  | cons first rest ih =>
    obtain ⟨m, hm, hrest⟩ := foldlM_cons_eq_ok.mp hcommit
    refine ih (applyEvent_entriesInv hinv hm) hrest
      (fun entry hmem => hrequest entry (List.mem_cons_of_mem _ hmem)) ?_
    have hfirst := hrequest first List.mem_cons_self
    rcases h with h | ⟨entry, hmem, hfinishes⟩
    · exact .inl (idle_step hinv hfirst hm (.inl h))
    · rcases List.mem_cons.mp hmem with rfl | hmem
      · exact .inl (idle_step hinv hfirst hm (.inr hfinishes))
      · exact .inr ⟨entry, hmem, hfinishes⟩

theorem requestsCompaction_stored (event : CoreAgentEvent) :
    event.stored.requestsCompaction = event.requestsCompaction := by
  cases event with
  | context event => cases event <;> rfl
  | _ => rfl

theorem isContext_stored (event : CoreAgentEvent) : event.stored.isContext = event.isContext := by
  cases event <;> rfl

theorem finishesCompaction_stored (event : CoreAgentEvent) :
    event.stored.finishesCompaction = event.finishesCompaction := by
  cases event with
  | context event => cases event <;> rfl
  | _ => rfl

/-- What an append's proposals do not request, its entries do not. -/
theorem uncommitted_requests (s : CoreAgentState) (ms : Nat)
    (h : ∀ proposal ∈ proposals, proposal.event.requestsCompaction = false) :
    ∀ entry ∈ uncommitted s ms proposals, entry.event.requestsCompaction = false := by
  intro entry hentry
  rcases mem_uncommitted hentry with ⟨proposal, hmem, heq⟩ | ⟨id, heq⟩
  · rw [heq, requestsCompaction_stored]
    exact h proposal hmem
  · rw [heq]
    rfl

/-- A plan requests a compaction, and nothing else, or requests none. -/
theorem planned_requests (hplan : Planned s proposals) :
    (∀ proposal ∈ proposals, proposal.event.requestsCompaction = false) ∨
      ∃ trigger tokens, proposals = [compactionRequestedProposal s trigger tokens] := by
  cases hplan with
  | startCalls | cancelCalls =>
    refine .inl fun proposal hmem => ?_
    obtain ⟨call, -, rfl⟩ := List.mem_map.mp hmem
    rfl
  | completeBatch =>
    refine .inl fun proposal hmem => ?_
    rcases mem_batchProposals hmem with rfl | rfl <;> rfl
  | pruneContext hopen hcompaction hproposal =>
    obtain ⟨-, rfl⟩ := providerCompactedPrune_eq_some hproposal
    exact .inl fun proposal hmem => List.mem_singleton.mp hmem ▸ rfl
  | requestCompaction => exact .inr ⟨_, _, rfl⟩
  | _ => exact .inl fun proposal hmem => List.mem_singleton.mp hmem ▸ rfl

/-- Whether an event is one that only a planner proposes, or the caller of a compaction. -/
def CoreAgentEvent.isPlannersOwn : CoreAgentEvent → Bool
  | .turn (.started _ _) | .context (.compactionRequested _ _ _) | .run (.completed _ _) => true
  | .run (.failed _ failure) => failure.kind == .limitExceeded
  | _ => false

/-- Whether an event asks for an approval. -/
def CoreAgentEvent.requestsApproval : CoreAgentEvent → Bool
  | .approval (.requested _) => true
  | _ => false

/-- Whether an event can come of few inputs only. -/
def CoreAgentEvent.isOwned (event : CoreAgentEvent) : Bool :=
  event.isPlannersOwn || event.requestsApproval

theorem isOwned_of_quiet {event : CoreAgentEvent} (h : event.isQuiet = true) :
    event.isOwned = false := by
  cases event with
  | turn event | context event | run event | approval event => cases event <;> first | rfl | cases h
  | _ => rfl

theorem isOwned_of_result {scope : ResultScope} {event : CoreAgentEvent}
    (h : ResultEvent s scope event) : event.isOwned = false := by
  cases h <;> first | rfl | exact isOwned_of_quiet ‹_›

/-- What a generation's result proposes: an overflow leaves it neither entries nor requests. -/
def LlmGenerationResult.answer (s : CoreAgentState) (result : LlmGenerationResult) :
    List CoreAgentEventProposal :=
  generationProposals s result
    (if result.facts.finish == .contextLimit then []
      else contextEntriesFromLlmResult s result (turnOutcomeForGenerationResult result))
    (if result.facts.finish == .contextLimit then [] else result.facts.approvalRequests)

/-- Only a planning step starts a turn, ends a run at its turn limit or, but for a caller's, asks for a
compaction. Only a generation's result, or the host for calls of the open batch, asks for approvals. -/
theorem proposed_owned (hproposed : Proposed sessionId s input proposals) :
    (∀ proposal ∈ proposals, proposal.event.isOwned = false) ∨
      (input = .nextAction ∧ Planned s proposals) ∨
      proposals = [compactionRequestedProposal s .manual none] ∨
      (∃ (result : LlmGenerationResult) (run : ActiveRun), s.runs.active = some run ∧
        run.activeTurnId = some result.turnId ∧
        proposals = result.answer s) ∨
      ∃ run batchId, s.runs.active = some run ∧ run.activeToolBatchId = some batchId ∧
        ∀ proposal ∈ proposals, ∃ event, proposal.event = .approval event := by
  cases hproposed with
  | quiet hquiet =>
    exact .inl fun proposal hmem => isOwned_of_quiet (hquiet proposal hmem).1
  | plan hplan => exact .inr (.inl ⟨rfl, hplan⟩)
  | cancelRun hactive hstatus =>
    refine .inl fun proposal hmem => ?_
    rcases mem_cancelRunProposals hmem with heq | ⟨_, heq⟩ <;> rw [heq] <;> rfl
  | decide hactive hrun hrecord hstatus hresponse hunparked =>
    refine .inl fun proposal hmem => ?_
    rcases mem_decideProposals hunparked hmem with rfl | rfl | rfl <;> rfl
  | edit hpending hedit =>
    refine .inl fun proposal hmem => ?_
    rw [List.mem_singleton.mp hmem]
    cases hedit <;> rfl
  | compact hpending hqueued hcovers =>
    unfold manualCompactionRequestedProposal
    split_ifs
    · exact .inr (.inr (.inl rfl))
    · exact .inl fun proposal hmem => List.mem_singleton.mp hmem ▸ rfl
  | forceClose =>
    refine .inl fun proposal hmem => ?_
    rcases List.mem_append.mp hmem with hmem | hmem
    · rcases forceClose_event hmem with heq | ⟨_, _, heq⟩ | ⟨_, heq⟩ | ⟨_, heq⟩ | ⟨_, heq⟩ <;>
        rw [heq] <;> rfl
    · rw [List.mem_singleton.mp hmem]
      rfl
  | forceCancel hactive hclosing =>
    refine .inl fun proposal hmem => ?_
    rcases mem_forceCancelProposals hmem with rfl | rfl <;> rfl
  | failRun hactive hfail =>
    refine .inl fun proposal hmem => ?_
    rcases (mem_failRunProposals hfail).2 proposal hmem with
      ⟨_, _, heq, -⟩ | ⟨_, heq⟩ | heq <;> rw [heq] <;> rfl
  | unpark hactive hparked hrun hbatch hclaim hresult hmatches hcompleted =>
    refine .inl fun proposal hmem => ?_
    rcases mem_unparkProposals hmem with ⟨_, rfl⟩ | rfl | hmem
    · rfl
    · rfl
    · exact isOwned_of_result ((toolCallCompletedProposals_spec hcompleted).1 proposal hmem)
  | generation hactive hrun hturn => exact .inr (.inr (.inr (.inl ⟨_, _, hactive, hturn, rfl⟩)))
  | compacted hplan hstatus =>
    refine .inl fun proposal hmem => ?_
    simp only [List.mem_cons, List.not_mem_nil, or_false] at hmem
    rcases hmem with rfl | rfl | rfl <;> rfl
  | overflowed hplan hstatus hactive htrigger =>
    refine .inl fun proposal hmem => ?_
    rcases mem_overflowedProposals hmem with rfl | rfl | rfl <;> rfl
  | results hmatches hproposals | codeResults hcall hstatus hparent hproposals =>
    exact .inl fun proposal hmem =>
      isOwned_of_result ((toolCallCompletedProposals_spec hproposals).1 proposal hmem)
  | park hactive hid hbatch hmatches hvalid hcompleted =>
    refine .inl fun proposal hmem => ?_
    rcases List.mem_append.mp hmem with hmem | hmem
    · exact isOwned_of_result ((toolCallCompletedProposals_spec hcompleted).1 proposal hmem)
    · rw [List.mem_singleton.mp hmem]
      rfl
  | approve hactive hid hbatch hrequested =>
    refine .inr (.inr (.inr (.inr ⟨_, _, hactive, hid, fun proposal hmem => ?_⟩)))
    rcases mem_approveProposals hrequested hmem with ⟨_, heq⟩ | heq <;> exact ⟨_, heq⟩
  | _ => exact .inl fun proposal hmem => List.mem_singleton.mp hmem ▸ rfl

theorem isPlannersOwn_of_isOwned {event : CoreAgentEvent} (h : event.isOwned = false) :
    event.isPlannersOwn = false := (Bool.or_eq_false_iff.mp h).1

theorem proposed_plans (hproposed : Proposed sessionId s input proposals) :
    (∀ proposal ∈ proposals, proposal.event.isPlannersOwn = false) ∨
      (input = .nextAction ∧ Planned s proposals) ∨
      proposals = [compactionRequestedProposal s .manual none] := by
  rcases proposed_owned hproposed with hnone | hplan | hmanual | ⟨result, run, -, -, rfl⟩ |
    ⟨run, batchId, -, -, happrovals⟩
  · exact .inl fun proposal hmem => isPlannersOwn_of_isOwned (hnone proposal hmem)
  · exact .inr (.inl hplan)
  · exact .inr (.inr hmanual)
  · refine .inl fun proposal hmem => ?_
    rcases mem_generationProposals hmem with heq | heq | ⟨_, heq⟩ | heq <;> rw [heq] <;> rfl
  · refine .inl fun proposal hmem => ?_
    obtain ⟨event, heq⟩ := happrovals proposal hmem
    rw [heq]
    rfl

theorem requestsCompaction_of_other {event : CoreAgentEvent} (h : event.isPlannersOwn = false) :
    event.requestsCompaction = false := by
  cases event with
  | context event => cases event <;> first | rfl | cases h
  | _ => rfl

/-- An append requests a compaction, and nothing else, or requests none. -/
theorem proposed_requests (hproposed : Proposed sessionId s input proposals) :
    (∀ proposal ∈ proposals, proposal.event.requestsCompaction = false) ∨
      ∃ trigger tokens, proposals = [compactionRequestedProposal s trigger tokens] := by
  rcases proposed_plans hproposed with hnone | ⟨-, hplan⟩ | rfl
  · exact .inl fun proposal hmem => requestsCompaction_of_other (hnone proposal hmem)
  · exact planned_requests hplan
  · exact .inr ⟨_, _, rfl⟩

/-- Whether an input ends the active run, or closes the session over it. -/
def DriveInput.recovers : DriveInput → Bool
  | .admitCommand (.failRun _ _) | .admitCommand (.forceCancelRun _)
  | .admitCommand (.closeSession true) => true
  | _ => false

/-- Whether an input decides an approval with a response for the provider. -/
def DriveInput.respondsToApproval : DriveInput → Bool
  | .admitCommand (.decideApproval command) => command.response.isSome
  | _ => false

/-- While a compaction is pending, a plan writes no context or gives the compaction up. -/
theorem planned_while_pending (hinv : Inv s) (hpending : s.context.compaction.isPending = true)
    (hplan : Planned s proposals) :
    (∀ proposal ∈ proposals, proposal.event.isContext = false) ∨
      ∃ proposal ∈ proposals, proposal.event.finishesCompaction = true := by
  have hnot : s.context.compaction.isPending ≠ false := by
    rw [hpending]
    nofun
  cases hplan with
  | startCalls | cancelCalls =>
    refine .inl fun proposal hmem => ?_
    obtain ⟨call, -, rfl⟩ := List.mem_map.mp hmem
    rfl
  | completeBatch hopen hactive hstatus hturn hid hbatch hparked hterminal hentries =>
    -- The run of a pending compaction has no open batch.
    have hidle := hinv.compaction.boundary hpending _ hactive
    rw [hidle.batch] at hid
    cases hid
  | pruneContext hopen hcompaction hproposal
  | applyInput hopen hactive hstatus hcompaction hentries
  | applySteering hopen hactive hstatus hcompaction => exact absurd hcompaction hnot
  | requestCompaction hopen hboundary => exact absurd (compactionSafeBoundary_iff.mp hboundary).1 hnot
  | abandonCompaction => exact .inr ⟨_, List.mem_singleton_self _, rfl⟩
  | _ => exact .inl fun proposal hmem => List.mem_singleton.mp hmem ▸ rfl

/-- While a compaction is pending, an append writes no context or finishes the compaction, unless it ends
the run from outside or answers the provider. -/
theorem proposed_while_pending (hinv : Inv s) (hpending : s.context.compaction.isPending = true)
    (hrecovers : input.recovers = false) (hresponds : input.respondsToApproval = false)
    (hproposed : Proposed sessionId s input proposals) :
    (∀ proposal ∈ proposals, proposal.event.isContext = false) ∨
      ∃ proposal ∈ proposals, proposal.event.finishesCompaction = true := by
  have hnot : s.context.compaction.isPending ≠ false := by
    rw [hpending]
    nofun
  cases hproposed with
  | quiet hquiet => exact .inl fun proposal hmem => isContext_of_quiet (hquiet proposal hmem).1
  | plan hplan => exact planned_while_pending hinv hpending hplan
  | cancelRun hactive hstatus =>
    refine .inl fun proposal hmem => ?_
    rcases mem_cancelRunProposals hmem with heq | ⟨_, heq⟩ <;> rw [heq] <;> rfl
  | decide hactive hrun hrecord hstatus hresponse hunparked =>
    refine .inl fun proposal hmem => ?_
    rename_i command _ _ _
    have hnone : command.response = none := by
      simpa [DriveInput.respondsToApproval] using hresponds
    rw [hnone, List.cons_append, List.mem_cons, List.mem_append, hunparked] at hmem
    rcases hmem with rfl | hmem | hmem
    · rfl
    · split_ifs at hmem
      · rw [List.mem_singleton.mp hmem]
        rfl
      · cases hmem
    · cases hmem
  | edit hidle hedit | compact hidle hqueued hcovers => exact absurd hidle hnot
  | forceClose | forceCancel hactive hclosing | failRun hactive hfail => cases hrecovers
  | unpark hactive hparked hrun hbatch hclaim hresult hmatches hcompleted =>
    refine .inl fun proposal hmem => ?_
    rcases mem_unparkProposals hmem with ⟨_, rfl⟩ | rfl | hmem
    · rfl
    · rfl
    · exact isContext_of_result ((toolCallCompletedProposals_spec hcompleted).1 proposal hmem)
  | generation hactive hrun hturn =>
    have hidle := hinv.compaction.boundary hpending _ hactive
    rw [hidle.turn] at hturn
    cases hturn
  | compacted hplan hstatus =>
    exact .inr ⟨_, List.mem_cons_of_mem _ (List.mem_cons_of_mem _ List.mem_cons_self), rfl⟩
  | compactionFailed hplan hrun => exact .inr ⟨_, List.mem_singleton_self _, rfl⟩
  | overflowed hplan hstatus hactive htrigger => exact .inr ⟨_, List.mem_cons_self, rfl⟩
  | results hmatches hproposals | codeResults hcall hstatus hparent hproposals =>
    exact .inl fun proposal hmem =>
      isContext_of_result ((toolCallCompletedProposals_spec hproposals).1 proposal hmem)
  | park hactive hid hbatch hmatches hvalid hcompleted =>
    refine .inl fun proposal hmem => ?_
    rcases List.mem_append.mp hmem with hmem | hmem
    · exact isContext_of_result ((toolCallCompletedProposals_spec hcompleted).1 proposal hmem)
    · rw [List.mem_singleton.mp hmem]
      rfl
  | approve hactive hid hbatch hrequested =>
    refine .inl fun proposal hmem => ?_
    rcases mem_approveProposals hrequested hmem with ⟨_, heq⟩ | heq <;> rw [heq] <;> rfl
  | _ => exact .inl fun proposal hmem => List.mem_singleton.mp hmem ▸ rfl

/-- What is known of a pending compaction: it covers entries that are active and may leave context. -/
structure CoverInv (s : CoreAgentState) (plan : ContextCompactionPlan) : Prop where
  pending : s.context.compaction.pendingPlan = some plan
  some : plan.coveredEntryIds ≠ []
  once : plan.coveredEntryIds.Nodup
  active : ∀ id ∈ plan.coveredEntryIds, ∃ entry ∈ s.context.entries, entry.entryId = id
  free : ∀ id ∈ plan.coveredEntryIds, s.ForActive fun run => ¬ run.Awaits id

/-- The append that makes a compaction pending. -/
theorem coverInv_of_request (hinv : Inv s) (hidle : s.context.compaction.isPending = false)
    (hproposed : Proposed sessionId s input proposals)
    (hcommit : (uncommitted s ms proposals).foldlM applyEvent s = .ok t)
    (hpending : t.context.compaction.isPending = true) : ∃ plan, CoverInv t plan := by
  rcases proposed_requests hproposed with hnone | ⟨trigger, tokens, rfl⟩
  · have hstays :=
      idle_of_finished hinv.entries hcommit (uncommitted_requests s ms hnone) (.inl hidle)
    rw [hpending] at hstays
    cases hstays
  · rw [uncommitted_eq fun _ hmem => List.mem_singleton.mp hmem ▸ rfl] at hcommit
    obtain ⟨m, hm, hnil⟩ := commits_cons.mp hcommit
    obtain rfl := commits_nil.mp hnil
    obtain ⟨-, -, -, -, hsome, -, rfl⟩ := compactionRequested_eq_ok.mp hm
    refine ⟨_, rfl, hsome, standalonePrefixIds_nodup hinv.entries, fun id hid => ?_, ?_⟩
    · obtain ⟨covered, hmem, rfl⟩ := List.mem_map.mp hid
      exact ⟨covered, (mem_standalonePrefixEntries hmem).1, rfl⟩
    · intro id hid b hb hawaits
      obtain ⟨covered, hmem, rfl⟩ := List.mem_map.mp hid
      have hfree := removable_iff.mp (isRemovable_iff.mp (mem_standalonePrefixEntries hmem).2)
      obtain ⟨a, ha, rfl⟩ := Option.map_eq_some_iff.mp hb
      have hsame : ∀ trigger, (recordCompactionAttempt s trigger a).inputConsumedByTurnId =
          a.inputConsumedByTurnId ∧
          (recordCompactionAttempt s trigger a).inputEntryIds = a.inputEntryIds ∧
          (recordCompactionAttempt s trigger a).steering = a.steering := by
        intro trigger
        unfold recordCompactionAttempt
        split <;> split_ifs <;> exact ⟨rfl, rfl, rfl⟩
      obtain ⟨hconsumed, hinput, hsteering⟩ := hsame trigger
      exact hfree a ha (hawaits.of_steered hconsumed hinput fun batch hbatch =>
        .inl (hsteering ▸ hbatch))

/-- An append that leaves a compaction pending leaves the context, and what is known of the compaction,
as they were. -/
theorem coverInv_append (hinv : Inv s) (hsettled : s.ForActive RunSettled) (h : CoverInv s plan)
    (hrecovers : input.recovers = false) (hresponds : input.respondsToApproval = false)
    (hproposed : Proposed sessionId s input proposals)
    (hcommit : (uncommitted s ms proposals).foldlM applyEvent s = .ok t)
    (hpending : t.context.compaction.isPending = true) :
    CoverInv t plan ∧ t.context.revision = s.context.revision := by
  have hbefore := isPending_of_pendingPlan h.pending
  rcases proposed_while_pending hinv hbefore hrecovers hresponds hproposed with hfree | hfinished
  · have hother : ∀ entry ∈ uncommitted s ms proposals, entry.event.isContext = false := by
      intro entry hentry
      rcases mem_uncommitted hentry with ⟨proposal, hmem, heq⟩ | ⟨id, heq⟩
      · rw [heq, isContext_stored]
        exact hfree proposal hmem
      · rw [heq]
        rfl
    have hkept := append_preserves hinv hsettled hproposed (P := fun u => CoverInv u plan ∧
      u.context.revision = s.context.revision) ?_ hcommit ⟨h, rfl⟩
    · exact hkept.2
    · rintro u entry v hu ⟨hcover, hrevision⟩ hw hmem hv
      have hsame := applyEvent_sameContext (hother entry hmem) hv
      refine ⟨⟨?_, hcover.some, hcover.once, ?_, fun id hid => ?_⟩, hsame.revision.trans hrevision⟩
      · rw [hsame.compaction]
        exact hcover.pending
      · rw [hsame.entries]
        exact hcover.active
      · exact awaits_step hu hw (isPending_of_pendingPlan hcover.pending) (hother entry hmem) hv
          (hcover.free id hid)
  · -- The append finishes the compaction, so that it is not pending afterwards.
    obtain ⟨proposal, hmem, hfinishes⟩ := hfinished
    rcases proposed_requests hproposed with hnone | ⟨trigger, tokens, rfl⟩
    · obtain ⟨entry, hentry, heq⟩ := exists_uncommitted s ms hmem
      have hidle := idle_of_finished hinv.entries hcommit (uncommitted_requests s ms hnone)
        (.inr ⟨entry, hentry, by rw [heq, finishesCompaction_stored]; exact hfinishes⟩)
      rw [hpending] at hidle
      cases hidle
    · rw [List.mem_singleton.mp hmem] at hfinishes
      cases hfinishes

/-! ## Answers to a compaction -/

/-- A result that is complete: a summary when it succeeded, and nothing to put into context when it
failed. -/
structure ContextCompactionResult.WellFormed (result : ContextCompactionResult) : Prop where
  summary : result.status = .succeeded → result.contextEntries ≠ [] ∧ result.failureRef = none
  nothing : result.status = .failed → result.contextEntries = []

theorem compaction_plain (s : CoreAgentState) (inputs : List ContextEntryInput) :
    PlainAfter s.idCursors.lastContextEntryId (compactionEntries s inputs) := by
  refine plainAfter_inputs fun sourced hmem => ?_
  obtain ⟨_, -, rfl⟩ := List.mem_map.mp hmem
  exact ⟨rfl, rfl⟩

/-- What a compaction covered is replaced by its summary. -/
theorem summary_commits {inputs : List ContextEntryInput} (hinv : Inv s) (h : CoverInv s plan)
    (hsome : inputs ≠ []) (usage : Option LlmUsage) (calls : Nat) :
    ∃ t, Commits ms s [sessionProposal (.context
        (.entriesRemoved s.context.revision plan.coveredEntryIds .providerCompacted)),
      sessionProposal (.context
        (.entriesApplied (s.context.revision + 1) (compactionEntries s inputs))),
      sessionProposal (.context
        (.compactionFinished (s.context.revision + 2) .succeeded none usage calls))] t := by
  let kept := s.context.entries.filter (fun entry => entry.entryId ∉ plan.coveredEntryIds)
  let removed := bumpContextRevision (s.setEntries kept)
  have hremoved : applyContextEvent s (.entriesRemoved s.context.revision plan.coveredEntryIds
      .providerCompacted) = .ok removed := by
    refine entriesRemoved_eq_ok.mpr ⟨rfl, h.some, h.once, fun id hid => ?_, fun id hid => ?_, rfl⟩
    · exact removable_iff.mpr (h.free id hid)
    · obtain ⟨entry, hmem, heq⟩ := h.active id hid
      refine List.find?_isSome.mpr ⟨entry, hmem, ?_⟩
      exact beq_iff_eq.mpr heq
  let first := s.reducedAt removed
  have hkept : EntriesInv (s.setEntries kept) := hinv.entries.of_sublist List.filter_sublist
  have hentries : EntriesInv first := ⟨hkept.sorted, hkept.bound⟩
  have hplain : PlainAfter first.idCursors.lastContextEntryId
      ((compactionEntries s inputs).map ContextEntry.stored) := (compaction_plain s inputs).stored
  have hne : (compactionEntries s inputs).map ContextEntry.stored ≠ [] := by
    cases inputs with
    | nil => exact absurd rfl hsome
    | cons input rest => exact List.cons_ne_nil _ _
  have happlied := entriesApplied_plain hentries hne hplain
  let second := first.reducedAt (bumpContextRevision
    (first.appendEntries ((compactionEntries s inputs).map ContextEntry.stored)))
  have hpending : second.context.compaction.isPending = true := isPending_of_pendingPlan h.pending
  have hfinished : applyContextEvent second (.compactionFinished (s.context.revision + 2) .succeeded
      none usage calls) = .ok (finishCompaction second .succeeded none usage) :=
    compactionFinished_eq_ok.mpr ⟨rfl, by simp, .inl hpending, rfl⟩
  exact ⟨_, commits_cons.mpr ⟨removed, hremoved, commits_cons.mpr ⟨_, happlied,
    commits_cons.mpr ⟨_, hfinished, commits_nil.mpr rfl⟩⟩⟩⟩

/-- A failed compaction is finished, and whatever the run that overflowed still owes is taken. -/
theorem failure_commits (hinv : Inv s) (hinputs : InputsInv s) (hsettled : SettledInv s)
    (h : CoverInv s plan) (hactive : s.runs.active = some run) (failureRef : Option BlobRef)
    (usage : Option LlmUsage) (calls : Nat) :
    ∃ t, Commits ms s (withRunTerminalSideEffects s (sessionProposal (.context
        (.compactionFinished s.context.revision .failed failureRef usage calls)) ::
      overflowFailureProposals s run (s.context.revision + 1) failureRef)) t := by
  let finished := finishCompaction s .failed failureRef usage
  have hfinished : applyContextEvent s (.compactionFinished s.context.revision .failed failureRef
      usage calls) = .ok finished :=
    compactionFinished_eq_ok.mpr
      ⟨rfl, by simp, .inl (isPending_of_pendingPlan h.pending), rfl⟩
  let first := s.reducedAt finished
  have hentries : EntriesInv first := ⟨hinv.entries.sorted, hinv.entries.bound⟩
  have hmap : ∃ charge : ActiveRun → ActiveRun, first.runs.active = s.runs.active.map charge ∧
      ∀ run, (charge run).runId = run.runId ∧ (charge run).steering = run.steering := by
    refine ⟨_, rfl, fun run => ?_⟩
    exact ⟨rfl, rfl⟩
  obtain ⟨charge, hmap, hcharge⟩ := hmap
  have hlater : first.runs.active = some (charge run) := by rw [hmap, hactive, Option.map_some]
  -- The run writes its steering down, where it still accepts any, and is there to be failed.
  obtain ⟨u, ending, hsteering, hending, hid, hpromises⟩ : ∃ u ending,
      Commits ms first (if run.status = .running ∧ missingSteeringEntries s ≠ [] then
        [runProposal run.runId (.context
          (.entriesApplied (s.context.revision + 1) (missingSteeringEntries s)))] else []) u ∧
      u.runs.active = some ending ∧ ending.runId = run.runId ∧ u.promises = s.promises := by
    split_ifs with hwrites
    · obtain ⟨v, hv⟩ := missingSteering_applied hinv.run hinputs hactive hentries hlater
        (hcharge run).1 (hcharge run).2 hwrites.2
      have hframe := applyContextEvent_frame hentries hv
      obtain ⟨ending, hending, hkept⟩ := hframe.stays hlater
      refine ⟨first.reducedAt v, ending, commits_cons.mpr ⟨v, hv, commits_nil.mpr rfl⟩, hending,
        hkept.same.runId.trans (hcharge run).1, ?_⟩
      have hpromises : v.promises = first.promises := by rw [hframe.state]
      exact hpromises
    · exact ⟨first, charge run, commits_nil.mpr rfl, hlater, (hcharge run).1, rfl⟩
  let failure := runFailure .contextFailure failureRef contextLimitFailureContent
  have hend : applyRunEvent u u.nextSeq ms (.failed run.runId failure) =
      .ok (u.finishRun ending { status := .failed, failure := some failure } u.nextSeq ms) :=
    failed_eq_ok.mpr ⟨ending, hending, hid, rfl⟩
  unfold overflowFailureProposals
  dsimp only
  rw [← List.cons_append]
  refine terminal_commits hsettled (fun proposal hmem => ?_) rfl
    (commits_cons.mpr ⟨finished, hfinished, hsteering⟩) hpromises hend
  rcases List.mem_cons.mp hmem with rfl | hmem
  · rfl
  · split_ifs at hmem
    · rw [List.mem_singleton.mp hmem]
      rfl
    · cases hmem

/-- The proposals for a complete or incomplete result that carries the revision of the context. -/
theorem resumed_iff {result : ContextCompactionResult} (ms : Nat) (h : CoverInv s plan)
    (hsession : result.sessionId = sessionId)
    (hrevision : result.contextRevision = s.context.revision) :
    inputProposals sessionId s ms (.resumeContextCompaction result) = .ok proposals ↔
      (result.status = .succeeded ∧ result.contextEntries ≠ [] ∧
        proposals = [sessionProposal (.context
            (.entriesRemoved s.context.revision plan.coveredEntryIds .providerCompacted)),
          sessionProposal (.context (.entriesApplied (s.context.revision + 1)
            (compactionEntries s result.contextEntries))),
          sessionProposal (.context (.compactionFinished (s.context.revision + 2) .succeeded
            result.failureRef result.usage result.calls))]) ∨
      (result.status = .failed ∧ result.contextEntries = [] ∧
        proposals = sessionProposal (.context (.compactionFinished s.context.revision .failed
            result.failureRef result.usage result.calls)) ::
          match s.runs.active with
          | some run => if plan.trigger = .contextLimit then
              overflowFailureProposals s run (s.context.revision + 1) result.failureRef else []
          | none => []) := by
  simp only [inputProposals, driven_eq_ok, resumedCompactionProposals, contextCompactionResultProposals,
    bind_eq_ok, require_eq_ok, orError_eq_ok, exists_unit, hsession, hrevision, h.pending, true_and,
    Option.some.injEq, exists_eq_left']
  cases hstatus : result.status with
  | succeeded =>
    simp [eq_comm (a := proposals)]
  | failed =>
    simp only [reduceCtorEq, false_and, not_false_eq_true, true_and, false_or, ne_eq, not_not]
    cases s.runs.active with
    | none => simp [eq_comm (a := proposals)]
    | some run => split_ifs <;> simp [eq_comm (a := proposals)]

/-- A result for the context that a pending compaction was asked for is taken when it is complete. -/
theorem result_taken_iff {result : ContextCompactionResult} (ms : Nat) (hinv : Inv s)
    (hinputs : InputsInv s) (hsettled : SettledInv s) (h : CoverInv s plan)
    (hsession : result.sessionId = sessionId)
    (hrevision : result.contextRevision = s.context.revision) :
    (∃ committed t, proposeEntries sessionId s (ms, .resumeContextCompaction result) = .ok committed ∧
      committed.foldlM applyEvent s = .ok t) ↔ result.WellFormed := by
  constructor
  · rintro ⟨committed, t, hpropose, hfold⟩
    obtain ⟨proposals, hproposals, hcommit⟩ := propose_iff.mp ⟨committed, hpropose, hfold⟩
    rcases (resumed_iff ms h hsession hrevision).mp hproposals with
      ⟨hstatus, hsome, rfl⟩ | ⟨hstatus, hnone, rfl⟩
    · refine ⟨fun _ => ⟨hsome, ?_⟩, fun hfailed => by rw [hstatus] at hfailed; cases hfailed⟩
      rw [withRunTerminalSideEffects, runTerminalSideEffects_eq] at hcommit
      · obtain ⟨_, -, hrest⟩ := commits_cons.mp hcommit
        obtain ⟨_, -, hrest⟩ := commits_cons.mp hrest
        obtain ⟨_, hfinished, -⟩ := commits_cons.mp hrest
        have hfinished' : applyContextEvent _ (.compactionFinished (s.context.revision + 2) .succeeded
            result.failureRef result.usage result.calls) = .ok _ := hfinished
        obtain ⟨-, hsucceeded, -⟩ := compactionFinished_eq_ok.mp hfinished'
        simpa using hsucceeded
      · intro proposal hmem
        simp only [List.mem_cons, List.not_mem_nil, or_false] at hmem
        rcases hmem with rfl | rfl | rfl <;> rfl
    · refine ⟨fun hsucceeded => ?_, fun _ => hnone⟩
      rw [hstatus] at hsucceeded
      cases hsucceeded
  · intro hwell
    have hcommits : ∃ t proposals, inputProposals sessionId s ms (.resumeContextCompaction result) =
        .ok proposals ∧ Commits ms s (withRunTerminalSideEffects s proposals) t := by
      cases hstatus : result.status with
      | succeeded =>
        obtain ⟨hsome, hnone⟩ := hwell.summary hstatus
        have hproposals := (resumed_iff ms h hsession hrevision).mpr (.inl ⟨hstatus, hsome, rfl⟩)
        obtain ⟨t, ht⟩ := summary_commits hinv h hsome result.usage result.calls
        refine ⟨t, _, hproposals, ?_⟩
        rw [withRunTerminalSideEffects, runTerminalSideEffects_eq, hnone]
        · exact ht
        · intro proposal hmem
          simp only [List.mem_cons, List.not_mem_nil, or_false] at hmem
          rcases hmem with rfl | rfl | rfl <;> rfl
      | failed =>
        have hproposals := (resumed_iff ms h hsession hrevision).mpr
          (.inr ⟨hstatus, hwell.nothing hstatus, rfl⟩)
        -- Without an overflow to recover, the compaction is only finished.
        have hfinished : ∃ t, Commits ms s (withRunTerminalSideEffects s [sessionProposal (.context
            (.compactionFinished s.context.revision .failed result.failureRef result.usage
              result.calls))]) t := by
          have htaken : applyContextEvent s (.compactionFinished s.context.revision .failed
              result.failureRef result.usage result.calls) =
                .ok (finishCompaction s .failed result.failureRef result.usage) :=
            compactionFinished_eq_ok.mpr
              ⟨rfl, by simp, .inl (isPending_of_pendingPlan h.pending), rfl⟩
          exact ⟨_, commits_cons.mpr ⟨_, htaken, commits_nil.mpr rfl⟩⟩
        cases hactive : s.runs.active with
        | none =>
          rw [hactive] at hproposals
          obtain ⟨t, ht⟩ := hfinished
          exact ⟨t, _, hproposals, ht⟩
        | some run =>
          rw [hactive] at hproposals
          by_cases htrigger : plan.trigger = .contextLimit
          · simp only [if_pos htrigger] at hproposals
            obtain ⟨t, ht⟩ := failure_commits hinv hinputs hsettled h hactive result.failureRef
              result.usage result.calls
            exact ⟨t, _, hproposals, ht⟩
          · simp only [if_neg htrigger] at hproposals
            obtain ⟨t, ht⟩ := hfinished
            exact ⟨t, _, hproposals, ht⟩
    obtain ⟨t, proposals, hproposals, hcommit⟩ := hcommits
    obtain ⟨committed, hpropose, hfold⟩ := propose_iff.mpr ⟨proposals, hproposals, hcommit⟩
    exact ⟨committed, t, hpropose, hfold⟩

/-! ## Runs with a pending compaction -/

/-- A compaction that stays pending keeps what it covers, and the revision that it was asked at. -/
theorem pending_window {before window : List (CoreAgentState × Nat × DriveInput)}
    {s₀ : CoreAgentState} {request : Nat × DriveInput}
    (h : EventSource.Trace (drive sessionId) (before ++ (s₀, request) :: window) s log)
    (hidle : s₀.context.compaction.isPending = false)
    (hpending : ∀ step ∈ window, step.1.context.compaction.isPending = true)
    (hlast : s.context.compaction.isPending = true)
    (hrecovers : ∀ step ∈ window, step.2.2.recovers = false)
    (hresponds : ∀ step ∈ window, step.2.2.respondsToApproval = false) :
    ∃ plan, CoverInv s plan ∧ ∀ step ∈ window,
      CoverInv step.1 plan ∧ step.1.context.revision = s.context.revision := by
  induction window using List.reverseRecOn generalizing s log with
  | nil =>
    obtain ⟨log', entries, htrace, hpropose, hcommit, -⟩ := h.last
    obtain ⟨proposals, -, hproposed, rfl⟩ := proposeEntries_cases hpropose
    obtain ⟨plan, hcover⟩ :=
      coverInv_of_request (reachable_inv htrace.reaches).1 hidle hproposed hcommit hlast
    exact ⟨plan, hcover, fun step hstep => absurd hstep List.not_mem_nil⟩
  | append_singleton window step ih =>
    obtain ⟨u, input⟩ := step
    have hmem : (u, input) ∈ window ++ [(u, input)] := List.mem_append_right _ List.mem_cons_self
    have hall : before ++ (s₀, request) :: (window ++ [(u, input)]) =
        before ++ (s₀, request) :: window ++ [(u, input)] := by simp
    rw [hall] at h
    obtain ⟨log', entries, htrace, hpropose, hcommit, -⟩ := h.last
    obtain ⟨plan, hcover, hwindow⟩ := ih htrace
      (fun step hstep => hpending step (List.mem_append_left _ hstep)) (hpending _ hmem)
      (fun step hstep => hrecovers step (List.mem_append_left _ hstep))
      (fun step hstep => hresponds step (List.mem_append_left _ hstep))
    obtain ⟨proposals, -, hproposed, rfl⟩ := proposeEntries_cases hpropose
    obtain ⟨hinv, hsettled⟩ := reachable_inv htrace.reaches
    obtain ⟨hcovered, hrevision⟩ := coverInv_append hinv hsettled hcover (hrecovers _ hmem)
      (hresponds _ hmem) hproposed hcommit hlast
    refine ⟨plan, hcovered, fun step hstep => ?_⟩
    rcases List.mem_append.mp hstep with hstep | hstep
    · exact ⟨(hwindow step hstep).1, (hwindow step hstep).2.trans hrevision.symm⟩
    · rw [List.mem_singleton.mp hstep]
      exact ⟨hcover, hrevision.symm⟩

/-- From the append that makes a compaction pending, and for as long as it stays pending, the context
holds every entry that it covers and keeps its revision, and every complete result for that revision is
taken, as long as no approval's decision answers the provider. -/
theorem compaction_answerable {before window : List (CoreAgentState × Nat × DriveInput)}
    {s₀ : CoreAgentState} {request : Nat × DriveInput}
    (h : EventSource.Trace (drive sessionId) (before ++ (s₀, request) :: window) s log)
    (hidle : s₀.context.compaction.isPending = false)
    (hpending : ∀ step ∈ window, step.1.context.compaction.isPending = true)
    (hlast : s.context.compaction.isPending = true)
    (hrecovers : ∀ step ∈ window, step.2.2.recovers = false)
    (hresponds : ∀ step ∈ window, step.2.2.respondsToApproval = false) :
    ∃ plan, s.context.compaction.pendingPlan = some plan ∧
      (∀ id ∈ plan.coveredEntryIds, ∃ entry ∈ s.context.entries, entry.entryId = id) ∧
      (∀ step ∈ window, step.1.context.compaction.pendingPlan = some plan ∧
        step.1.context.revision = s.context.revision ∧
        ∀ id ∈ plan.coveredEntryIds, ∃ entry ∈ step.1.context.entries, entry.entryId = id) ∧
      ∀ (ms : Nat) (result : ContextCompactionResult), result.sessionId = sessionId →
        result.contextRevision = s.context.revision →
        ((∃ committed t, proposeEntries sessionId s (ms, .resumeContextCompaction result) =
          .ok committed ∧ committed.foldlM applyEvent s = .ok t) ↔ result.WellFormed) := by
  obtain ⟨plan, hcover, hwindow⟩ := pending_window h hidle hpending hlast hrecovers hresponds
  refine ⟨plan, hcover.pending, hcover.active, fun step hstep => ?_, ?_⟩
  · obtain ⟨hthen, hrevision⟩ := hwindow step hstep
    exact ⟨hthen.pending, hrevision, hthen.active⟩
  · intro ms result hsession hrevision
    exact result_taken_iff ms (reachable_inv h.reaches).1 (reachable_inputs h.reaches)
      (reachable_promises h.reaches).1 hcover hsession hrevision

/-- A session whose second run waits for a provider's approval, and which is then asked to compact. -/
def approvalWait : List (Nat × DriveInput) :=
  [(0, .admitCommand (.openSession sampleConfig)),
    (1, .admitCommand (.requestRun { source := ⟨[sampleMessage]⟩ }))] ++ planTurn 2 ++
  [(3, .resumeGeneration { runId := 1, turnId := 1, status := .succeeded
                           facts := { finish := .stop }, contextEntries := [sampleAnswer] }),
    (4, .nextAction), (5, .admitCommand (.requestRun { source := ⟨[sampleMessage]⟩ }))] ++ planTurn 6 ++
  [(7, .resumeGeneration { runId := 2, turnId := 2, status := .succeeded, contextEntries := []
                           facts := { finish := .stop, approvalRequests := [sampleApproval] } })]

def compactionRequest : Nat × DriveInput := (8, .admitCommand .compactContext)

/-- The approval, with the response that the provider waits for. -/
def approvalDecision : Nat × DriveInput :=
  (9, .admitCommand (.decideApproval
    { runId := 2, approvalId := approvalId 1, decision := .approved
      response := some { kind := .mcpApprovalResponse "request" true
                         content := { contentRef := ⟨"approval"⟩ } } }))

/-- A summary of the context as it was when the compaction was asked for. -/
def sampleSummary : ContextCompactionResult where
  sessionId := "session"
  contextRevision := 4
  status := .succeeded
  contextEntries := [sampleAnswer]

theorem sampleSummary_wellFormed : sampleSummary.WellFormed :=
  ⟨fun _ => ⟨List.cons_ne_nil _ _, rfl⟩, nofun⟩

/-- What the session waits for once it has been asked to compact. -/
theorem compactionRequest_pending : ∃ s₀ log₀ s log entries,
    (drive "session").exec approvalWait = some (s₀, log₀) ∧
      s₀.context.compaction.isPending = false ∧
      (drive "session").propose s₀ compactionRequest = .ok entries ∧
      entries.foldlM (drive "session").reduce s₀ = .ok s ∧
      (drive "session").exec (approvalWait ++ [compactionRequest]) = some (s, log) ∧
      s.context.compaction.isPending = true ∧ s.context.revision = 4 := by
  have hread : ((drive "session").exec (approvalWait ++ [compactionRequest])).map (fun p =>
      (p.1.context.compaction.isPending, p.1.context.revision)) = some (true, 4) := by
    decide +kernel
  have hbefore : ((drive "session").exec approvalWait).map (fun p =>
      p.1.context.compaction.isPending) = some false := by
    decide +kernel
  obtain ⟨⟨s, log⟩, hexec, hread⟩ := Option.map_eq_some_iff.mp hread
  obtain ⟨hpending, hrevision⟩ := Prod.mk.inj hread
  obtain ⟨s₀, log₀, entries, hstart, hpropose, hcommit, -⟩ := EventSource.exec_concat hexec
  rw [hstart, Option.map_some] at hbefore
  exact ⟨s₀, log₀, s, log, entries, hstart, Option.some.inj hbefore, hpropose, hcommit, hexec,
    hpending, hrevision⟩

theorem compaction_answerable_sampleSummary : ∃ s log committed t,
    (drive "session").exec (approvalWait ++ [compactionRequest]) = some (s, log) ∧
      proposeEntries "session" s (9, .resumeContextCompaction sampleSummary) = .ok committed ∧
      committed.foldlM applyEvent s = .ok t := by
  obtain ⟨s₀, log₀, s, log, entries, hstart, hidle, hpropose, hcommit, hexec, hpending, hrevision⟩ :=
    compactionRequest_pending
  obtain ⟨before, htrace, -⟩ := EventSource.exec_trace hstart
  have hlast : EventSource.Trace (drive "session") (before ++ (s₀, compactionRequest) :: []) s
      (log₀ ++ entries) := .append htrace hpropose hcommit
  obtain ⟨plan, -, -, -, hanswers⟩ := compaction_answerable hlast hidle (by simp) hpending (by simp)
    (by simp)
  obtain ⟨committed, t, htaken, hfold⟩ :=
    (hanswers 9 sampleSummary rfl hrevision.symm).mpr sampleSummary_wellFormed
  exact ⟨s, log, committed, t, hexec, htaken, hfold⟩

/-- A decision that answers the provider moves the revision under a pending compaction, whose complete
result is then refused. -/
theorem decision_orphans_compaction : ∃ s log t log',
    (drive "session").exec (approvalWait ++ [compactionRequest]) = some (s, log) ∧
      (drive "session").exec (approvalWait ++ [compactionRequest] ++ [approvalDecision]) =
        some (t, log') ∧
      s.context.compaction.isPending = true ∧ t.context.compaction.isPending = true ∧
      sampleSummary.contextRevision = s.context.revision ∧ sampleSummary.WellFormed ∧
      ∀ committed, proposeEntries "session" t (10, .resumeContextCompaction sampleSummary) ≠
        .ok committed := by
  obtain ⟨s₀, log₀, s, log, entries, -, -, -, -, hexec, hpending, hrevision⟩ :=
    compactionRequest_pending
  have hread : ((drive "session").exec (approvalWait ++ [compactionRequest] ++ [approvalDecision])).map
      (fun p => (p.1.context.compaction.isPending, (proposeEntries "session" p.1
        (10, .resumeContextCompaction sampleSummary)).toBool)) = some (true, false) := by
    decide +kernel
  obtain ⟨⟨t, log'⟩, hdecided, hread⟩ := Option.map_eq_some_iff.mp hread
  obtain ⟨hstill, hrefused⟩ := Prod.mk.inj hread
  refine ⟨s, log, t, log', hexec, hdecided, hpending, hstill, hrevision.symm, sampleSummary_wellFormed,
    fun committed hpropose => ?_⟩
  rw [hpropose] at hrefused
  cases hrefused

end Lightspeed.Harness
