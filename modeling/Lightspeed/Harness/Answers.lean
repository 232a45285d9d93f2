import Lightspeed.Harness.Accepted
import Lightspeed.Harness.Approvals

/-!
# Provider answers

A generation that is pending is answered by one append: the output's entries, the facts, the approvals
that the provider asks for, and the end of the turn. Every part is taken whatever the provider returned,
but for an approval whose continuation the run already has: `answer_taken_iff` says that this is the only
answer that is refused, and `answer_refused` shows one.
-/

namespace Lightspeed.Harness

open Lib

variable {sessionId : SessionId} {base s t m : CoreAgentState} {input : DriveInput}
  {entry : CoreAgentEntry} {log : List CoreAgentEntry} {ms last : Nat} {run : ActiveRun}
  {approvals : OrdMap ApprovalId ApprovalRecord} {requests : List ObservedApprovalRequest}
  {result : LlmGenerationResult} {turn : TurnState}

/-! ## The numbers of approvals -/

/-- Every approval has a number up to `last`. -/
def NumberedUpTo (last : Nat) (approvals : OrdMap ApprovalId ApprovalRecord) : Prop :=
  ∀ id ∈ approvals.keys, ∃ number ≤ last, id = approvalId number

/-- The approvals of the active run are numbered by the session's cursor. -/
def ApprovalsNumbered (s : CoreAgentState) : Prop :=
  s.ForActive fun run => NumberedUpTo s.idCursors.lastApprovalId run.approvals

theorem NumberedUpTo.fresh (h : NumberedUpTo last approvals) :
    approvals.contains (approvalId (last + 1)) = false := by
  rw [← Bool.not_eq_true, OrdMap.contains_iff_mem_keys]
  intro hmem
  obtain ⟨number, hle, heq⟩ := h _ hmem
  have hnumber : last + 1 = number := approvalId_injective heq
  omega

theorem NumberedUpTo.insertNext (h : NumberedUpTo last approvals) (record : ApprovalRecord) :
    NumberedUpTo (last + 1) (approvals.insert (approvalId (last + 1)) record) := by
  intro id hid
  rcases OrdMap.mem_keys_insert.mp hid with rfl | hid
  · exact ⟨last + 1, le_rfl, rfl⟩
  · obtain ⟨number, hle, heq⟩ := h id hid
    exact ⟨number, Nat.le_succ_of_le hle, heq⟩

theorem NumberedUpTo.insertHeld (h : NumberedUpTo last approvals) {id : ApprovalId}
    {held record : ApprovalRecord} (hget : approvals.get? id = some held) :
    NumberedUpTo last (approvals.insert id record) := by
  intro other hother
  rcases OrdMap.mem_keys_insert.mp hother with rfl | hother
  · exact h _ (OrdMap.mem_keys.mpr ⟨held, hget⟩)
  · exact h other hother

theorem numbered_approval {event : ApprovalEvent} (h : ApprovalsNumbered s)
    (happly : applyApprovalEvent s ms event = .ok t) : ApprovalsNumbered t := by
  cases event with
  | requested approval =>
    obtain ⟨run, hactive, -, -, hid, -, rfl⟩ := approvalRequested_eq_ok.mp happly
    rintro _ ⟨⟩
    have hnumbered := (h run hactive).insertNext
      { request := approval, requestedAtMs := ms, status := .pending }
    rwa [← hid] at hnumbered
  | runParked runId =>
    obtain ⟨run, hactive, -, -, -, -, -, rfl⟩ := runParked_eq_ok.mp happly
    exact forActive_setActive.mpr (h run hactive)
  | runUnparked runId =>
    obtain ⟨run, hactive, -, -, rfl⟩ := runUnparked_eq_ok.mp happly
    exact forActive_setActive.mpr (h run hactive)
  | decided id runId decision note =>
    obtain ⟨run, record, hactive, -, hget, -, -, rfl⟩ := decided_eq_ok.mp happly
    exact forActive_setActive.mpr ((h run hactive).insertHeld hget)
  | cancelled id runId =>
    obtain ⟨run, record, hactive, -, hget, -, -, rfl⟩ := approvalCancelled_eq_ok.mp happly
    exact forActive_setActive.mpr ((h run hactive).insertHeld hget)

theorem numbered_run {seq : Nat} {event : RunEvent} (h : ApprovalsNumbered s)
    (happly : applyRunEvent s seq ms event = .ok t) : ApprovalsNumbered t := by
  cases applyRunEvent_moves happly with
  | queues hqueues hactive ht =>
    intro run hrun
    rw [ht]
    exact h run (hactive ▸ hrun)
  | starts => rintro _ ⟨⟩ id ⟨⟩
  | @steers run _ _ _ hactive =>
    rintro _ ⟨⟩
    exact h run hactive
  | @stops run hactive => exact forActive_setActive.mpr (h run hactive)
  | ends =>
    intro run hrun
    simp at hrun

theorem numbered_step (hinv : Inv s) (h : ApprovalsNumbered s) (happly : applyEvent s entry = .ok t) :
    ApprovalsNumbered t := by
  by_cases hother : entry.event.isRun = false ∧ entry.event.isApproval = false
  · obtain ⟨hlast, hsteady⟩ := applyEvent_steady hinv.entries hother.1 hother.2 happly
    intro b hb id hid
    obtain ⟨a, ha, hsame⟩ := hsteady b hb
    obtain ⟨record, hget⟩ := OrdMap.mem_keys.mp hid
    rw [hlast]
    exact h a ha id (OrdMap.mem_keys.mpr ⟨record, hsame.kept id record hget⟩)
  · obtain ⟨-, m, hm, rfl⟩ := applyEvent_eq_ok.mp happly
    cases hevent : entry.event with
    | run event =>
      rw [applyEventKind, hevent] at hm
      have hm' : ApprovalsNumbered m := numbered_run h hm
      exact hm'
    | approval event =>
      rw [applyEventKind, hevent] at hm
      have hm' : ApprovalsNumbered m := numbered_approval h hm
      exact hm'
    | _ => exact absurd ⟨by rw [hevent]; rfl, by rw [hevent]; rfl⟩ hother

theorem reachable_numbered (h : Reachable sessionId s log) : ApprovalsNumbered s := by
  refine reachable_preserves (P := fun s _ => ApprovalsNumbered s) (by rintro run ⟨⟩) ?_ h
  intro base input s log entry t hinv hs _ happly
  exact numbered_step hinv hs happly

/-! ## The parts of an answer -/

/-- The run has no approval with one of the requests' continuations, and neither do two of them. -/
def FreshRequests (approvals : OrdMap ApprovalId ApprovalRecord)
    (requests : List ObservedApprovalRequest) : Prop :=
  (requests.map fun request => request.continuation.stored).Nodup ∧
    ∀ request ∈ requests, ∀ record ∈ approvals.values,
      record.request.continuation ≠ request.continuation.stored

/-- One request is fresh, and the others are once it is held. -/
theorem freshRequests_cons {request : ObservedApprovalRequest} {id : ApprovalId}
    {record : ApprovalRecord} (hfresh : approvals.contains id = false)
    (hrecord : record.request.continuation = request.continuation.stored) :
    FreshRequests approvals (request :: requests) ↔
      (∀ held ∈ approvals.values, held.request.continuation ≠ request.continuation.stored) ∧
        FreshRequests (approvals.insert id record) requests := by
  have hvalues : ∀ held, held ∈ (approvals.insert id record).values ↔
      held = record ∨ held ∈ approvals.values := by
    intro held
    rw [(OrdMap.values_insert_perm record hfresh).mem_iff, List.mem_cons]
  unfold FreshRequests
  rw [List.map_cons, List.nodup_cons]
  constructor
  · rintro ⟨⟨hnot, hnodup⟩, hheld⟩
    refine ⟨hheld request List.mem_cons_self, hnodup, fun other hother held hmem => ?_⟩
    rcases (hvalues held).mp hmem with rfl | hmem
    · intro heq
      exact hnot (List.mem_map.mpr ⟨other, hother, heq.symm.trans hrecord⟩)
    · exact hheld other (List.mem_cons_of_mem _ hother) held hmem
  · rintro ⟨hfirst, hnodup, hheld⟩
    refine ⟨⟨fun hmem => ?_, hnodup⟩, fun other hother held hmem => ?_⟩
    · obtain ⟨other, hother, heq⟩ := List.mem_map.mp hmem
      exact hheld other hother record ((hvalues record).mpr (.inl rfl)) (hrecord.trans heq.symm)
    · rcases List.mem_cons.mp hother with rfl | hother
      · exact hfirst held hmem
      · exact hheld other hother held ((hvalues held).mpr (.inr hmem))

/-- The turn of a running run has its generation's facts and waits for its end. -/
structure AwaitsEnd (result : LlmGenerationResult) (approvals : OrdMap ApprovalId ApprovalRecord)
    (s : CoreAgentState) (run : ActiveRun) : Prop where
  active : s.runs.active = some run
  runId : run.runId = result.runId
  running : run.status = .running
  turn : run.activeTurnId = some result.turnId
  settled : ∃ turn, run.turns.get? result.turnId = some turn ∧ turn.status = .generationSettled
  held : run.approvals = approvals
  numbered : NumberedUpTo s.idCursors.lastApprovalId approvals

/-- The proposals of the approvals that a generation asks for. -/
def requestProposals (result : LlmGenerationResult) (last : Nat)
    (requests : List ObservedApprovalRequest) : List CoreAgentEventProposal :=
  (approvalRequestsAfter result.runId last requests).map fun approval =>
    turnProposal result.runId result.turnId (.approval (.requested approval))

/-- The approvals are taken when they are fresh, and leave the turn to be ended. -/
theorem requests_commit (requests : List ObservedApprovalRequest)
    (h : AwaitsEnd result approvals s run) (hlast : s.idCursors.lastApprovalId = last) :
    ((∃ t, Commits ms s (requestProposals result last requests) t) ↔
        FreshRequests approvals requests) ∧
      ∀ t, Commits ms s (requestProposals result last requests) t →
        ∃ approvals' run', AwaitsEnd result approvals' t run' := by
  induction requests generalizing s run approvals last with
  | nil =>
    refine ⟨⟨fun _ => ⟨List.nodup_nil, nofun⟩, fun _ => ⟨s, commits_nil.mpr rfl⟩⟩, ?_⟩
    intro t ht
    exact ⟨approvals, run, commits_nil.mp ht ▸ h⟩
  | cons request rest ih =>
    subst hlast
    let last := s.idCursors.lastApprovalId
    let approval : ApprovalRequested :=
      { approvalId := approvalId (last + 1), runId := result.runId
        subject := request.subject.stored, continuation := request.continuation.stored }
    let record : ApprovalRecord := { request := approval, requestedAtMs := ms, status := .pending }
    let next : CoreAgentState :=
      { s.setActive { run with approvals := run.approvals.insert (approvalId (last + 1)) record } with
        idCursors := { s.idCursors with lastApprovalId := last + 1 } }
    have hstep : ∀ m, applyApprovalEvent s ms (.requested approval) = .ok m ↔
        (∀ held ∈ approvals.values, held.request.continuation ≠ request.continuation.stored) ∧
          m = next := by
      intro m
      rw [approvalRequested_eq_ok]
      constructor
      · rintro ⟨run', hactive, -, -, -, hunheld, rfl⟩
        obtain rfl : run = run' := Option.mem_unique h.active hactive
        refine ⟨fun held hmem heq => ?_, rfl⟩
        rw [h.held, List.any_eq_false] at hunheld
        exact hunheld held hmem (beq_iff_eq.mpr heq)
      · rintro ⟨hunheld, rfl⟩
        refine ⟨run, h.active, h.runId, h.running, rfl, ?_, rfl⟩
        rw [h.held, List.any_eq_false]
        exact fun held hmem heq => hunheld held hmem (beq_iff_eq.mp heq)
    have hnext : AwaitsEnd result (approvals.insert (approvalId (last + 1)) record)
        (s.reducedAt next) { run with approvals := run.approvals.insert (approvalId (last + 1)) record } :=
      ⟨rfl, h.runId, h.running, h.turn, h.settled, by rw [h.held], h.numbered.insertNext record⟩
    have hcons : ∀ t, Commits ms s (requestProposals result last (request :: rest)) t ↔
        (∀ held ∈ approvals.values, held.request.continuation ≠ request.continuation.stored) ∧
          Commits ms (s.reducedAt next) (requestProposals result (last + 1) rest) t := by
      intro t
      refine commits_cons.trans ⟨?_, ?_⟩
      · rintro ⟨m, hm, hrest⟩
        obtain ⟨hunheld, rfl⟩ := (hstep m).mp hm
        exact ⟨hunheld, hrest⟩
      · rintro ⟨hunheld, hrest⟩
        exact ⟨next, (hstep next).mpr ⟨hunheld, rfl⟩, hrest⟩
    obtain ⟨hiff, hends⟩ := ih hnext rfl
    constructor
    · have hfresh : FreshRequests approvals (request :: rest) ↔ _ ∧
          FreshRequests (approvals.insert (approvalId (last + 1)) record) rest :=
        freshRequests_cons h.numbered.fresh rfl
      rw [hfresh, ← hiff]
      constructor
      · rintro ⟨t, ht⟩
        exact ⟨((hcons t).mp ht).1, t, ((hcons t).mp ht).2⟩
      · rintro ⟨hunheld, t, ht⟩
        exact ⟨t, (hcons t).mpr ⟨hunheld, ht⟩⟩
    · exact fun t ht => hends t ((hcons t).mp ht).2

/-! ## Answers -/

/-- The facts of a generation that is pending are taken. -/
theorem facts_taken (status : LlmGenerationStatus) (facts : LlmGenerationFacts)
    (hconfig : s.lifecycle.config.isSome = true)
    (hnumbered : NumberedUpTo s.idCursors.lastApprovalId run.approvals)
    (hactive : s.runs.active = some run) (hrun : run.runId = result.runId)
    (hstatus : run.status = .running) (hturn : run.activeTurnId = some result.turnId)
    (hget : run.turns.get? result.turnId = some turn) (hpending : turn.status = .generationPending)
    (hunanswered : turn.facts = none ∧ turn.generationStatus = none) :
    ∃ m run', applyTurnEvent s (.generationCompleted result.turnId result.runId status facts) = .ok m ∧
      AwaitsEnd result run.approvals m run' ∧ m.idCursors = s.idCursors := by
  let settled := run.settleTurn result.turnId turn status facts
  have hsettled : settled.runId = run.runId ∧ settled.status = run.status ∧
      settled.activeTurnId = run.activeTurnId ∧ settled.approvals = run.approvals ∧
      ∃ turn, settled.turns.get? result.turnId = some turn ∧ turn.status = .generationSettled := by
    simp only [settled, ActiveRun.settleTurn]
    split_ifs <;> exact ⟨rfl, rfl, rfl, rfl, _, OrdMap.get?_insert_self _ _ _, rfl⟩
  obtain ⟨hrunId, hrunning, hactiveTurn, happrovals, hanswered⟩ := hsettled
  obtain ⟨config, hconfig⟩ := Option.isSome_iff_exists.mp hconfig
  have hread : activeTurn s result.runId result.turnId = .ok (run, turn) :=
    activeTurn_eq_ok.mpr ⟨hactive, hrun, hturn, hget⟩
  have hends : ∀ u : CoreAgentState, u.idCursors = s.idCursors →
      AwaitsEnd result run.approvals (u.setActive (settled.chargeUsage facts.usage))
        (settled.chargeUsage facts.usage) := by
    intro u hcursors
    refine ⟨rfl, hrunId.trans hrun, hrunning.trans hstatus, hactiveTurn.trans hturn, hanswered,
      happrovals, ?_⟩
    change NumberedUpTo u.idCursors.lastApprovalId run.approvals
    rwa [hcursors]
  change ∃ m run', completeGeneration s result.runId result.turnId status facts = .ok m ∧ _
  simp only [completeGeneration, bind_eq_ok, hread, require_eq_ok, exists_unit, Except.ok.injEq,
    exists_eq_left', hpending, hunanswered, Option.isNone_none, and_self, true_and]
  by_cases hsucceeded : status = .succeeded
  · simp only [if_pos hsucceeded, bind_eq_ok, orError_eq_ok, hconfig, Option.some.injEq,
      exists_eq_left', Except.ok.injEq]
    exact ⟨_, _, rfl, hends _ rfl, rfl⟩
  · simp only [if_neg hsucceeded, Except.ok.injEq]
    exact ⟨_, _, rfl, hends _ rfl, rfl⟩

/-- The output's entries and the facts are always taken. -/
theorem output_commits {contexts : List ContextEntry} (ms : Nat) (hinv : Inv s)
    (hnumbered : ApprovalsNumbered s) (hactive : s.runs.active = some run)
    (hrun : run.runId = result.runId) (hstatus : run.status = .running)
    (hturn : run.activeTurnId = some result.turnId)
    (hget : run.turns.get? result.turnId = some turn) (hpending : turn.status = .generationPending)
    (hplain : PlainAfter s.idCursors.lastContextEntryId contexts) :
    ∃ m run', Commits ms s ((if contexts = [] then [] else
        [turnProposal result.runId result.turnId
          (.context (.entriesApplied s.context.revision contexts))]) ++
        [turnProposal result.runId result.turnId
          (.turn (.generationCompleted result.turnId result.runId result.status result.facts))]) m ∧
      AwaitsEnd result run.approvals m run' ∧
        m.idCursors.lastApprovalId = s.idCursors.lastApprovalId := by
  obtain ⟨lastTurn, hlast, hopen⟩ := (hinv.run run hactive).openTurn _ hturn
  obtain rfl : turn = lastTurn := Option.some.inj (hget.symm.trans (OrdMap.get?_of_last? hlast))
  have hunanswered := hopen.unanswered (by rw [hpending]; nofun)
  have hconfig : s.lifecycle.config.isSome = true := by
    refine hinv.config ?_
    by_contra hclosed
    rw [(hinv.idle hclosed).1] at hactive
    cases hactive
  -- The facts are taken in any state that has the run, the configuration and the cursor of `s`.
  have hfacts : ∀ u : CoreAgentState, u.runs = s.runs → u.lifecycle = s.lifecycle →
      u.idCursors.lastApprovalId = s.idCursors.lastApprovalId →
      ∃ m run', Commits ms u [turnProposal result.runId result.turnId
          (.turn (.generationCompleted result.turnId result.runId result.status result.facts))] m ∧
        AwaitsEnd result run.approvals m run' ∧
          m.idCursors.lastApprovalId = s.idCursors.lastApprovalId := by
    intro u hruns hlifecycle hcursor
    obtain ⟨m, run', hm, hends, hcursors⟩ := facts_taken (s := u) result.status
      result.facts.stored (by rw [hlifecycle]; exact hconfig)
      (by rw [hcursor]; exact hnumbered run hactive) (by rw [hruns]; exact hactive) hrun hstatus hturn
      hget hpending hunanswered
    refine ⟨u.reducedAt m, run', commits_cons.mpr ⟨m, hm, commits_nil.mpr rfl⟩, ?_, ?_⟩
    · exact ⟨hends.active, hends.runId, hends.running, hends.turn, hends.settled, hends.held,
        hends.numbered⟩
    · change m.idCursors.lastApprovalId = _
      rw [hcursors, hcursor]
  by_cases hempty : contexts = []
  · rw [if_pos hempty, List.nil_append]
    exact hfacts s rfl rfl rfl
  · rw [if_neg hempty]
    have happlied := entriesApplied_plain hinv.entries (by simpa using hempty) hplain.stored
    obtain ⟨m, run', hm, hends⟩ := hfacts (s.reducedAt (bumpContextRevision
      (s.appendEntries (contexts.map ContextEntry.stored)))) rfl rfl rfl
    exact ⟨m, run', commits_append.mpr
      ⟨_, commits_cons.mpr ⟨_, happlied, commits_nil.mpr rfl⟩, hm⟩, hends⟩

theorem llmEntries_plain (result : LlmGenerationResult) (outcome : TurnOutcome) :
    PlainAfter s.idCursors.lastContextEntryId (contextEntriesFromLlmResult s result outcome) := by
  refine plainAfter_inputs fun sourced hmem => ?_
  obtain ⟨entry, -, rfl⟩ := List.mem_map.mp hmem
  refine ⟨rfl, ?_⟩
  change (sourceForLlmContextEntry result.runId result.turnId entry).isMaterial = false
  unfold sourceForLlmContextEntry
  split_ifs <;> rfl

/-- An append that answers a generation is taken exactly when its approvals are fresh. -/
theorem answer_commits_iff {contexts : List ContextEntry} (ms : Nat)
    (requests : List ObservedApprovalRequest) (hinv : Inv s) (hnumbered : ApprovalsNumbered s)
    (hactive : s.runs.active = some run) (hrun : run.runId = result.runId)
    (hstatus : run.status = .running) (hturn : run.activeTurnId = some result.turnId)
    (hget : run.turns.get? result.turnId = some turn) (hpending : turn.status = .generationPending)
    (hplain : PlainAfter s.idCursors.lastContextEntryId contexts) :
    (∃ t, Commits ms s (generationProposals s result contexts requests) t ∧
      ∃ run', t.runs.active = some run' ∧ run'.runId = run.runId ∧ run'.activeTurnId = none) ↔
      FreshRequests run.approvals requests := by
  obtain ⟨m, awaiting, hm, hends, hcursor⟩ :=
    output_commits ms hinv hnumbered hactive hrun hstatus hturn hget hpending hplain
  obtain ⟨hiff, hafter⟩ := requests_commit requests hends hcursor
  constructor
  · rintro ⟨t, ht, -⟩
    obtain ⟨u, hu, -⟩ := commits_append.mp ht
    obtain ⟨m', hm', hrequests⟩ := commits_append.mp hu
    obtain rfl : m = m' := Except.ok.inj (hm.symm.trans hm')
    exact hiff.mp ⟨u, hrequests⟩
  · intro hfresh
    obtain ⟨u, hu⟩ := hiff.mpr hfresh
    obtain ⟨approvals, ended, hended⟩ := hafter u hu
    obtain ⟨settled, hsettled, hgeneration⟩ := hended.settled
    obtain ⟨v, hv, run', hactive', hrun', hturn'⟩ : ∃ v, applyTurnEvent u (.completed result.turnId
        (turnOutcomeForGenerationResult result).stored) = .ok v ∧ ∃ run', v.runs.active = some run' ∧
          run'.runId = ended.runId ∧ run'.activeTurnId = none :=
      ⟨_, turnCompleted_eq_ok.mpr
        ⟨ended, settled, hended.active, hended.turn, hsettled, hgeneration, rfl⟩, _, rfl, rfl, rfl⟩
    refine ⟨u.reducedAt v, commits_append.mpr ⟨u, commits_append.mpr ⟨m, hm, hu⟩,
      commits_cons.mpr ⟨v, hv, commits_nil.mpr rfl⟩⟩, run', hactive', ?_, hturn'⟩
    rw [hrun', hended.runId, hrun]

/-- An answer to the pending generation of a running run ends its turn, unless it asks for an approval
with a continuation that the run already has or that another of its requests has. -/
theorem answer_taken_iff {result : LlmGenerationResult} {turn : TurnState}
    (h : Reachable sessionId s log) (hactive : s.runs.active = some run)
    (hstatus : run.status = .running) (hrun : run.runId = result.runId)
    (hturn : run.activeTurnId = some result.turnId)
    (hget : run.turns.get? result.turnId = some turn)
    (hpending : turn.status = .generationPending) :
    (∃ committed t, proposeEntries sessionId s (ms, .resumeGeneration result) = .ok committed ∧
        committed.foldlM applyEvent s = .ok t ∧
        ∃ run', t.runs.active = some run' ∧ run'.runId = run.runId ∧ run'.activeTurnId = none) ↔
      result.facts.finish = .contextLimit ∨
        ((result.facts.approvalRequests.map fun request => request.continuation.stored).Nodup ∧
          ∀ request ∈ result.facts.approvalRequests, ∀ record ∈ run.approvals.values,
            record.request.continuation ≠ request.continuation.stored) := by
  have hinv := (reachable_inv h).1
  let overflow : Bool := result.facts.finish == .contextLimit
  let contexts : List ContextEntry := if overflow then []
    else contextEntriesFromLlmResult s result (turnOutcomeForGenerationResult result)
  let requests : List ObservedApprovalRequest :=
    if overflow then [] else result.facts.approvalRequests
  have hplain : PlainAfter s.idCursors.lastContextEntryId contexts := by
    simp only [contexts]
    split
    · trivial
    · exact llmEntries_plain result _
  have hproposals : inputProposals sessionId s ms (.resumeGeneration result) =
      .ok (generationProposals s result contexts requests) := by
    simp only [inputProposals, generationResultProposals, hactive, orError_some, ok_bind,
      require_pos (show run.runId = result.runId ∧ run.activeTurnId = some result.turnId
        from ⟨hrun, hturn⟩)]
    rfl
  have hplainEnds : withRunTerminalSideEffects s (generationProposals s result contexts requests) =
      generationProposals s result contexts requests :=
    runTerminalSideEffects_eq fun _ hmem => generation_terminalRunId hmem
  have hcommits := answer_commits_iff ms requests hinv (reachable_numbered h)
    hactive hrun hstatus hturn hget hpending hplain
  have hfresh : FreshRequests run.approvals requests ↔ result.facts.finish = .contextLimit ∨
      FreshRequests run.approvals result.facts.approvalRequests := by
    simp only [requests, overflow, beq_iff_eq]
    by_cases hover : result.facts.finish = .contextLimit
    · simp [hover, FreshRequests]
    · simp [hover]
  refine Iff.trans ?_ (hcommits.trans hfresh)
  constructor
  · rintro ⟨committed, t, hpropose, hfold, hended⟩
    obtain ⟨proposals, hok, hcommit⟩ := propose_iff.mp ⟨committed, hpropose, hfold⟩
    obtain rfl := Except.ok.inj (hproposals.symm.trans hok)
    exact ⟨t, hplainEnds ▸ hcommit, hended⟩
  · rintro ⟨t, hcommit, hended⟩
    obtain ⟨committed, hpropose, hfold⟩ := propose_iff.mpr ⟨_, hproposals, hplainEnds.symm ▸ hcommit⟩
    exact ⟨committed, t, hpropose, hfold, hended⟩

/-- A session whose run waits for its first generation. -/
def pendingGenerationRun : List (Nat × DriveInput) :=
  [(0, .admitCommand (.openSession sampleConfig)),
    (1, .admitCommand (.requestRun { source := ⟨[sampleMessage]⟩ })),
    (2, .nextAction), (2, .nextAction), (2, .nextAction), (2, .nextAction), (2, .nextAction)]

/-- An answer that asks for approvals. -/
def approvalsAnswer (approvalRequests : List ObservedApprovalRequest) : LlmGenerationResult where
  runId := 1
  turnId := 1
  status := .succeeded
  facts := { finish := .stop, approvalRequests }

/-- The generation that the session waits for. -/
theorem pendingGenerationRun_waits : ∃ s log run turn,
    (drive "session").exec pendingGenerationRun = some (s, log) ∧ s.runs.active = some run ∧
      run.status = .running ∧ run.runId = 1 ∧ run.activeTurnId = some 1 ∧
      run.turns.get? 1 = some turn ∧ turn.status = .generationPending ∧ run.approvals.values = [] := by
  have hread : ((drive "session").exec pendingGenerationRun).bind (fun p =>
      p.1.runs.active.bind (fun run => (run.turns.get? 1).map (fun turn =>
        (run.status, run.runId, run.activeTurnId, turn.status, run.approvals.values)))) =
      some (.running, 1, some 1, .generationPending, []) := by
    decide +kernel
  obtain ⟨⟨s, log⟩, hexec, hread⟩ := Option.bind_eq_some_iff.mp hread
  obtain ⟨run, hactive, hread⟩ := Option.bind_eq_some_iff.mp hread
  obtain ⟨turn, hget, hread⟩ := Option.map_eq_some_iff.mp hread
  simp only [Prod.mk.injEq] at hread
  obtain ⟨hstatus, hrun, hturn, hpending, happrovals⟩ := hread
  exact ⟨s, log, run, turn, hexec, hactive, hstatus, hrun, hturn, hget, hpending, happrovals⟩

theorem answer_taken_sampleApproval : ∃ s log committed t,
    (drive "session").exec pendingGenerationRun = some (s, log) ∧
      proposeEntries "session" s (3, .resumeGeneration (approvalsAnswer [sampleApproval])) =
        .ok committed ∧ committed.foldlM applyEvent s = .ok t := by
  obtain ⟨s, log, run, turn, hexec, hactive, hstatus, hrun, hturn, hget, hpending, happrovals⟩ :=
    pendingGenerationRun_waits
  have hfresh : (approvalsAnswer [sampleApproval]).facts.finish = .contextLimit ∨
      (((approvalsAnswer [sampleApproval]).facts.approvalRequests.map
          fun request => request.continuation.stored).Nodup ∧
        ∀ request ∈ (approvalsAnswer [sampleApproval]).facts.approvalRequests,
          ∀ record ∈ run.approvals.values,
            record.request.continuation ≠ request.continuation.stored) := by
    rw [happrovals]
    exact .inr ⟨List.nodup_singleton _, nofun⟩
  obtain ⟨committed, t, hpropose, hfold, -⟩ := (answer_taken_iff (EventSource.exec_reaches hexec)
    hactive hstatus hrun hturn hget hpending).mpr hfresh
  exact ⟨s, log, committed, t, hexec, hpropose, hfold⟩

/-- A provider that asks for one approval twice is refused, and its turn stays open. -/
theorem answer_refused : ∃ s log run turn, Reachable "session" s log ∧ s.runs.active = some run ∧
    run.status = .running ∧ run.runId = 1 ∧ run.activeTurnId = some 1 ∧
    run.turns.get? 1 = some turn ∧ turn.status = .generationPending ∧
    ∀ committed, proposeEntries "session" s
      (3, .resumeGeneration (approvalsAnswer [sampleApproval, sampleApproval])) ≠ .ok committed := by
  obtain ⟨s, log, run, turn, hexec, hactive, hstatus, hrun, hturn, hget, hpending, -⟩ :=
    pendingGenerationRun_waits
  refine ⟨s, log, run, turn, EventSource.exec_reaches hexec, hactive, hstatus, hrun, hturn, hget,
    hpending, fun committed hpropose => ?_⟩
  have hrefused : ((drive "session").exec pendingGenerationRun).all (fun p =>
      (proposeEntries "session" p.1 (3, .resumeGeneration
        (approvalsAnswer [sampleApproval, sampleApproval]))).toBool) = false := by
    decide +kernel
  rw [hexec, Option.all_some, hpropose] at hrefused
  cases hrefused

end Lightspeed.Harness
