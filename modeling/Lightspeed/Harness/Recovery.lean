import Lightspeed.Harness.Approvals
import Lightspeed.Harness.Catalogs
import Lightspeed.Harness.Overflows

/-!
# What follows an overflow

A running run whose latest turn overflowed waits for no approval (`reachable_calm`), and all its input is in
context (`reachable_supplied`). So the planners always have something for it (`overflow_plan`).
-/

namespace Lightspeed.Harness

open Lib

variable {sessionId : SessionId} {s t u : CoreAgentState} {run a b : ActiveRun} {input : DriveInput}
  {entry : CoreAgentEntry} {proposal : CoreAgentEventProposal}
  {proposals : List CoreAgentEventProposal} {log entries : List CoreAgentEntry} {ms : Nat}
  {runId : RunId} {turnId : TurnId}

/-! ## Approvals -/

theorem pendingApprovals_eq_nil_iff : run.pendingApprovals = [] ↔ ∀ id, ¬ run.WaitsOn id := by
  constructor
  · exact fun hnil id => not_waitsOn_of_nil hnil id
  · intro hnone
    rw [List.eq_nil_iff_forall_not_mem]
    intro record hmem
    obtain ⟨⟨id, hget⟩, hstatus⟩ := mem_pendingApprovals.mp hmem
    exact hnone id ⟨record, hget, hstatus⟩

/-- Settling an approval leaves no other one pending. -/
theorem pendingApprovals_settled {id : ApprovalId} {record : ApprovalRecord}
    (h : run.pendingApprovals = []) (hstatus : record.status ≠ .pending) :
    ({ run with approvals := run.approvals.insert id record } : ActiveRun).pendingApprovals = [] := by
  rw [pendingApprovals_eq_nil_iff] at h ⊢
  rintro other ⟨found, hget, hpending⟩
  have hget' : (run.approvals.insert id record).get? other = some found := hget
  rw [OrdMap.get?_insert] at hget'
  split_ifs at hget'
  · obtain rfl := Option.some.inj hget'
    exact hstatus hpending
  · exact h other ⟨found, hget', hpending⟩

/-- An event of a run that stays active is about its status or its steering. -/
theorem run_keeps {seq : Nat} {event : RunEvent} (happly : applyRunEvent s seq ms event = .ok t)
    (ha : s.runs.active = some a) (hb : t.runs.active = some b) :
    b = { a with status := b.status, steering := b.steering } := by
  cases applyRunEvent_moves happly with
  | queues hqueues hsame =>
    obtain rfl : a = b := Option.some.inj (ha.symm.trans (hsame.symm.trans hb))
    rfl
  | starts hfree =>
    rw [hfree] at ha
    cases ha
  | steers hactive | stops hactive =>
    obtain rfl := Option.mem_unique ha hactive
    obtain rfl := Option.some.inj hb
    rfl
  | ends => simp at hb

/-- Only a request makes an approval pending. -/
theorem pendingNone_step (hinv : EntriesInv s) (hevent : entry.event.requestsApproval = false)
    (happly : applyEvent s entry = .ok t) (ha : s.runs.active = some a) (hb : t.runs.active = some b)
    (hnone : a.pendingApprovals = []) : b.pendingApprovals = [] := by
  cases hrun : entry.event.isRun with
  | true =>
    obtain ⟨-, m, hm, rfl⟩ := applyEvent_eq_ok.mp happly
    cases hkind : entry.event with
    | run event =>
      rw [applyEventKind, hkind] at hm
      rw [run_keeps hm ha hb]
      exact hnone
    | _ => rw [hkind] at hrun; cases hrun
  | false =>
    cases happroval : entry.event.isApproval with
    | true =>
      obtain ⟨-, m, hm, rfl⟩ := applyEvent_eq_ok.mp happly
      change m.runs.active = some b at hb
      cases hkind : entry.event with
      | approval event =>
        rw [applyEventKind, hkind] at hm
        cases event with
        | requested approval => rw [hkind] at hevent; cases hevent
        | runParked startedId =>
          obtain ⟨run, hactive, -, hpending, -⟩ := runParked_eq_ok.mp hm
          obtain rfl : a = run := Option.mem_unique ha hactive
          exact absurd hnone hpending
        | runUnparked startedId =>
          obtain ⟨run, hactive, -, -, rfl⟩ := runUnparked_eq_ok.mp hm
          obtain rfl : a = run := Option.mem_unique ha hactive
          obtain rfl := Option.some.inj hb
          exact hnone
        | decided id startedId decision note =>
          obtain ⟨run, record, hactive, -, -, -, -, rfl⟩ := decided_eq_ok.mp hm
          obtain rfl : a = run := Option.mem_unique ha hactive
          obtain rfl := Option.some.inj hb
          refine pendingApprovals_settled hnone ?_
          cases decision <;> rintro ⟨⟩
        | cancelled id startedId =>
          obtain ⟨run, record, hactive, -, -, -, -, rfl⟩ := approvalCancelled_eq_ok.mp hm
          obtain rfl : a = run := Option.mem_unique ha hactive
          obtain rfl := Option.some.inj hb
          exact pendingApprovals_settled hnone (by simp)
      | _ => rw [hkind] at happroval; cases happroval
    | false =>
      obtain ⟨-, hsteady⟩ := applyEvent_steady hinv hrun happroval happly
      obtain ⟨a', ha', hab⟩ := hsteady b hb
      obtain rfl : a = a' := Option.mem_unique ha ha'
      rw [pendingApprovals_eq_nil_iff] at hnone ⊢
      exact fun id hwaits => hnone id ((hab.waitsOn id).mp hwaits)

/-! ## Calm runs -/

/-- No turn of the run is open, and its latest one has not overflowed. -/
def ActiveRun.Untroubled (run : ActiveRun) : Prop :=
  run.activeTurnId = none ∧ ∀ turn, run.latestTurn = some turn → turn.hitContextLimit = false

/-- The active run waits for no approval while a turn of it is open, nor after a turn that overflowed. -/
def Calm (s : CoreAgentState) : Prop :=
  s.ForActive fun run => run.pendingApprovals = [] ∨ run.Untroubled

/-- Events that are not about turns neither open one nor move the latest. -/
theorem turnless_step (hinv : EntriesInv s) (hevent : ∀ event, entry.event ≠ .turn event)
    (happly : applyEvent s entry = .ok t) (ha : s.runs.active = some a) (hb : t.runs.active = some b) :
    b.activeTurnId = a.activeTurnId ∧ b.turns.last? = a.turns.last? := by
  by_cases hquiet : entry.event.counts = true ∨ entry.event.closesBatch = true
  swap
  · rw [not_or, Bool.not_eq_true, Bool.not_eq_true] at hquiet
    obtain ⟨a', ha', hab⟩ := unturned_step hinv hquiet.1 hquiet.2 happly b hb
    obtain rfl : a = a' := Option.mem_unique ha ha'
    exact ⟨hab.turn, by rw [hab.turns]⟩
  obtain ⟨-, m, hm, rfl⟩ := applyEvent_eq_ok.mp happly
  change m.runs.active = some b at hb
  cases hkind : entry.event with
  | turn event => exact absurd hkind (hevent event)
  | run event =>
    rw [applyEventKind, hkind] at hm
    cases event with
    | started startedId =>
      obtain ⟨-, hnone, -⟩ := started_eq_ok.mp hm
      rw [hnone] at ha
      cases ha
    | _ => rw [hkind] at hquiet; rcases hquiet with hquiet | hquiet <;> cases hquiet
  | context event =>
    rw [applyEventKind, hkind] at hm
    obtain ⟨a', ha', hab⟩ := (applyContextEvent_frame hinv hm).active b hb
    obtain rfl : a = a' := Option.mem_unique ha ha'
    rw [hab.run]
    exact ⟨rfl, rfl⟩
  | tool event =>
    rw [applyEventKind, hkind] at hm
    cases event with
    | batchCompleted startedId turnId batchId =>
      obtain ⟨run, batch, results, hactive, -, -, -, -, -, -, -, -, rfl⟩ := batchCompleted_eq_ok.mp hm
      obtain rfl : a = run := Option.mem_unique ha hactive
      obtain rfl := Option.some.inj hb
      exact ⟨rfl, last?_pruneSettledRunRecords _⟩
    | _ => rw [hkind] at hquiet; rcases hquiet with hquiet | hquiet <;> cases hquiet
  | _ => rw [hkind] at hquiet; rcases hquiet with hquiet | hquiet <;> cases hquiet

theorem untroubled_step (hinv : EntriesInv s) (hevent : ∀ event, entry.event ≠ .turn event)
    (happly : applyEvent s entry = .ok t) (ha : s.runs.active = some a) (hb : t.runs.active = some b)
    (h : a.Untroubled) : b.Untroubled := by
  obtain ⟨hturn, hlast⟩ := turnless_step hinv hevent happly ha hb
  refine ⟨hturn.trans h.1, fun turn hlatest => h.2 turn ?_⟩
  rwa [ActiveRun.latestTurn, ← hlast]

/-- Every event of a turn but the first finds one open. -/
theorem opened_of_turn {event : TurnEvent} (happly : applyTurnEvent s event = .ok t)
    (ha : s.runs.active = some a) :
    (∃ turnId runId, event = .started turnId runId) ∨ a.activeTurnId ≠ none := by
  have hopen : ∀ {run turnId}, s.runs.active = some run → run.activeTurnId = some turnId →
      a.activeTurnId ≠ none := by
    intro run turnId hrun hturn
    obtain rfl : a = run := Option.mem_unique ha hrun
    simp [hturn]
  cases applyTurnEvent_moves happly with
  | starts => exact .inl ⟨_, _, rfl⟩
  | writes context hrun hturn | completes hrun hturn | cancels hrun hcancelling hturn =>
    exact .inr (hopen hrun hturn)

/-- A turn that starts finds no approval pending, and another event of a turn finds it open. -/
theorem pendingNone_of_turn {base : CoreAgentState} {event : TurnEvent} (hcalm : Calm s)
    (hwarrant : Warrant base input s entry) (hevent : entry.event = .turn event)
    (happly : applyEvent s entry = .ok t) (ha : s.runs.active = some a) : a.pendingApprovals = [] := by
  obtain ⟨-, m, hm, -⟩ := applyEvent_eq_ok.mp happly
  rw [applyEventKind, hevent] at hm
  rcases opened_of_turn hm ha with ⟨turnId, runId, rfl⟩ | hopen
  · have hknew := hwarrant.knew
    rw [hevent] at hknew
    exact (hknew.2 a ha).2
  · exact (hcalm a ha).resolve_right fun huntroubled => hopen huntroubled.1

/-- An event that asks for no approval keeps the active run calm. -/
theorem calm_step {base : CoreAgentState} (hinv : Inv s) (hcalm : Calm s)
    (hwarrant : Warrant base input s entry) (hevent : entry.event.requestsApproval = false)
    (happly : applyEvent s entry = .ok t) : Calm t := by
  intro b hb
  rcases recovery_step hinv.entries happly hb with ⟨-, -, -, hnone⟩ | ⟨a, ha, -⟩
  · exact .inl hnone
  by_cases hturn : ∃ event, entry.event = .turn event
  · obtain ⟨event, hturn⟩ := hturn
    have hpending := pendingNone_of_turn hcalm hwarrant hturn happly ha
    exact .inl (pendingNone_step hinv.entries hevent happly ha hb hpending)
  · rw [not_exists] at hturn
    exact (hcalm a ha).imp (pendingNone_step hinv.entries hevent happly ha hb)
      (untroubled_step hinv.entries hturn happly ha hb)

/-- A list of entries that asks for no approval keeps the active run calm. -/
theorem calm_of_unasked (hinv : Inv s) (hsettled : s.ForActive RunSettled) (hcalm : Calm s)
    (hproposed : Proposed sessionId s input proposals)
    (hnone : ∀ proposal ∈ proposals, proposal.event.requestsApproval = false)
    (hcommit : (uncommitted s ms proposals).foldlM applyEvent s = .ok t) : Calm t := by
  refine (append_preserves hinv hsettled hproposed (P := Calm) ?_ hcommit hcalm).2
  intro u entry v hu hcalm hwarrant hmem hv
  refine calm_step hu hcalm hwarrant ?_ hv
  rcases mem_uncommitted hmem with ⟨proposal, hproposal, heq⟩ | ⟨id, heq⟩
  · have hproposal := hnone proposal hproposal
    rw [heq]
    cases hevent : proposal.event with
    | approval event =>
      rw [hevent] at hproposal
      cases event <;> first | rfl | cases hproposal
    | _ => rfl
  · rw [heq]
    rfl

/-- No plan asks for an approval. -/
theorem unasked_of_planned {event : CoreAgentEvent} (h : event.isPlanned = true) :
    event.requestsApproval = false := by
  cases event with
  | approval event => cases event <;> first | rfl | cases h
  | _ => rfl

/-- Only an overflow makes an outcome of the context limit. -/
theorem finish_of_contextLimit {result : LlmGenerationResult} {failureRef : Option BlobRef}
    (h : turnOutcomeForGenerationResult result = .contextLimit failureRef) :
    result.facts.finish = .contextLimit := by
  unfold turnOutcomeForGenerationResult at h
  split at h
  · cases h
  · cases h
  · split_ifs at h with hfinish
    exact hfinish
  · unfold succeededTurnOutcome unusableToolCalls at h
    split_ifs at h
    split at h <;> first | assumption | cases h

theorem settleTurn_activeTurnId (run : ActiveRun) (turnId : TurnId) (turn : TurnState)
    (status : LlmGenerationStatus) (facts : LlmGenerationFacts) (usage : Option LlmUsage) :
    ((run.settleTurn turnId turn status facts).chargeUsage usage).activeTurnId = run.activeTurnId := by
  unfold ActiveRun.settleTurn
  dsimp only
  split_ifs <;> rfl

/-- A run that an event leaves active was active before, unless a run starts. -/
theorem active_before (hinv : EntriesInv s) (hevent : ∀ runId, entry.event ≠ .run (.started runId))
    (happly : applyEvent s entry = .ok t) (hb : t.runs.active = some b) :
    ∃ a, s.runs.active = some a := by
  by_contra hnone
  have hinactive : s.runs.active = none := by
    rw [Option.eq_none_iff_forall_ne_some]
    exact fun a ha => hnone ⟨a, ha⟩
  rw [inactive_step hinv hinactive hevent happly] at hb
  cases hb

/-- A generation that did not overflow leaves its run untroubled. -/
theorem calm_of_generation {result : LlmGenerationResult} (hinv : Inv s) (hsettled : s.ForActive RunSettled)
    (hfinish : result.facts.finish ≠ .contextLimit)
    (hactive : s.runs.active = some run) (hturn : run.activeTurnId = some result.turnId)
    (hproposed : Proposed sessionId s input (result.answer s))
    (hcommit : (uncommitted s ms (result.answer s)).foldlM applyEvent s = .ok t) : Calm t := by
  have hopen : s.ForActive fun run => run.activeTurnId ≠ none ∨ run.Untroubled := by
    intro run' hactive'
    obtain rfl : run = run' := Option.mem_unique hactive hactive'
    exact .inl (by simp [hturn])
  suffices hall : t.ForActive fun run => run.activeTurnId ≠ none ∨ run.Untroubled by
    intro b hb
    exact .inr ((hall b hb).resolve_left fun hstill => hstill (generation_ends_turn hcommit b hb))
  refine (append_preserves hinv hsettled hproposed
    (P := fun u => u.ForActive fun run => run.activeTurnId ≠ none ∨ run.Untroubled) ?_ hcommit hopen).2
  intro u entry v hu hopen hwarrant hmem hv b hb
  have hkept : (∀ event, entry.event ≠ .turn event) → (∀ runId, entry.event ≠ .run (.started runId)) →
      b.activeTurnId ≠ none ∨ b.Untroubled := by
    intro hnot hstart
    obtain ⟨a, ha⟩ := active_before hu.entries hstart hv hb
    refine (hopen a ha).imp (fun hstill => ?_) (untroubled_step hu.entries hnot hv ha hb)
    rwa [(turnless_step hu.entries hnot hv ha hb).1]
  rcases mem_uncommitted hmem with ⟨proposal, hproposal, heq⟩ | ⟨id, heq⟩
  swap
  · exact hkept (by simp [heq]) (by simp [heq])
  rcases mem_generationProposals hproposal with hevent | hevent | ⟨approval, hevent⟩ | hevent
  · obtain ⟨event, hkind⟩ : ∃ event, entry.event = .context event := ⟨_, by rw [heq, hevent]; rfl⟩
    exact hkept (by simp [hkind]) (by simp [hkind])
  · obtain ⟨-, m, hm, rfl⟩ := applyEvent_eq_ok.mp hv
    rw [applyEventKind, heq, hevent] at hm
    obtain ⟨old, turn, -, -, hold, -, -, context, -, -, -, rfl⟩ := generationCompleted_ok hm
    obtain rfl := Option.some.inj hb
    left
    rw [settleTurn_activeTurnId, hold]
    simp
  · obtain ⟨event, hkind⟩ : ∃ event, entry.event = .approval event := ⟨_, by rw [heq, hevent]; rfl⟩
    exact hkept (by simp [hkind]) (by simp [hkind])
  · -- The turn ends, with an outcome of another kind.
    obtain ⟨-, m, hm, rfl⟩ := applyEvent_eq_ok.mp hv
    rw [applyEventKind, heq, hevent] at hm
    obtain ⟨old, turn, hold, hturn, hget, -, rfl⟩ := turnCompleted_eq_ok.mp hm
    obtain rfl := Option.some.inj hb
    refine .inr ⟨rfl, fun latest hlatest => ?_⟩
    obtain ⟨turn', hlast, -⟩ := (hu.run old hold).openTurn _ hturn
    obtain rfl : turn = turn' := Option.some.inj (hget.symm.trans (OrdMap.get?_of_last? hlast))
    rw [ActiveRun.latestTurn, last?_pruneSettledRunRecords, ActiveRun.setTurn,
      OrdMap.last?_insert_last _ hlast] at hlatest
    obtain rfl := Option.some.inj hlatest
    cases houtcome : turnOutcomeForGenerationResult result with
    | contextLimit failureRef => exact absurd (finish_of_contextLimit houtcome) hfinish
    | _ => rfl

theorem append_calm (hreached : Reachable sessionId s log) (hcalm : Calm s)
    (hpropose : proposeEntries sessionId s (ms, input) = .ok entries)
    (hcommit : entries.foldlM applyEvent s = .ok t) : Calm t := by
  obtain ⟨hinv, hsettled⟩ := reachable_inv hreached
  obtain ⟨proposals, -, hproposed, rfl⟩ := proposeEntries_cases hpropose
  have hunasked : (∀ proposal ∈ proposals, proposal.event.requestsApproval = false) → Calm t :=
    fun hnone => calm_of_unasked hinv hsettled hcalm hproposed hnone hcommit
  have hform := hproposed
  rcases proposed_owned hproposed with hnone | ⟨-, hplan⟩ | rfl | ⟨result, run, hactive, hturn, rfl⟩ |
    ⟨run, batchId, hactive, hbatch, happrovals⟩
  · exact hunasked fun proposal hmem => (Bool.or_eq_false_iff.mp (hnone proposal hmem)).2
  · exact hunasked fun _ hmem => unasked_of_planned (planned_isPlanned hplan hmem)
  · exact hunasked fun proposal hmem => List.mem_singleton.mp hmem ▸ rfl
  · by_cases hfinish : result.facts.finish = .contextLimit
    · refine hunasked fun proposal hmem => ?_
      have hmem' : proposal ∈ generationProposals s result [] [] := by
        simpa [LlmGenerationResult.answer, hfinish] using hmem
      simp only [generationProposals, approvalRequestsAfter, List.mem_append, List.map_nil, if_true,
        List.not_mem_nil, List.mem_singleton, false_or, or_false] at hmem'
      rcases hmem' with rfl | rfl <;> rfl
    · exact calm_of_generation hinv hsettled hfinish hactive hturn hform hcommit
  · -- The batch whose calls wait was queued by the latest turn.
    obtain ⟨batch, turn, facts, -, -, -, -, hlast, houtcome, -, -⟩ :=
      (hinv.run run hactive).openBatch batchId hbatch
    have hturn : run.activeTurnId = none := by
      by_contra hopen
      have hnone := (hinv.run run hactive).openAlone hopen
      rw [hbatch] at hnone
      cases hnone
    have huntroubled : s.ForActive ActiveRun.Untroubled := by
      intro run' hactive'
      obtain rfl : run = run' := Option.mem_unique hactive hactive'
      refine ⟨hturn, fun latest hlatest => ?_⟩
      rw [latestTurn_eq hlast] at hlatest
      obtain rfl := Option.some.inj hlatest
      rw [TurnState.hitContextLimit, houtcome]
    suffices hall : t.ForActive ActiveRun.Untroubled from fun b hb => .inr (hall b hb)
    refine (append_preserves hinv hsettled hform (P := fun u => u.ForActive ActiveRun.Untroubled) ?_
      hcommit huntroubled).2
    intro u entry v hu huntroubled hwarrant hmem hv b hb
    have hquiet : (∀ event, entry.event ≠ .turn event) ∧ ∀ runId, entry.event ≠ .run (.started runId) := by
      rcases mem_uncommitted hmem with ⟨proposal, hproposal, heq⟩ | ⟨id, heq⟩
      · obtain ⟨event, hevent⟩ := happrovals proposal hproposal
        obtain ⟨event', hkind⟩ : ∃ event', entry.event = .approval event' :=
          ⟨_, by rw [heq, hevent]; rfl⟩
        simp [hkind]
      · simp [heq]
    obtain ⟨a, ha⟩ := active_before hu.entries hquiet.2 hv hb
    exact untroubled_step hu.entries hquiet.1 hv ha hb (huntroubled a ha)

theorem reachable_calm (h : Reachable sessionId s log) : Calm s := by
  refine EventSource.Reaches.invariant (P := fun s _ => Calm s) ?_ ?_ h
  · intro run hactive
    cases hactive
  · rintro s log ⟨ms, input⟩ entries t hreached hcalm hpropose hcommit
    exact append_calm hreached hcalm hpropose hcommit

/-! ## Input -/

/-- A run that has started a turn has all its input in context. -/
def Supplied (s : CoreAgentState) : Prop :=
  s.ForActive fun run => run.turns.last? ≠ none → run.source.input.length ≤ run.inputEntryIds.length

/-- The input of a run that stays active is what it was, and none of it is forgotten. -/
theorem input_step (hinv : EntriesInv s) (happly : applyEvent s entry = .ok t) (ha : s.runs.active = some a)
    (hb : t.runs.active = some b) :
    b.source = a.source ∧ a.inputEntryIds.length ≤ b.inputEntryIds.length := by
  cases hrun : entry.event.isRun with
  | true =>
    obtain ⟨-, m, hm, rfl⟩ := applyEvent_eq_ok.mp happly
    cases hkind : entry.event with
    | run event =>
      rw [applyEventKind, hkind] at hm
      rw [run_keeps hm ha hb]
      exact ⟨rfl, le_rfl⟩
    | _ => rw [hkind] at hrun; cases hrun
  | false =>
    cases hcontext : entry.event.isContext with
    | false =>
      obtain ⟨a', ha', hab⟩ := applyEvent_moved hrun hcontext happly b hb
      obtain rfl : a = a' := Option.mem_unique ha ha'
      exact ⟨hab.same.source, hab.inputEntryIds ▸ le_rfl⟩
    | true =>
      obtain ⟨-, m, hm, rfl⟩ := applyEvent_eq_ok.mp happly
      cases hkind : entry.event with
      | context event =>
        rw [applyEventKind, hkind] at hm
        obtain ⟨a', ha', hab⟩ := context_inputs hinv hm b hb
        obtain rfl : a = a' := Option.mem_unique ha ha'
        exact hab
      | _ => rw [hkind] at hcontext; cases hcontext

theorem supplied_step (htakes : Takes s entry) (h : Supplied s) (happly : applyEvent s entry = .ok t) :
    Supplied t := by
  have hinv := htakes.inv
  intro b hb hsome
  rcases recovery_step hinv.entries happly hb with ⟨-, -, hnone, -⟩ | ⟨a, ha, -⟩
  · exact absurd hnone hsome
  obtain ⟨hsource, hlength⟩ := input_step hinv.entries happly ha hb
  suffices hbefore : a.source.input.length ≤ a.inputEntryIds.length by
    rw [hsource]
    exact hbefore.trans hlength
  by_cases hlatest : a.turns.last? = none
  swap
  · exact h a ha hlatest
  -- The first turn of a run starts when nothing of its input is missing.
  by_cases hturn : ∃ event, entry.event = .turn event
  swap
  · rw [not_exists] at hturn
    have hsame := (turnless_step hinv.entries hturn happly ha hb).2
    exact absurd (hsame.trans hlatest) hsome
  obtain ⟨event, hturn⟩ := hturn
  obtain ⟨-, m, hm, -⟩ := applyEvent_eq_ok.mp happly
  rw [applyEventKind, hturn] at hm
  rcases opened_of_turn hm ha with ⟨turnId, runId, rfl⟩ | hopen
  · have hknew := htakes.plan
    rw [hturn] at hknew
    obtain ⟨run, hstarts, -⟩ := hknew
    obtain rfl : a = run := Option.mem_unique ha hstarts.active
    exact hstarts.supplied
  · obtain ⟨id, hid⟩ := Option.ne_none_iff_exists'.mp hopen
    obtain ⟨turn, hlast, -⟩ := (hinv.run a ha).openTurn id hid
    rw [hlatest] at hlast
    cases hlast

theorem reachable_supplied (h : Reachable sessionId s log) : Supplied s := by
  refine EventSource.Warranted.preserves (P := fun s _ => Supplied s) [] ?_ (reachable_warranted h)
    (EventSource.Reaches.replay h) ?_
  · intro s log entry t hs htakes happly
    exact supplied_step htakes hs happly
  · intro run hactive
    cases hactive

/-! ## The plan after an overflow -/

/-- A running run whose latest turn has ended at the context limit, while no compaction is pending. -/
structure Overflowed (s : CoreAgentState) (run : ActiveRun) (turnId : TurnId) (turn : TurnState) : Prop where
  active : s.runs.active = some run
  running : run.status = .running
  latest : run.turns.last? = some (turnId, turn)
  ended : turn.status = .completed
  overflowed : turn.hitContextLimit = true
  idle : s.context.compaction.isPending = false

variable {turn : TurnState}

theorem Overflowed.outcome (h : Overflowed s run turnId turn) :
    ∃ failureRef, turn.outcome = some (.contextLimit failureRef) := by
  have hoverflow := h.overflowed
  unfold TurnState.hitContextLimit at hoverflow
  split at hoverflow
  next failureRef houtcome => exact ⟨failureRef, houtcome⟩
  · cases hoverflow

theorem Overflowed.boundary (hinv : Inv s) (h : Overflowed s run turnId turn) : run.AtBoundary := by
  have hrun := hinv.run run h.active
  obtain ⟨failureRef, houtcome⟩ := h.outcome
  have hturn : run.activeTurnId = none := by
    by_contra hopen
    obtain ⟨id, hid⟩ := Option.ne_none_iff_exists'.mp hopen
    obtain ⟨latest, hlast, hlatest⟩ := hrun.openTurn id hid
    obtain ⟨-, rfl⟩ := Prod.mk.inj (Option.mem_unique h.latest hlast)
    have hstatus := hlatest.status
    rw [h.ended] at hstatus
    cases hstatus
  have hother : ∀ id latest, run.turns.last? = some (id, latest) → latest.outcome ≠ some .toolCallsQueued := by
    intro id latest hlast
    obtain ⟨-, rfl⟩ := Prod.mk.inj (Option.mem_unique h.latest hlast)
    rw [houtcome]
    nofun
  refine ⟨hturn, ?_, ?_⟩
  · by_contra hopen
    obtain ⟨id, hid⟩ := Option.ne_none_iff_exists'.mp hopen
    obtain ⟨batch, latest, facts, -, -, -, -, hlast, hqueued, -⟩ := hrun.openBatch id hid
    exact hother _ latest hlast hqueued
  · rw [Bool.eq_false_iff]
    intro hstarted
    obtain ⟨id, latest, hlast, hqueued, -⟩ := (hrun.hasUnstarted_iff hturn).mp hstarted
    exact hother id latest hlast hqueued

theorem Overflowed.isOpen (hinv : Inv s) (h : Overflowed s run turnId turn) :
    s.lifecycle.status = .open := by
  by_contra hclosed
  have hnone := (hinv.idle hclosed).1
  rw [h.active] at hnone
  cases hnone

theorem Overflowed.unasked (hcalm : Calm s) (h : Overflowed s run turnId turn) :
    run.pendingApprovals = [] := by
  refine (hcalm run h.active).resolve_right fun huntroubled => ?_
  have hquiet := huntroubled.2 turn (latestTurn_eq h.latest)
  rw [h.overflowed] at hquiet
  cases hquiet

theorem Overflowed.safe (hinv : Inv s) (h : Overflowed s run turnId turn) :
    compactionSafeBoundary s = true := by
  have hidle := h.boundary hinv
  refine compactionSafeBoundary_iff.mpr ⟨h.idle, boundary_idle hinv h.active hidle.batch, ?_⟩
  intro run' hactive
  obtain rfl : run = run' := Option.mem_unique h.active hactive
  exact ⟨h.running, hidle⟩

/-- The tool planner has nothing to do at a boundary. -/
theorem planToolNext_boundary (hinv : Inv s) (hactive : s.runs.active = some run) (hidle : run.AtBoundary) :
    planToolNext s = .ok [] := by
  have hstarts : ∀ turns : List (TurnId × TurnState),
      (∀ turnId turn, (turnId, turn) ∈ turns → run.turns.get? turnId = some turn) →
        planBatchStart s run turns = .ok [] := by
    intro turns hturns
    induction turns with
    | nil => rfl
    | cons first rest ih =>
      obtain ⟨turnId, turn⟩ := first
      have hget := hturns turnId turn List.mem_cons_self
      have hawaits : awaitsBatch run turnId turn = false := by
        by_contra hawaits
        simp only [awaitsBatch, Bool.not_eq_false, Bool.and_eq_true, beq_iff_eq, Bool.not_eq_true'] at hawaits
        have hbatch := (hinv.run run hactive).hasBatchOf_of_boundary hidle hget hawaits.1.2
        rw [hbatch] at hawaits
        cases hawaits.2
      rw [planBatchStart, if_pos (by simp [hawaits])]
      exact ih fun id turn hmem => hturns id turn (List.mem_cons_of_mem _ hmem)
  unfold planToolNext
  split
  next run' hopen hactive' =>
    obtain rfl : run = run' := Option.mem_unique hactive hactive'
    rw [hidle.turn, if_neg (by simp), planActiveBatch, hidle.batch]
    dsimp only
    split_ifs
    · exact hstarts _ fun _ _ hmem => OrdMap.get?_eq_some_iff.mpr hmem
    · rfl
  · rfl

/-- An overflow fails its run, or the run has more to do. -/
theorem Overflowed.terminal (h : Overflowed s run turnId turn) :
    ∃ terminal, terminalRunProposal s run = .ok terminal := by
  obtain ⟨failureRef, houtcome⟩ := h.outcome
  obtain ⟨event, hevent⟩ : ∃ event, turnTerminalEvent s run turnId turn = .ok event := by
    rw [turnTerminalEvent, h.ended, houtcome]
    dsimp only
    split_ifs <;> exact ⟨_, rfl⟩
  rw [terminalRunProposal, h.latest]
  dsimp only
  rw [hevent, ok_bind]
  split_ifs <;> exact ⟨_, rfl⟩

theorem planFirst_ok (first : List CoreAgentEventProposal) (second : Result (List CoreAgentEventProposal)) :
    planFirst (.ok first) second = if first = [] then second else .ok first := rfl

/-- A caller that waits for a compaction at a boundary is answered. -/
theorem planContext_of_queued (hopen : s.lifecycle.status = .open) (hsafe : compactionSafeBoundary s = true)
    (hidle : s.context.compaction.isPending = false) (hqueued : s.context.compaction.isQueued = true) :
    planContextNext s ≠ [] := by
  have horphaned : compactionIsOrphaned s = false := by
    have hnone : s.context.compaction.pendingPlan = none := by
      rw [Option.eq_none_iff_forall_ne_some]
      intro plan hplan
      rw [isPending_of_pendingPlan hplan] at hidle
      cases hidle
    rw [compactionIsOrphaned, hnone]
    rfl
  rw [planContextNext, if_neg (not_not_intro hopen), if_neg (by simp [horphaned]), if_neg (by simp [hidle]),
    nextCompactionProposal, if_neg (not_not_intro hsafe), if_pos hqueued]
  split
  · exact List.cons_ne_nil _ _
  · split_ifs <;> exact List.cons_ne_nil _ _

/-- After an overflow there is always a plan. -/
theorem overflow_plan (hinv : Inv s) (hcalm : Calm s) (h : Overflowed s run turnId turn) :
    ∃ proposals, planNext s = .ok proposals ∧ proposals ≠ [] := by
  have hidle := h.boundary hinv
  have hopen := h.isOpen hinv
  obtain ⟨terminal, hterminal⟩ := h.terminal
  have happroval : planApprovalNext s = [] := by
    rw [planApprovalNext, hopen, h.active]
    simp [h.unasked hcalm]
  -- The run planner ends the run, if the turn planner is not to start another turn of it.
  have hrun : ∃ proposals, planActiveRun s run = .ok proposals ∧
      (terminal.isSome = true → proposals ≠ []) := by
    have hstatus : ¬ (run.status = .cancelling ∧ ¬ hasUnstartedToolCallTurn run) := by
      simp [h.running]
    rw [planActiveRun, if_neg (by simp [hidle.turn, hidle.batch]), if_neg hstatus, runningTerminalProposal,
      if_pos h.running, hterminal, ok_bind]
    cases terminal with
    | some proposal => exact ⟨_, rfl, fun _ => List.cons_ne_nil _ _⟩
    | none =>
      dsimp only
      split_ifs <;> exact ⟨_, rfl, by simp⟩
  have hturn : terminal = none → ∃ proposal, planTurnNext s = .ok [proposal] := by
    rintro rfl
    rw [planTurnNext, if_neg (by simp [hopen, h.idle]), h.active]
    dsimp only
    rw [planActiveTurn, if_neg (by simp [hidle.batch]), hidle.turn]
    dsimp only
    rw [if_neg (not_not_intro h.running), latestTurnIsTerminalRunOutcome, hterminal]
    exact ⟨_, rfl⟩
  rw [planNext, happroval, planFirst_ok, if_pos rfl, planToolNext_boundary hinv h.active hidle]
  by_cases hqueued : s.context.compaction.isQueued = true
  · have hcontext := planContext_of_queued hopen (h.safe hinv) h.idle hqueued
    have hnone : planRunNext s = .ok [] := by
      rw [planRunNext, if_pos (.inr (.inl ⟨hqueued, h.safe hinv⟩))]
    rw [hnone, planFirst_ok, if_pos rfl, planFirst_ok, if_pos rfl, planFirst_ok, if_neg hcontext]
    exact ⟨_, rfl, hcontext⟩
  · obtain ⟨ended, hended, hends⟩ := hrun
    have hsome : planRunNext s = .ok ended := by
      rw [planRunNext, if_neg (by simp [h.idle, hqueued, hopen]), h.active]
      exact hended
    rw [hsome, planFirst_ok]
    by_cases hnone : ended = []
    · rw [if_pos hnone, planFirst_ok, if_pos rfl, planFirst_ok]
      split_ifs with hcontext
      · obtain ⟨proposal, hstart⟩ := hturn (by
          cases terminal with
          | none => rfl
          | some proposal => exact absurd hnone (hends rfl))
        exact ⟨_, hstart, List.cons_ne_nil _ _⟩
      · exact ⟨_, rfl, hcontext⟩
    · rw [if_neg hnone]
      exact ⟨_, rfl, hnone⟩

end Lightspeed.Harness
