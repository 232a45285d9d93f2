import Lightspeed.Lib.Lists
import Lightspeed.Harness.CodeScopes
import Lightspeed.Harness.Endings

/-!
# Waits

What a parked batch waits on stays in the state: promises are pruned only when no batch is open. So
the wait is satisfied as soon as the log has the answers, whatever else it has. Each parking is ended by
at most one unparking.
-/

namespace Lightspeed.Harness

open Lib

variable {sessionId : SessionId} {base s t : CoreAgentState} {input : DriveInput}
  {entry : CoreAgentEntry} {log : List CoreAgentEntry} {batchId : ToolBatchId}

/-! ## What a log says -/

/-- What an event says of a promise: that it is open, or that it has been answered. -/
def CoreAgentEvent.answers (id : PromiseId) : CoreAgentEvent → Option Bool
  | .promise (.created minted) => if minted.promiseId = id then some false else none
  | .promise (.resolved promiseId _) | .promise (.failed promiseId _) | .promise (.cancelled promiseId) =>
    if promiseId = id then some true else none
  | _ => none

/-- Whether a promise has been resolved, failed or cancelled since it was created. -/
def answered (log : List CoreAgentEntry) (id : PromiseId) : Bool :=
  log.foldl (fun known entry => (entry.event.answers id).getD known) false

theorem answered_snoc (log : List CoreAgentEntry) (entry : CoreAgentEntry) (id : PromiseId) :
    answered (log ++ [entry]) id = (entry.event.answers id).getD (answered log id) := by
  simp [answered]

/-- Whether what a wait is for has come: all of its promises are answered, or one of them. -/
def AwaitSpec.Answered (spec : AwaitSpec) (log : List CoreAgentEntry) : Prop :=
  match spec.mode with
  | .all => ∀ id ∈ spec.promiseIds, answered log id = true
  | .any => ∃ id ∈ spec.promiseIds, answered log id = true

/-- The batch that an event parks. -/
def CoreAgentEvent.parkedBatch : CoreAgentEvent → Option ToolBatchId
  | .tool (.batchParked _ _ batchId _) => some batchId
  | _ => none

/-- The batch that an event unparks. -/
def CoreAgentEvent.unparkedBatch : CoreAgentEvent → Option ToolBatchId
  | .tool (.batchUnparked _ _ batchId) => some batchId
  | _ => none

/-- A batch is parked again between any two unparkings. -/
def UnparkedOnce (batchId : ToolBatchId) (log : List CoreAgentEntry) : Prop :=
  ∀ before first between second after, log = before ++ first :: (between ++ second :: after) →
    first.event.unparkedBatch = some batchId → second.event.unparkedBatch = some batchId →
    ∃ entry ∈ between, entry.event.parkedBatch = some batchId

/-- A batch has been parked since it was last unparked. -/
def ParkedSince (batchId : ToolBatchId) (log : List CoreAgentEntry) : Prop :=
  ∀ before first after, log = before ++ first :: after →
    first.event.unparkedBatch = some batchId →
    ∃ entry ∈ after, entry.event.parkedBatch = some batchId

theorem UnparkedOnce.snoc (h : UnparkedOnce batchId log)
    (hsince : entry.event.unparkedBatch = some batchId → ParkedSince batchId log) :
    UnparkedOnce batchId (log ++ [entry]) := by
  intro before first between second after hsplit hfirst hsecond
  rw [← List.cons_append, ← List.append_assoc] at hsplit
  rcases snoc_eq_append_cons.mp hsplit with ⟨rest, -, hlog⟩ | ⟨-, rfl, hlog⟩
  · refine h before first between second rest ?_ hfirst hsecond
    rw [hlog, List.append_assoc, List.cons_append]
  · exact hsince hsecond before first between hlog.symm hfirst

theorem ParkedSince.snoc (h : ParkedSince batchId log)
    (hnot : entry.event.unparkedBatch ≠ some batchId) : ParkedSince batchId (log ++ [entry]) := by
  intro before first after hsplit hfirst
  rcases snoc_eq_append_cons.mp hsplit with ⟨rest, rfl, hlog⟩ | ⟨-, rfl, -⟩
  · obtain ⟨parking, hmem, hparks⟩ := h before first rest hlog hfirst
    exact ⟨parking, List.mem_append_left _ hmem, hparks⟩
  · exact absurd hfirst hnot

theorem ParkedSince.park (hparks : entry.event.parkedBatch = some batchId)
    (hnot : entry.event.unparkedBatch ≠ some batchId) : ParkedSince batchId (log ++ [entry]) := by
  intro before first after hsplit hfirst
  rcases snoc_eq_append_cons.mp hsplit with ⟨rest, rfl, -⟩ | ⟨-, rfl, -⟩
  · exact ⟨entry, List.mem_append_right _ List.mem_cons_self, hparks⟩
  · exact absurd hfirst hnot

/-! ## The batches of a run -/

/-- The batches of a run are as they were. -/
structure ActiveRun.SameWork (a b : ActiveRun) : Prop where
  parked : b.parkedToolBatch = a.parkedToolBatch
  batches : b.toolBatches = a.toolBatches

/-- A run without a batch. -/
structure ActiveRun.Workless (run : ActiveRun) : Prop where
  parked : run.parkedToolBatch = none
  batches : run.toolBatches = .empty

theorem run_sameWork {event : RunEvent} {seq ms : Nat} (h : applyRunEvent s seq ms event = .ok t) :
    ∀ b, t.runs.active = some b → b.Workless ∨
      ∃ a, s.runs.active = some a ∧ a.SameWork b := by
  cases applyRunEvent_moves h with
  | queues hqueues hactive => exact fun b hb => .inr ⟨b, hactive ▸ hb, rfl, rfl⟩
  | starts =>
    rintro b ⟨⟩
    exact .inl ⟨rfl, rfl⟩
  | ends =>
    intro b hb
    simp at hb
  | _ hactive =>
    rintro b ⟨⟩
    exact .inr ⟨_, hactive, rfl, rfl⟩

theorem approval_sameWork {event : ApprovalEvent} {ms : Nat}
    (h : applyApprovalEvent s ms event = .ok t) :
    ∀ b, t.runs.active = some b →
      ∃ a, s.runs.active = some a ∧ a.SameWork b := by
  obtain ⟨run, run', hactive, hjudged, ht⟩ := applyApprovalEvent_moves h
  rw [ht]
  rintro b ⟨⟩
  exact ⟨run, hactive, by rw [hjudged.run], by rw [hjudged.run]⟩

theorem turn_sameWork {event : TurnEvent} (h : applyTurnEvent s event = .ok t) :
    ∀ b, t.runs.active = some b →
      ∃ a, s.runs.active = some a ∧ a.SameWork b := by
  obtain ⟨run, run', hactive, hactive', hturned⟩ := applyTurnEvent_turned h
  intro b hb
  obtain rfl : run' = b := Option.mem_unique hactive' hb
  exact ⟨run, hactive, by rw [hturned.run], by rw [hturned.run]⟩

theorem tool_parked {event : ToolEvent} (h : applyToolEvent s event = .ok t)
    (hpark : (CoreAgentEvent.tool event).parkedBatch = none) :
    ∀ b, t.runs.active = some b → b.parkedToolBatch = none ∨
      ∃ a, s.runs.active = some a ∧ b.parkedToolBatch = a.parkedToolBatch := by
  cases applyToolEvent_moves h with
  | works cursor hworks hactive hrun =>
    rintro b ⟨⟩
    exact .inr ⟨_, hactive, by rw [hrun]⟩
  | parks => cases hpark
  | unparks =>
    rintro b ⟨⟩
    exact .inl rfl
  | completes hactive =>
    rintro b ⟨⟩
    exact .inr ⟨_, hactive, rfl⟩

/-- Only parking a batch parks a run on it. -/
theorem applyEvent_parked (hinv : EntriesInv s) (hpark : entry.event.parkedBatch = none)
    (h : applyEvent s entry = .ok t) :
    ∀ b, t.runs.active = some b → b.parkedToolBatch = none ∨
      ∃ a, s.runs.active = some a ∧ b.parkedToolBatch = a.parkedToolBatch := by
  obtain ⟨-, m, hm, rfl⟩ := applyEvent_eq_ok.mp h
  change ∀ b, m.runs.active = some b → b.parkedToolBatch = none ∨
    ∃ a, s.runs.active = some a ∧ b.parkedToolBatch = a.parkedToolBatch
  intro b hb
  cases applyEventKind_moves hm with
  | run heq hm =>
    exact (run_sameWork hm b hb).imp ActiveRun.Workless.parked
      fun ⟨a, ha, hwork⟩ => ⟨a, ha, hwork.parked⟩
  | approval heq hm =>
    obtain ⟨a, ha, hwork⟩ := approval_sameWork hm b hb
    exact .inr ⟨a, ha, hwork.parked⟩
  | turn heq hm =>
    obtain ⟨a, ha, hwork⟩ := turn_sameWork hm b hb
    exact .inr ⟨a, ha, hwork.parked⟩
  | context heq hm =>
    obtain ⟨a, ha, hkept⟩ := (applyContextEvent_frame hinv hm).active b hb
    exact .inr ⟨a, ha, by rw [hkept.run]⟩
  | tool heq hm => exact tool_parked hm (heq ▸ hpark) b hb
  | rests hspares hruns => exact .inr ⟨b, hruns ▸ hb, rfl⟩

/-! ## The invariant -/

/-- A promise that a state holds is terminal when the log has its answer. -/
def KnowsAnswers (s : CoreAgentState) (log : List CoreAgentEntry) : Prop :=
  ∀ id promise, s.promises.promises.get? id = some promise →
    promise.status.isTerminal = answered log id

/-- What a suspension waits on is there. -/
def CanBeAnswered (s : CoreAgentState) (suspension : ToolBatchSuspension) : Prop :=
  suspension.spec.promiseIds ≠ [] ∧
    ∀ id ∈ suspension.spec.promiseIds, s.promises.promises.contains id = true

/-- What a log says of the waits. -/
structure WaitsInv (s : CoreAgentState) (log : List CoreAgentEntry) : Prop where
  answers : KnowsAnswers s log
  present : s.ForActive fun run => ∀ parked, run.parkedToolBatch = some parked →
    CanBeAnswered s parked.suspension
  since : s.ForActive fun run => ∀ parked, run.parkedToolBatch = some parked →
    ParkedSince parked.batchId log
  once : ∀ batchId, UnparkedOnce batchId log

theorem waitsInv_init : WaitsInv CoreAgentState.new [] where
  answers := nofun
  present := by rintro run ⟨⟩
  since := by rintro run ⟨⟩
  once := fun batchId before first between second after h => by simp at h

/-- A promise is stored under a key whose last event says whether it is terminal. -/
theorem KnowsAnswers.insert (h : KnowsAnswers s log) {id : PromiseId} {promise : Promise}
    (hpromises : t.promises.promises = s.promises.promises.insert id promise)
    (hsame : ∀ other, other ≠ id → entry.event.answers other = none)
    (hstatus : promise.status.isTerminal = (entry.event.answers id).getD (answered log id)) :
    KnowsAnswers t (log ++ [entry]) := by
  intro other stored hget
  rw [answered_snoc]
  rw [hpromises, OrdMap.get?_insert] at hget
  split_ifs at hget with heq
  · cases heq
    cases hget
    exact hstatus
  · rw [hsame other (Ne.symm heq)]
    exact h other stored hget

theorem answers_promise {event : PromiseEvent} (h : KnowsAnswers s log)
    (hevent : entry.event = .promise event) (happly : applyPromiseEvent s event = .ok t) :
    KnowsAnswers t (log ++ [entry]) := by
  have hother : ∀ id, (∀ other, other ≠ id → (CoreAgentEvent.promise event).answers other = none) →
      ∀ other, other ≠ id → entry.event.answers other = none := by
    rw [hevent]
    exact fun id h => h
  cases event with
  | created promise =>
    obtain ⟨hpending, -, -, rfl⟩ := promiseCreated_eq_ok.mp happly
    refine h.insert rfl (hother _ fun other hne => if_neg hne.symm) ?_
    simp [hevent, CoreAgentEvent.answers, hpending, PromiseStatus.isTerminal]
  | resolved promiseId payloadRef =>
    obtain ⟨promise, -, -, rfl⟩ := promiseResolved_eq_ok.mp happly
    refine h.insert rfl (hother _ fun other hne => if_neg hne.symm) ?_
    simp [hevent, CoreAgentEvent.answers, PromiseStatus.isTerminal]
  | failed promiseId errorRef =>
    obtain ⟨promise, -, -, rfl⟩ := promiseFailed_eq_ok.mp happly
    refine h.insert rfl (hother _ fun other hne => if_neg hne.symm) ?_
    simp [hevent, CoreAgentEvent.answers, PromiseStatus.isTerminal]
  | cancelled promiseId =>
    obtain ⟨promise, -, -, rfl⟩ := promiseCancelled_eq_ok.mp happly
    refine h.insert rfl (hother _ fun other hne => if_neg hne.symm) ?_
    simp [hevent, CoreAgentEvent.answers, PromiseStatus.isTerminal]
  | detached promiseId =>
    obtain ⟨promise, hget, -, rfl⟩ := promiseDetached_eq_ok.mp happly
    refine h.insert rfl (hother _ fun other hne => rfl) ?_
    rw [hevent]
    exact h promiseId promise hget

theorem answers_step (hinv : Inv s) (h : KnowsAnswers s log) (happly : applyEvent s entry = .ok t) :
    KnowsAnswers t (log ++ [entry]) := by
  cases hpromise : entry.event.isPromise with
  | true =>
    obtain ⟨-, m, hm, rfl⟩ := applyEvent_eq_ok.mp happly
    cases hevent : entry.event with
    | promise event =>
      simp only [applyEventKind, hevent] at hm
      have hanswers : KnowsAnswers m (log ++ [entry]) := answers_promise h hevent hm
      exact hanswers
    | _ => rw [hevent] at hpromise; cases hpromise
  | false =>
    have hquiet : ∀ id, entry.event.answers id = none := by
      intro id
      cases hevent : entry.event with
      | promise event => rw [hevent] at hpromise; cases hpromise
      | _ => rfl
    intro id promise hget
    rw [answered_snoc, hquiet, Option.getD_none]
    -- Pruning only takes promises away.
    cases hprune : entry.event.mayPrune with
    | false =>
      rw [applyEvent_promises hinv.entries hpromise hprune happly] at hget
      exact h id promise hget
    | true =>
      rw [applyEvent_prunes hprune happly] at hget
      simp only [pruneTerminalPromises, CoreAgentState.setPromises, OrdMap.get?_filter,
        Option.filter_eq_some_iff] at hget
      exact h id promise hget.1

/-- The joined calls that a batch parks on have their promises. -/
theorem validateJoinedCalls_contains {runId : RunId} {batch : ActiveToolBatch}
    {calls : List JoinedWorkflowCall} {seenCalls : List ToolCallId} {seenPromises : List PromiseId}
    (h : validateJoinedCalls s runId batch seenCalls seenPromises calls = .ok ()) :
    ∀ joined ∈ calls, s.promises.promises.contains joined.promiseId = true := by
  induction calls generalizing seenCalls seenPromises with
  | nil => nofun
  | cons first rest ih =>
    simp only [validateJoinedCalls, bind_eq_ok, require_eq_ok, orError_eq_ok, exists_unit] at h
    obtain ⟨-, -, promise, hget, -, -, hrest⟩ := h
    intro joined hmem
    rcases List.mem_cons.mp hmem with rfl | hmem
    · exact OrdMap.contains_iff.mpr ⟨promise, hget⟩
    · exact ih hrest joined hmem

/-- A batch parks on promises that are there: for joined calls the reducer looks, for an await its
proposer did. -/
theorem canBeAnswered_of_parked {runId : RunId} {turnId : TurnId} {batch : ActiveToolBatch}
    {suspension : ToolBatchSuspension}
    (hknew : Knew base input s (.tool (.batchParked runId turnId batchId suspension)))
    (hvalid : validateSuspension s runId batchId batch suspension = .ok ()) :
    CanBeAnswered s suspension := by
  cases suspension with
  | awaitTool callId spec => exact hknew
  | joinedWorkflowCalls calls spec =>
    simp only [validateSuspension, bind_eq_ok, require_eq_ok, exists_unit] at hvalid
    obtain ⟨⟨hcalls, -⟩, hjoined, hids⟩ := hvalid
    unfold CanBeAnswered ToolBatchSuspension.spec
    rw [hids]
    refine ⟨fun hnil => hcalls (List.map_eq_nil_iff.mp hnil), fun id hid => ?_⟩
    obtain ⟨joined, hmem, rfl⟩ := List.mem_map.mp hid
    exact validateJoinedCalls_contains hjoined joined hmem

/-- After pruning, no batch is active. -/
theorem batch_of_mayPrune (hprune : entry.event.mayPrune = true) (happly : applyEvent s entry = .ok t) :
    t.ForActive fun run => run.activeToolBatchId = none := by
  obtain ⟨-, m, hm, rfl⟩ := applyEvent_eq_ok.mp happly
  change m.ForActive fun run => run.activeToolBatchId = none
  cases applyEventKind_moves hm with
  | run heq hm =>
    cases applyRunEvent_moves hm with
    | ends =>
      intro b hb
      simp at hb
    | queues hqueues => rw [heq, mayPrune_of_queues hqueues] at hprune; cases hprune
    | _ => rw [heq] at hprune; cases hprune
  | tool heq hm =>
    cases applyToolEvent_moves hm with
    | completes =>
      rintro b ⟨⟩
      rfl
    | works cursor hworks => rw [heq, mayPrune_of_works hworks] at hprune; cases hprune
    | _ => rw [heq] at hprune; cases hprune
  | rests hspares => rw [mayPrune_of_sparesRuns hspares] at hprune; cases hprune
  | _ heq => rw [heq] at hprune; cases hprune

/-- Pruning comes when no batch is parked. -/
theorem parked_of_mayPrune (hinv : Inv t) (hprune : entry.event.mayPrune = true)
    (happly : applyEvent s entry = .ok t) : t.ForActive fun run => run.parkedToolBatch = none := by
  intro run hactive
  have hidle : run.activeToolBatchId = none := batch_of_mayPrune hprune happly run hactive
  cases hparked : run.parkedToolBatch with
  | none => rfl
  | some parked =>
    rw [(hinv.run run hactive).parked parked hparked] at hidle
    cases hidle

/-- A batch that is unparked was parked, and the run is parked on nothing then. -/
theorem unparkedBatch_spec (hunpark : entry.event.unparkedBatch = some batchId)
    (happly : applyEvent s entry = .ok t) :
    (∃ run parked, s.runs.active = some run ∧ run.parkedToolBatch = some parked ∧
      parked.batchId = batchId) ∧ t.ForActive fun run => run.parkedToolBatch = none := by
  obtain ⟨-, m, hm, rfl⟩ := applyEvent_eq_ok.mp happly
  change _ ∧ m.ForActive fun run => run.parkedToolBatch = none
  cases hevent : entry.event with
  | tool event =>
    simp only [applyEventKind, hevent] at hm
    rw [hevent] at hunpark
    cases event with
    | batchUnparked runId turnId unparked =>
      cases hunpark
      obtain ⟨run, _, hactive, -, -, -, -, -, hparked, rfl⟩ := batchUnparked_eq_ok.mp hm
      obtain ⟨parked, hget, hid⟩ : ∃ parked, run.parkedToolBatch = some parked ∧
          parked.batchId = batchId := by
        unfold ActiveRun.isParkedOn at hparked
        cases hget : run.parkedToolBatch with
        | none => rw [hget] at hparked; cases hparked
        | some parked => exact ⟨parked, rfl, by simpa [hget] using hparked⟩
      refine ⟨⟨run, parked, hactive, hget, hid⟩, ?_⟩
      rintro b ⟨⟩
      rfl
    | _ => cases hunpark
  | _ => rw [hevent] at hunpark; cases hunpark

/-- Every warranted event keeps what is known of the waits. -/
theorem waits_step (hinv : Inv s) (h : WaitsInv s log) (hw : Warrant base input s entry)
    (happly : applyEvent s entry = .ok t) : WaitsInv t (log ++ [entry]) := by
  have hanswers : KnowsAnswers t (log ++ [entry]) := answers_step hinv h.answers happly
  have honce : ∀ batchId, UnparkedOnce batchId (log ++ [entry]) := by
    refine fun batchId => (h.once batchId).snoc fun hunpark => ?_
    obtain ⟨⟨run, parked, hactive, hparked, rfl⟩, -⟩ := unparkedBatch_spec hunpark happly
    exact h.since run hactive parked hparked
  cases hpark : entry.event.parkedBatch with
  | some batchId =>
    cases hevent : entry.event with
    | tool event =>
      rw [hevent] at hpark
      cases event with
      | batchParked runId turnId parkedId suspension =>
        cases hpark
        obtain ⟨-, m, hm, rfl⟩ := applyEvent_eq_ok.mp happly
        simp only [applyEventKind, hevent] at hm
        obtain ⟨run, batch, -, -, -, -, -, -, -, -, -, hvalid, -, rfl⟩ := batchParked_eq_ok.mp hm
        have hknew := hw.knew
        rw [hevent] at hknew
        have hcan : CanBeAnswered s suspension := canBeAnswered_of_parked hknew hvalid
        refine ⟨hanswers, ?_, ?_, honce⟩
        · rintro b ⟨⟩ parked ⟨⟩
          exact hcan
        · rintro b ⟨⟩ parked ⟨⟩
          exact .park (by rw [hevent]; rfl) (by rw [hevent]; rintro ⟨⟩)
      | _ => cases hpark
    | _ => rw [hevent] at hpark; cases hpark
  | none =>
    have hsame := applyEvent_parked hinv.entries hpark happly
    refine ⟨hanswers, fun b hb parked hparked => ?_, fun b hb parked hparked => ?_, honce⟩
    · obtain ⟨a, ha, heq⟩ := (hsame b hb).resolve_left (by simp [hparked])
      obtain ⟨hne, hpresent⟩ := h.present a ha parked (heq ▸ hparked)
      refine ⟨hne, fun id hid => ?_⟩
      cases hprune : entry.event.mayPrune with
      | true =>
        rw [parked_of_mayPrune (inv_step hinv hw happly) hprune happly b hb] at hparked
        cases hparked
      | false => exact applyEvent_contains hinv.entries hprune happly (hpresent id hid)
    · obtain ⟨a, ha, heq⟩ := (hsame b hb).resolve_left (by simp [hparked])
      refine (h.since a ha parked (heq ▸ hparked)).snoc fun hunpark => ?_
      rw [(unparkedBatch_spec hunpark happly).2 b hb] at hparked
      cases hparked

theorem reachable_waits (h : Reachable sessionId s log) : WaitsInv s log := by
  obtain ⟨steps, htrace⟩ := EventSource.Reaches.trace h
  refine trace_preserves (P := WaitsInv) (M := fun _ _ => True) waitsInv_init ?_ htrace
    fun _ _ => trivial
  intro base input s log entry t _ hinv _ _ hwaits hw happly
  exact waits_step hinv hwaits hw happly

/-! ## Waking -/

/-- A wait whose promises are all in the state is satisfied by their answers. -/
theorem satisfied_of_answered {spec : AwaitSpec} (hknown : KnowsAnswers s log)
    (hpresent : ∀ id ∈ spec.promiseIds, s.promises.promises.contains id = true)
    (h : spec.Answered log) : spec.satisfied s = true := by
  have hterminal : ∀ id ∈ spec.promiseIds, answered log id = true →
      (s.promises.promises.get? id).any (fun promise => promise.status.isTerminal) = true := by
    intro id hid hanswered
    obtain ⟨promise, hget⟩ := OrdMap.contains_iff.mp (hpresent id hid)
    rw [hget, Option.any_some, hknown id promise hget, hanswered]
  unfold AwaitSpec.Answered at h
  unfold AwaitSpec.satisfied terminalCount
  cases hmode : spec.mode with
  | all =>
    rw [hmode] at h
    simp only [beq_iff_eq]
    exact List.countP_eq_length.mpr fun id hid => hterminal id hid (h id hid)
  | any =>
    rw [hmode] at h
    obtain ⟨id, hid, hanswered⟩ := h
    simp only [decide_eq_true_eq]
    exact List.countP_pos_iff.mpr ⟨id, hid, hterminal id hid hanswered⟩

/-- A wait can always be satisfied: every promise that a parked batch waits on is in the state, so that
once the log has the answers of all of them, or of one where one is enough, there is a wake. And a
batch is unparked once for each time that it was parked, in whatever order answers, cancellations and
unpark commands come. -/
theorem wait_satisfiable (h : Reachable sessionId s log) :
    (∀ run parked, s.runs.active = some run → run.parkedToolBatch = some parked →
      (∀ id ∈ parked.suspension.spec.promiseIds, s.promises.promises.contains id = true) ∧
        (parked.suspension.spec.Answered log → ∀ nowMs, (awaitWake s nowMs).isSome = true)) ∧
      ∀ batchId, UnparkedOnce batchId log := by
  have hinv := reachable_waits h
  refine ⟨fun run parked hactive hparked => ?_, hinv.once⟩
  obtain ⟨hne, hpresent⟩ := hinv.present run hactive parked hparked
  refine ⟨hpresent, fun hanswered nowMs => ?_⟩
  have hsatisfied := satisfied_of_answered hinv.answers hpresent hanswered
  simp only [awaitWake, hactive, hparked, Option.bind_eq_bind, Option.bind_some, hsatisfied]
  split_ifs with hcancelling hdeadline
  · rfl
  · rfl
  · rfl

/-- The parked session, once the workflow has replied. -/
def repliedRun : List (Nat × DriveInput) :=
  parkedRun ++ [(12, .admitCommand (.resolvePromise ⟨1, one_lt_u64Bound⟩ (.resolved (some ⟨"reply"⟩))))]

theorem wait_satisfiable_replied : ∃ s log, (drive "session").exec repliedRun = some (s, log) ∧
    (awaitWake s 13).isSome = true := by
  have hsome : ((drive "session").exec repliedRun).map (fun p =>
      (p.1.runs.active.bind ActiveRun.parkedToolBatch).map (fun parked =>
        (parked.suspension.spec.mode, parked.suspension.spec.promiseIds.map (answered p.2)))) =
      some (some (.all, [true])) := by
    decide +kernel
  obtain ⟨⟨s, log⟩, hexec, hanswered⟩ := Option.map_eq_some_iff.mp hsome
  obtain ⟨parked, hparked, hspec⟩ := Option.map_eq_some_iff.mp hanswered
  obtain ⟨run, hactive, hparked⟩ := Option.bind_eq_some_iff.mp hparked
  obtain ⟨hmode, hids⟩ := Prod.mk.inj hspec
  have hwait := (wait_satisfiable (EventSource.exec_reaches hexec)).1 run parked hactive hparked
  refine ⟨s, log, hexec, hwait.2 ?_ 13⟩
  unfold AwaitSpec.Answered
  rw [hmode]
  intro id hid
  have hmem : answered log id ∈ parked.suspension.spec.promiseIds.map (answered log) :=
    List.mem_map_of_mem hid
  rw [hids] at hmem
  exact List.mem_singleton.mp hmem

end Lightspeed.Harness
