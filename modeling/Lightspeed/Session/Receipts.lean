import Lightspeed.Harness.Config
import Lightspeed.Lib.Machine
import Lightspeed.Lib.Result

/-!
# Receipts of session operations

`SessionOperationReceipts` of `session_preparation.rs`, and `process_operation`, which runs an operation only
when the receipts know nothing of it. An outcome is retained under the id of its operation. When there are too
many, the oldest submission time is retired: every receipt of that time or before it is refused from then on,
whether its outcome was retained or not. So memory is bounded, and a receipt that was once known is known or
refused for ever.

What an operation does is outside of this: it comes to an outcome, or its commit fails, and the workflow with
it.
-/

namespace Lightspeed.Session.Receipts

open Lib Harness

/-! ## Operations -/

inductive SessionProfileInstructions where
  | text (text : String)
  | textRef (blobRef : BlobRef)
  deriving DecidableEq

structure SessionProfileIntent where
  config : Option SessionConfig
  instructions : Option SessionProfileInstructions
  environment : Option EnvironmentId
  deriving DecidableEq

/-- `SessionOperation`. -/
inductive SessionOperation where
  | configure (config : SessionConfig) (expectedRevision : Option Nat)
  | applyProfile (profile : SessionProfileIntent)
    (expectedConfigRevision expectedToolsRevision : Option Nat)
  | refreshContext
  deriving DecidableEq

/-- `SessionOperationRequest`. -/
structure SessionOperationRequest where
  operationId : String
  submittedAtMs : Nat
  operation : SessionOperation

/-- `SessionOperationReceipt`. -/
structure SessionOperationReceipt where
  operationId : String
  submittedAtMs : Nat
  fingerprint : String
  deriving DecidableEq

/-- `SessionOperationRequest::receipt`, with the digest of a request's encoding as a parameter. -/
def SessionOperationRequest.receipt (fingerprint : SessionOperationRequest → String)
    (request : SessionOperationRequest) : SessionOperationReceipt where
  operationId := request.operationId
  submittedAtMs := request.submittedAtMs
  fingerprint := fingerprint request

/-- `AgentApiErrorKind`. -/
inductive AgentApiErrorKind where
  | invalidRequest
  | notFound
  | conflict
  | rejected
  | unauthenticated
  | forbidden
  | modelDefaultUnset
  | audioBlobTooLarge
  | sessionBootstrapFailed
  | sessionExecutionStopped
  | environmentNotReady
  | responseTooLarge
  | operationPending
  | internal
  deriving DecidableEq

/-- `AgentApiError`. -/
structure AgentApiError where
  kind : AgentApiErrorKind
  message : String
  deriving DecidableEq

/-- `ProfileApplySummary`. -/
structure ProfileApplySummary where
  configChanged : Bool := false
  instructionsChanged : Bool := false
  activeEnvironmentChanged : Bool := false
  deriving DecidableEq

/-- `SessionOperationOutcome`. -/
structure SessionOperationOutcome where
  receipt : SessionOperationReceipt
  result : Except AgentApiError ProfileApplySummary
  deriving DecidableEq

/-! ## Receipts -/

/-- `SessionOperationReceipts`. -/
structure SessionOperationReceipts where
  retiredThroughMs : Option Nat := none
  outcomes : OrdMap String SessionOperationOutcome := .empty

namespace SessionOperationReceipts

/-- `CAPACITY`. -/
def capacity : Nat := 256

/-- `lookup`. -/
def lookup (receipts : SessionOperationReceipts) (receipt : SessionOperationReceipt) :
    Except AgentApiError (Option SessionOperationOutcome) :=
  if receipts.retiredThroughMs.any fun time => receipt.submittedAtMs ≤ time then
    .error ⟨.conflict,
      "session preparation receipt expired; reload session state before submitting a new operation"⟩
  else
    match receipts.outcomes.get? receipt.operationId with
    | some outcome =>
      if outcome.receipt ≠ receipt then
        .error ⟨.conflict, "operation ID was reused with different intent"⟩
      else .ok (some outcome)
    | none => .ok none

/-- The oldest submission of what is retained. -/
def oldest (outcomes : OrdMap String SessionOperationOutcome) : Option Nat :=
  (outcomes.values.map fun outcome => outcome.receipt.submittedAtMs).min?

/-- `insert`. -/
def insert (receipts : SessionOperationReceipts) (outcome : SessionOperationOutcome) :
    SessionOperationReceipts :=
  let outcomes := receipts.outcomes.insert outcome.receipt.operationId outcome
  if capacity < outcomes.entries.length then
    match oldest outcomes with
    | some time =>
      { retiredThroughMs := some time
        outcomes := outcomes.filter fun _ outcome => time < outcome.receipt.submittedAtMs }
    | none => { receipts with outcomes }
  else { receipts with outcomes }

end SessionOperationReceipts

/-! ## Processing -/

/-- What an execution comes to: an outcome, or a commit that failed. -/
inductive Execution where
  | outcome (result : Except AgentApiError ProfileApplySummary)
  | commitFailed

/-- The session workflow, as far as its operations go; with the receipts that were executed, and the outcomes
that executions came to, in their order. -/
structure Operations where
  receipts : SessionOperationReceipts := {}
  ready : Bool := false
  failed : Bool := false
  executed : List SessionOperationReceipt := []
  completed : List SessionOperationOutcome := []

/-- `process_operation`. -/
def Operations.processOperation (fingerprint : SessionOperationRequest → String) (s : Operations)
    (request : SessionOperationRequest) (execution : Execution) : Operations :=
  let receipt := request.receipt fingerprint
  match s.receipts.lookup receipt with
  | .ok none =>
    if ¬ s.ready then
      { s with
        receipts := s.receipts.insert
          ⟨receipt, .error ⟨.rejected, "session setup has not completed"⟩⟩ }
    else
      match execution with
      | .commitFailed => { s with failed := true, executed := s.executed ++ [receipt] }
      | .outcome result =>
        { s with
          receipts := s.receipts.insert ⟨receipt, result⟩
          executed := s.executed ++ [receipt]
          completed := s.completed ++ [⟨receipt, result⟩] }
  | _ => s

/-- `AgentSessionContinuationState`, as far as operations go. -/
structure AgentSessionContinuationState where
  ready : Bool
  operationOutcomes : SessionOperationReceipts

/-- What a rollover carries. -/
def Operations.carried (s : Operations) : AgentSessionContinuationState where
  ready := s.ready
  operationOutcomes := s.receipts

/-- The workflow that starts from what was carried. -/
def Operations.restored (s : Operations) (carried : AgentSessionContinuationState) : Operations :=
  { s with ready := carried.ready, receipts := carried.operationOutcomes }

/-- What happens to the workflow. -/
inductive OperationInput where
  | operation (request : SessionOperationRequest) (execution : Execution)
  | setUp
  | rolledOver

/-- A workflow that failed takes nothing more. -/
def Operations.step (fingerprint : SessionOperationRequest → String) (s : Operations) :
    OperationInput → Option Operations
  | input =>
    if s.failed then none
    else
      match input with
      | .operation request execution => some (s.processOperation fingerprint request execution)
      | .setUp => some { s with ready := true }
      | .rolledOver => some (s.restored s.carried)

def sessionOperations (fingerprint : SessionOperationRequest → String) :
    Machine Operations OperationInput where
  init := (· = {})
  step := Operations.step fingerprint

/-! ## What receipts keep -/

namespace SessionOperationReceipts

variable {receipts : SessionOperationReceipts} {outcome other : SessionOperationOutcome}
  {receipt : SessionOperationReceipt} {time : Nat}

/-- Outcomes stand under their ids, all of them submitted after the retired time, and are not too many. -/
structure Retaining (receipts : SessionOperationReceipts) : Prop where
  keyed : ∀ id outcome, receipts.outcomes.get? id = some outcome → outcome.receipt.operationId = id
  later : ∀ id outcome, receipts.outcomes.get? id = some outcome →
    ∀ time, receipts.retiredThroughMs = some time → time < outcome.receipt.submittedAtMs
  bounded : receipts.outcomes.entries.length ≤ capacity

/-- An outcome is retained, or its time is retired. -/
def Known (receipts : SessionOperationReceipts) (outcome : SessionOperationOutcome) : Prop :=
  receipts.outcomes.get? outcome.receipt.operationId = some outcome ∨
    ∃ time, receipts.retiredThroughMs = some time ∧ outcome.receipt.submittedAtMs ≤ time

theorem retaining_empty : Retaining {} := by
  refine ⟨?_, ?_, Nat.zero_le _⟩
  · intro id outcome h
    cases h
  · intro id outcome h
    cases h

/-- A lookup finds nothing exactly when the time is not retired and the id is free. -/
theorem lookup_eq_none (h : receipts.lookup receipt = .ok none) :
    (∀ time, receipts.retiredThroughMs = some time → time < receipt.submittedAtMs) ∧
      receipts.outcomes.get? receipt.operationId = none := by
  unfold lookup at h
  by_cases hretired : (receipts.retiredThroughMs.any fun time => receipt.submittedAtMs ≤ time) = true
  · rw [if_pos hretired] at h
    cases h
  · rw [if_neg hretired] at h
    constructor
    · intro time htime
      rw [htime, Option.any_some, decide_eq_true_eq] at hretired
      exact Nat.lt_of_not_le hretired
    · cases hget : receipts.outcomes.get? receipt.operationId with
      | none => rfl
      | some outcome =>
        rw [hget] at h
        dsimp only at h
        split_ifs at h
        cases h

/-- An outcome that is known is found, or its receipt is refused. -/
theorem lookup_of_known (h : receipts.Known outcome) :
    receipts.lookup outcome.receipt = .ok (some outcome) ∨
      ∃ message, receipts.lookup outcome.receipt = .error ⟨.conflict, message⟩ := by
  unfold lookup
  by_cases hretired : (receipts.retiredThroughMs.any fun time => outcome.receipt.submittedAtMs ≤ time) = true
  · rw [if_pos hretired]
    exact .inr ⟨_, rfl⟩
  · rw [if_neg hretired]
    rcases h with hget | ⟨time, htime, hle⟩
    · rw [hget]
      dsimp only
      rw [if_neg (not_not.mpr rfl)]
      exact .inl rfl
    · rw [htime, Option.any_some, decide_eq_true_eq] at hretired
      exact absurd hle hretired

/-- The oldest submission is the time of an outcome, and no outcome is older. -/
theorem oldest_eq_some {outcomes : OrdMap String SessionOperationOutcome}
    (h : oldest outcomes = some time) :
    (∃ id outcome, outcomes.get? id = some outcome ∧ outcome.receipt.submittedAtMs = time) ∧
      ∀ id outcome, outcomes.get? id = some outcome → time ≤ outcome.receipt.submittedAtMs := by
  obtain ⟨hmem, hle⟩ := List.min?_eq_some_iff.mp h
  constructor
  · obtain ⟨outcome, houtcome, htime⟩ := List.mem_map.mp hmem
    obtain ⟨id, hget⟩ := OrdMap.mem_values.mp houtcome
    exact ⟨id, outcome, hget, htime⟩
  · intro id outcome hget
    exact hle _ (List.mem_map_of_mem (OrdMap.mem_values.mpr ⟨id, hget⟩))

theorem length_insert_le {κ α : Type} [LinearOrder κ] (m : OrdMap κ α) (k : κ) (a : α) :
    (m.insert k a).entries.length ≤ m.entries.length + 1 := by
  rw [(m.entries_insert_perm k a).length_eq, List.length_cons]
  exact Nat.succ_le_succ (List.length_filter_le ..)

/-- A filter that drops an entry leaves fewer. -/
theorem length_filter_lt {κ α : Type} [LinearOrder κ] {m : OrdMap κ α} {p : κ → α → Bool} {k : κ} {a : α}
    (hget : m.get? k = some a) (hp : p k a = false) : (m.filter p).entries.length < m.entries.length := by
  apply List.length_filter_lt_length_iff_exists.mpr
  exact ⟨(k, a), OrdMap.get?_eq_some_iff.mp hget, by simp [hp]⟩

/-- What an insertion does: either nothing is retired, or the time of the oldest outcome is. -/
theorem insert_cases (receipts : SessionOperationReceipts) (outcome : SessionOperationOutcome) :
    (receipts.insert outcome =
        { receipts with outcomes := receipts.outcomes.insert outcome.receipt.operationId outcome } ∧
      (receipts.outcomes.insert outcome.receipt.operationId outcome).entries.length ≤ capacity) ∨
    ∃ time, oldest (receipts.outcomes.insert outcome.receipt.operationId outcome) = some time ∧
      receipts.insert outcome =
        { retiredThroughMs := some time
          outcomes := (receipts.outcomes.insert outcome.receipt.operationId outcome).filter
            fun _ outcome => time < outcome.receipt.submittedAtMs } := by
  unfold insert
  dsimp only
  split_ifs with hover
  · right
    cases holdest : oldest (receipts.outcomes.insert outcome.receipt.operationId outcome) with
    | some time => exact ⟨time, rfl, rfl⟩
    | none =>
      -- There is an outcome, the one that was inserted.
      have hnil := List.map_eq_nil_iff.mp (List.min?_eq_none_iff.mp holdest)
      have hmem : outcome ∈ (receipts.outcomes.insert outcome.receipt.operationId outcome).values :=
        OrdMap.mem_values.mpr ⟨_, OrdMap.get?_insert_self ..⟩
      rw [hnil] at hmem
      cases hmem
  · exact .inl ⟨rfl, Nat.le_of_not_lt hover⟩

/-- After the insertion of a new outcome, the outcomes stand as they should, what was known is known, and the
retired time has not gone back. -/
theorem Retaining.insert (hr : receipts.Retaining) (outcome : SessionOperationOutcome)
    (hnone : receipts.lookup outcome.receipt = .ok none) :
    (receipts.insert outcome).Retaining ∧
      (∀ other, receipts.Known other ∨ other = outcome → (receipts.insert outcome).Known other) ∧
      ∀ time, receipts.retiredThroughMs = some time →
        ∃ time', (receipts.insert outcome).retiredThroughMs = some time' ∧ time ≤ time' := by
  obtain ⟨hafter, hfree⟩ := lookup_eq_none hnone
  have hkeyed : ∀ id other,
      (receipts.outcomes.insert outcome.receipt.operationId outcome).get? id = some other →
        other.receipt.operationId = id := by
    intro id other hget
    rw [OrdMap.get?_insert] at hget
    split_ifs at hget with hid
    · obtain rfl := Option.some.inj hget
      exact hid
    · exact hr.keyed id other hget
  have hlater : ∀ id other,
      (receipts.outcomes.insert outcome.receipt.operationId outcome).get? id = some other →
        ∀ time, receipts.retiredThroughMs = some time → time < other.receipt.submittedAtMs := by
    intro id other hget
    rw [OrdMap.get?_insert] at hget
    split_ifs at hget with hid
    · obtain rfl := Option.some.inj hget
      exact hafter
    · exact hr.later id other hget
  -- What was retained stands beside the new outcome, since the new one's id was free.
  have hkept : ∀ other, receipts.outcomes.get? other.receipt.operationId = some other ∨ other = outcome →
      (receipts.outcomes.insert outcome.receipt.operationId outcome).get? other.receipt.operationId =
        some other := by
    intro other hother
    rcases hother with hget | rfl
    · have hne : outcome.receipt.operationId ≠ other.receipt.operationId := by
        intro heq
        rw [heq, hget] at hfree
        cases hfree
      rw [OrdMap.get?_insert_ne _ _ hne, hget]
    · exact OrdMap.get?_insert_self ..
  rcases receipts.insert_cases outcome with ⟨heq, hbounded⟩ | ⟨time, holdest, heq⟩
  · rw [heq]
    refine ⟨⟨hkeyed, hlater, hbounded⟩, ?_, fun time htime => ⟨time, htime, Nat.le_refl _⟩⟩
    intro other hother
    rcases hother with (hget | hretired) | rfl
    · exact .inl (hkept other (.inl hget))
    · exact .inr hretired
    · exact .inl (hkept other (.inr rfl))
  · obtain ⟨⟨id, first, hfirst, hsubmitted⟩, hle⟩ := oldest_eq_some holdest
    rw [heq]
    refine ⟨⟨?_, ?_, ?_⟩, ?_, ?_⟩
    · intro id other hget
      rw [OrdMap.get?_filter, Option.filter_eq_some_iff] at hget
      exact hkeyed id other hget.1
    · intro id other hget time' htime
      obtain rfl := Option.some.inj htime
      rw [OrdMap.get?_filter, Option.filter_eq_some_iff] at hget
      exact of_decide_eq_true hget.2
    · have hdrops := length_filter_lt (p := fun _ outcome => time < outcome.receipt.submittedAtMs) hfirst
        (decide_eq_false (Nat.not_lt_of_le (Nat.le_of_eq hsubmitted)))
      have hone := length_insert_le receipts.outcomes outcome.receipt.operationId outcome
      have hbounded := hr.bounded
      dsimp only
      omega
    · intro other hother
      by_cases hretired : other.receipt.submittedAtMs ≤ time
      · exact .inr ⟨time, rfl, hretired⟩
      · have hget : receipts.outcomes.get? other.receipt.operationId = some other ∨ other = outcome := by
          rcases hother with (hget | ⟨time', htime', hold⟩) | rfl
          · exact .inl hget
          · -- What was retired before is older than the oldest outcome.
            have hlt := hlater id first hfirst time' htime'
            omega
          · exact .inr rfl
        left
        rw [OrdMap.get?_filter, hkept other hget]
        exact Option.filter_some_pos (decide_eq_true (Nat.lt_of_not_le hretired))
    · intro time' htime'
      have hlt := hlater id first hfirst time' htime'
      exact ⟨time, rfl, by omega⟩

end SessionOperationReceipts

/-! ## Runs -/

variable {fingerprint : SessionOperationRequest → String} {s t : Operations}
  {request : SessionOperationRequest} {execution : Execution} {input : OperationInput}

open SessionOperationReceipts

/-- What holds of the workflow: what was executed to an end is known, and nothing was executed twice. -/
structure Operations.Inv (s : Operations) : Prop where
  retaining : s.receipts.Retaining
  known : ∀ outcome ∈ s.completed, s.receipts.Known outcome
  executed : s.failed = false → s.executed = s.completed.map SessionOperationOutcome.receipt
  nodup : s.executed.Nodup

/-- What is new to the receipts was not executed. -/
theorem Operations.Inv.not_mem_executed {receipt : SessionOperationReceipt} (hs : s.Inv)
    (hnotFailed : s.failed = false) (hnone : s.receipts.lookup receipt = .ok none) :
    receipt ∉ s.executed := by
  rw [hs.executed hnotFailed]
  intro hmem
  obtain ⟨outcome, houtcome, rfl⟩ := List.mem_map.mp hmem
  rcases lookup_of_known (hs.known outcome houtcome) with hfound | ⟨message, hrefused⟩
  · rw [hnone] at hfound
    cases hfound
  · rw [hnone] at hrefused
    cases hrefused

/-- The three ways in which an operation that is new goes, and that any other one changes nothing. -/
theorem Operations.processOperation_cases (fingerprint : SessionOperationRequest → String) (s : Operations)
    (request : SessionOperationRequest) (execution : Execution) :
    s.processOperation fingerprint request execution = s ∨
      s.receipts.lookup (request.receipt fingerprint) = .ok none ∧
        ((∃ error, s.processOperation fingerprint request execution =
            { s with receipts := s.receipts.insert ⟨request.receipt fingerprint, .error error⟩ }) ∨
          s.processOperation fingerprint request execution =
            { s with failed := true, executed := s.executed ++ [request.receipt fingerprint] } ∨
          ∃ result, s.processOperation fingerprint request execution =
            { s with
              receipts := s.receipts.insert ⟨request.receipt fingerprint, result⟩
              executed := s.executed ++ [request.receipt fingerprint]
              completed := s.completed ++ [⟨request.receipt fingerprint, result⟩] }) := by
  unfold processOperation
  dsimp only
  split
  · rename_i hnone
    refine .inr ⟨hnone, ?_⟩
    split_ifs with hready
    · cases execution with
      | commitFailed => exact .inr (.inl rfl)
      | outcome result => exact .inr (.inr ⟨result, rfl⟩)
    · exact .inl ⟨_, rfl⟩
  · exact .inl rfl

theorem Operations.Inv.processOperation (hs : s.Inv) (hnotFailed : s.failed = false) :
    (s.processOperation fingerprint request execution).Inv := by
  rcases s.processOperation_cases fingerprint request execution with
    heq | ⟨hnone, ⟨error, heq⟩ | heq | ⟨result, heq⟩⟩
  · rw [heq]
    exact hs
  · obtain ⟨hretaining, hknown, -⟩ :=
      hs.retaining.insert ⟨request.receipt fingerprint, .error error⟩ hnone
    rw [heq]
    exact ⟨hretaining, fun outcome houtcome => hknown outcome (.inl (hs.known outcome houtcome)),
      hs.executed, hs.nodup⟩
  · have hnew := hs.not_mem_executed hnotFailed hnone
    rw [heq]
    refine ⟨hs.retaining, hs.known, fun hfalse => absurd hfalse.symm Bool.false_ne_true, ?_⟩
    exact List.concat_eq_append ▸ hs.nodup.concat hnew
  · have hnew := hs.not_mem_executed hnotFailed hnone
    obtain ⟨hretaining, hknown, -⟩ :=
      hs.retaining.insert ⟨request.receipt fingerprint, result⟩ hnone
    rw [heq]
    refine ⟨hretaining, ?_, ?_, List.concat_eq_append ▸ hs.nodup.concat hnew⟩
    · intro outcome houtcome
      rcases List.mem_append.mp houtcome with hold | hlast
      · exact hknown outcome (.inl (hs.known outcome hold))
      · exact hknown outcome (.inr (List.mem_singleton.mp hlast))
    · intro _
      rw [List.map_append, hs.executed hnotFailed]
      rfl

/-- A step is taken by a workflow that has not failed. -/
theorem Operations.step_eq_some (h : s.step fingerprint input = some t) :
    s.failed = false ∧
      ((∃ request execution, input = .operation request execution ∧
          t = s.processOperation fingerprint request execution) ∨
        t = { s with ready := true } ∨ t = s) := by
  unfold step at h
  split_ifs at h with hfailed
  refine ⟨Bool.eq_false_of_not_eq_true hfailed, ?_⟩
  cases input with
  | operation request execution => exact .inl ⟨request, execution, rfl, (Option.some.inj h).symm⟩
  | setUp => exact .inr (.inl (Option.some.inj h).symm)
  | rolledOver => exact .inr (.inr (Option.some.inj h).symm)

theorem Operations.Inv.step (hs : s.Inv) (h : s.step fingerprint input = some t) : t.Inv := by
  obtain ⟨hnotFailed, ⟨request, execution, -, rfl⟩ | rfl | rfl⟩ := Operations.step_eq_some h
  · exact hs.processOperation hnotFailed
  · exact ⟨hs.retaining, hs.known, hs.executed, hs.nodup⟩
  · exact hs

theorem reachable_inv (h : (sessionOperations fingerprint).Reaches s) : s.Inv := by
  apply h.invariant
  · rintro _ rfl
    exact ⟨retaining_empty, fun _ hmem => absurd hmem List.not_mem_nil, fun _ => rfl, List.nodup_nil⟩
  · intro s input t _ hs hstep
    exact hs.step hstep

/-- A step does not take the retired time back. -/
theorem Operations.Inv.retired_le (hs : s.Inv) (h : s.step fingerprint input = some t) {time : Nat}
    (htime : s.receipts.retiredThroughMs = some time) :
    ∃ time', t.receipts.retiredThroughMs = some time' ∧ time ≤ time' := by
  obtain ⟨-, ⟨request, execution, -, rfl⟩ | rfl | rfl⟩ := Operations.step_eq_some h
  · rcases s.processOperation_cases fingerprint request execution with
      heq | ⟨hnone, ⟨error, heq⟩ | heq | ⟨result, heq⟩⟩
    · rw [heq]
      exact ⟨time, htime, Nat.le_refl _⟩
    · rw [heq]
      exact (hs.retaining.insert ⟨request.receipt fingerprint, .error error⟩ hnone).2.2 time
        htime
    · rw [heq]
      exact ⟨time, htime, Nat.le_refl _⟩
    · rw [heq]
      exact (hs.retaining.insert ⟨request.receipt fingerprint, result⟩ hnone).2.2 time htime
  · exact ⟨time, htime, Nat.le_refl _⟩
  · exact ⟨time, htime, Nat.le_refl _⟩

theorem retired_le_of_exec {inputs : List OperationInput} (hs : s.Inv)
    (h : (sessionOperations fingerprint).exec s inputs = some t) {time : Nat}
    (htime : s.receipts.retiredThroughMs = some time) :
    ∃ time', t.receipts.retiredThroughMs = some time' ∧ time ≤ time' := by
  induction inputs generalizing s time with
  | nil =>
    obtain rfl : s = t := by simpa [Machine.exec] using h
    exact ⟨time, htime, Nat.le_refl _⟩
  | cons input inputs ih =>
    rw [Machine.exec, List.foldlM_cons, Option.bind_eq_bind, Option.bind_eq_some_iff] at h
    obtain ⟨next, hnext, h⟩ := h
    obtain ⟨time', htime', hle⟩ := hs.retired_le hnext htime
    obtain ⟨time'', htime'', hle'⟩ := ih (hs.step hnext) h htime'
    exact ⟨time'', htime'', Nat.le_trans hle hle'⟩

/-- In every run of the workflow each receipt is executed at most once; an execution that came to an outcome is
answered with this outcome or refused from then on; an id that is retained with another receipt, or at all, is
not executed; the retired time does not go back; and the outcomes are bounded, all of them submitted after
it. The only execution without an outcome is one whose commit failed, with which the workflow ended. -/
theorem session_operation_at_most_once (h : (sessionOperations fingerprint).Reaches s) :
    s.executed.Nodup ∧
      (s.failed = false → s.executed = s.completed.map SessionOperationOutcome.receipt) ∧
      (∀ outcome ∈ s.completed, s.receipts.lookup outcome.receipt = .ok (some outcome) ∨
        ∃ message, s.receipts.lookup outcome.receipt = .error ⟨.conflict, message⟩) ∧
      (∀ request execution, (∃ outcome, s.receipts.outcomes.get? request.operationId = some outcome) →
        (s.processOperation fingerprint request execution).executed = s.executed) ∧
      (∀ inputs t time, (sessionOperations fingerprint).exec s inputs = some t →
        s.receipts.retiredThroughMs = some time →
        ∃ time', t.receipts.retiredThroughMs = some time' ∧ time ≤ time') ∧
      s.receipts.outcomes.entries.length ≤ capacity ∧
      ∀ id outcome, s.receipts.outcomes.get? id = some outcome →
        ∀ time, s.receipts.retiredThroughMs = some time → time < outcome.receipt.submittedAtMs := by
  have hs := reachable_inv h
  refine ⟨hs.nodup, hs.executed, fun outcome houtcome => lookup_of_known (hs.known outcome houtcome), ?_,
    fun inputs t time hexec htime => retired_le_of_exec hs hexec htime, hs.retaining.bounded,
    hs.retaining.later⟩
  intro request execution ⟨outcome, hget⟩
  rcases s.processOperation_cases fingerprint request execution with heq | ⟨hnone, -⟩
  · rw [heq]
  · have hfree := (lookup_eq_none hnone).2
    rw [show (request.receipt fingerprint).operationId = request.operationId from rfl, hget] at hfree
    cases hfree

/-- A repeat, a rollover, and another intent under the same id. -/
def repeatedInputs : List OperationInput :=
  [.setUp, .operation ⟨"operation", 1, .refreshContext⟩ (.outcome (.ok {})), .rolledOver,
    .operation ⟨"operation", 1, .refreshContext⟩ (.outcome (.ok {})),
    .operation ⟨"operation", 1, .applyProfile ⟨none, none, none⟩ none none⟩ (.outcome (.ok {}))]

/-- A fingerprint that tells these two intents apart. -/
def intentFingerprint (request : SessionOperationRequest) : String :=
  if request.operation = .refreshContext then "refresh" else "other"

theorem session_operation_at_most_once_repeated : ∃ s,
    (sessionOperations intentFingerprint).Reaches s ∧
      s.executed = [⟨"operation", 1, "refresh"⟩] ∧ s.executed.Nodup ∧
      ∀ outcome ∈ s.completed, s.receipts.lookup outcome.receipt = .ok (some outcome) ∨
        ∃ message, s.receipts.lookup outcome.receipt = .error ⟨.conflict, message⟩ := by
  have hread : ((sessionOperations intentFingerprint).exec {} repeatedInputs).map Operations.executed =
      some [⟨"operation", 1, "refresh"⟩] := by decide +kernel
  obtain ⟨s, hexec, hexecuted⟩ := Option.map_eq_some_iff.mp hread
  have hreaches : (sessionOperations intentFingerprint).Reaches s := Machine.exec_reaches rfl hexec
  obtain ⟨hnodup, -, hknown, -⟩ := session_operation_at_most_once hreaches
  exact ⟨s, hreaches, hexecuted, hnodup, hknown⟩

end Lightspeed.Session.Receipts
