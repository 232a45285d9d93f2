import Lightspeed.Subagents.Journal

/-!
# What the runs of an execution keep

A signal adds at most the first terminal to the journal of an execution. Piece by piece the program then
keeps a journal that opens, up to the end of the wait, and one that closes behind it, so that an execution
that is over has closed its child.
-/

namespace Lightspeed.Subagents

open Lib Program
open Lightspeed.Harness (PromiseId PromiseResolution)

variable {sha256Hex : String → String} {workflowId : String} {start : WorkflowToolStartArgs}
  {begun : Option (SubagentChildRef × Option Nat)} {pending : Option SubagentTerminal}
  {tail : List JournalEntry} {head : JournalEntry} {s t u : Execution}
  {E : SubagentFailure → Execution → Prop} {replyPromiseId : PromiseId}
  {resume : SubagentExecutionResume}

/-! ## Signals -/

/-- What signals do: the first terminal becomes pending, and wakes the wait. -/
structure Signalled (s t : Execution) : Prop where
  holder : t.workflow.holderWorkflowId = s.workflow.holderWorkflowId
  nudged : s.workflow.nudged = true → t.workflow.nudged = true
  journal : (t.journal = s.journal ∧ t.workflow.pendingTerminal = s.workflow.pendingTerminal) ∨
    ∃ terminal, s.workflow.pendingTerminal = none ∧ t.workflow.pendingTerminal = some terminal ∧
      t.workflow.nudged = true ∧ t.journal = s.journal ++ [.accepted terminal]

theorem Signalled.refl (s : Execution) : Signalled s s := ⟨rfl, id, .inl ⟨rfl, rfl⟩⟩

theorem Signalled.trans (hst : Signalled s t) (htu : Signalled t u) : Signalled s u where
  holder := htu.holder.trans hst.holder
  nudged h := htu.nudged (hst.nudged h)
  journal := by
    rcases htu.journal with ⟨hjournal, hpending⟩ | ⟨terminal, hnone, hsome, hnudged, hjournal⟩
    · rcases hst.journal with ⟨hbefore, hsame⟩ | ⟨terminal, hnone, hsome, hnudged, hbefore⟩
      · exact .inl ⟨hjournal.trans hbefore, hpending.trans hsame⟩
      · exact .inr ⟨terminal, hnone, hpending.trans hsome, htu.nudged hnudged, hjournal.trans hbefore⟩
    · rcases hst.journal with ⟨hbefore, hsame⟩ | ⟨_, -, hother, -, -⟩
      · exact .inr ⟨terminal, hsame ▸ hnone, hsome, hnudged, hbefore ▸ hjournal⟩
      · rw [hnone] at hother
        cases hother

theorem acceptedBetween_of_same {before after : SubagentExecutionWorkflow}
    (h : after.pendingTerminal = before.pendingTerminal) : acceptedBetween before after = [] := by
  unfold acceptedBetween
  rw [h]
  cases before.pendingTerminal <;> rfl

theorem applyEmission_signalled (s : Execution) (envelope : EmissionEnvelope) :
    Signalled s (s.applyEmission envelope) := by
  unfold Execution.applyEmission
  rcases s.workflow.applyEmission_cases envelope with
    hsame | ⟨status, output, failureMessageRef, hnone, hset⟩ | hcancelled
  · rw [hsame, acceptedBetween_of_same rfl, List.append_nil]
    exact .refl s
  · rw [hset]
    refine ⟨rfl, fun _ => rfl, .inr ⟨_, hnone, rfl, rfl, ?_⟩⟩
    simp [acceptedBetween, hnone]
  · have hpending : (s.workflow.applyEmission envelope).pendingTerminal =
        s.workflow.pendingTerminal := by rw [hcancelled]
    rw [acceptedBetween_of_same hpending, List.append_nil, hcancelled]
    exact ⟨rfl, fun _ => rfl, .inl ⟨rfl, rfl⟩⟩

theorem receive_signalled {signal : SubagentSignal} (h : s.receive signal = some t) :
    Signalled s t := by
  cases signal with
  | deliverEmission emission =>
    cases h
    unfold Execution.deliverEmission
    split
    · exact .refl s
    · split_ifs
      · exact ⟨rfl, id, .inl ⟨rfl, rfl⟩⟩
      · exact applyEmission_signalled s _
  | cancel | clock elapsedMs | history length suggested =>
    cases h
    exact ⟨rfl, id, .inl ⟨rfl, rfl⟩⟩

/-! ## How an execution stands -/

/-- An execution whose delegation has not begun to close. A pending terminal has woken the wait. -/
structure Opens (start : WorkflowToolStartArgs) (begun : Option (SubagentChildRef × Option Nat))
    (s : Execution) : Prop where
  opening : Opening begun s.workflow.pendingTerminal s.journal
  nudged : s.workflow.pendingTerminal ≠ none → s.workflow.nudged = true
  holder : s.workflow.holderWorkflowId = some start.holderWorkflowId

theorem Opens.signalled (h : Opens start begun s) (hsignalled : Signalled s t) :
    Opens start begun t := by
  obtain ⟨hholder, hnudged, ⟨hjournal, hsame⟩ | ⟨terminal, hnone, hsome, hwoken, hjournal⟩⟩ := hsignalled
  · refine ⟨?_, fun hne => hnudged (h.nudged (hsame ▸ hne)), hholder.trans h.holder⟩
    rw [hjournal, hsame]
    exact h.opening
  · refine ⟨?_, fun _ => hwoken, hholder.trans h.holder⟩
    have hopening := h.opening
    rw [hnone] at hopening
    rw [hjournal, hsome]
    exact hopening.accept terminal

/-- An execution whose delegation closes. -/
structure Closes (start : WorkflowToolStartArgs) (begun : Option (SubagentChildRef × Option Nat))
    (pending : Option SubagentTerminal) (head : JournalEntry) (tail : List JournalEntry)
    (s : Execution) : Prop where
  closing : Closing begun pending head tail s.journal
  holder : s.workflow.holderWorkflowId = some start.holderWorkflowId

theorem Closes.signalled (h : Closes start begun pending head tail s) (hsignalled : Signalled s t) :
    Closes start begun pending head tail t := by
  obtain ⟨hholder, -, ⟨hjournal, -⟩ | ⟨terminal, -, -, -, hjournal⟩⟩ := hsignalled
  · exact ⟨hjournal ▸ h.closing, hholder.trans h.holder⟩
  · exact ⟨hjournal ▸ h.closing.accept terminal, hholder.trans h.holder⟩

/-- What a program does of an execution, at whose rests the journal is kept. -/
abbrev KeepsJournal (start : WorkflowToolStartArgs) {α : Type} (Q : α → Execution → Prop)
    (E : SubagentFailure → Execution → Prop) (p : SubagentProgram α) (s : Execution) : Prop :=
  Keeps subagentOutside (fun _ _ _ => True) (fun _ t => JournalKept start t.journal) Q E p s

/-! ## Closing a delegation -/

/-- A request while the delegation closes. -/
theorem keeps_ask (request : SubagentRequest) (h : Closes start begun pending head tail s)
    (hends : EndsOpening pending head) (htail : TailKept start head tail) :
    KeepsJournal start (fun _ t => Closes start begun pending head tail t) E (ask request) s := by
  refine .wait request (Closes start begun pending head tail) h ?_ ?_ ?_
  · exact fun s signal t hs hreceive => hs.signalled (receive_signalled hreceive)
  · exact fun s hs => hs.closing.journalKept hends htail
  · exact fun s _ hs _ _ => hs

theorem Closes.note (h : Closes start begun pending head tail s) {entry : JournalEntry}
    (hentry : entry.isAccepted = false) :
    Closes start begun pending head (tail ++ [entry]) (s.note entry) :=
  ⟨h.closing.ask hentry, h.holder⟩

theorem keeps_closeChild {sessionId : String} (h : Closes start begun pending head tail s)
    (hends : EndsOpening pending head) (htail : TailKept start head (tail ++ [.close sessionId])) :
    KeepsJournal start
      (fun _ t => Closes start begun pending head (tail ++ [.close sessionId]) t) E
      (closeChild sessionId) s :=
  .bind (.act (keeps_ask (.close sessionId) (h.note rfl) hends htail))

theorem keeps_emitResolution {resolution : PromiseResolution}
    (h : Closes start begun pending head tail s) (hends : EndsOpening pending head)
    (htail : TailKept start head
      (tail ++ [.emitted start.holderWorkflowId replyPromiseId resolution])) :
    KeepsJournal start
      (fun _ t => Closes start begun pending head
        (tail ++ [.emitted start.holderWorkflowId replyPromiseId resolution]) t) E
      (emitResolution replyPromiseId resolution) s := by
  refine .bind (.act ?_)
  dsimp only
  rw [h.holder]
  exact .bind (.act (keeps_ask (.signal _ _ _) (h.note rfl) hends htail))

/-- A change of the state that leaves the journal and the holder alone. -/
theorem keeps_changeState {f : Execution → Execution} (h : Closes start begun pending head tail s)
    (hjournal : (f s).journal = s.journal)
    (hholder : (f s).workflow.holderWorkflowId = s.workflow.holderWorkflowId) :
    KeepsJournal start (fun _ t => Closes start begun pending head tail t) E (changeState f) s :=
  .act ⟨hjournal ▸ h.closing, hholder.trans h.holder⟩

/-- A failure that no rollover follows, of an execution that is over. -/
def FailsOver (sha256Hex : String → String) (start : WorkflowToolStartArgs)
    (failure : SubagentFailure) (s : Execution) : Prop :=
  (∀ resume, failure ≠ .continueAsNew resume) ∧ Over sha256Hex start s.journal

/-- The child is closed and a failure raised, or nothing follows. -/
theorem keeps_finish {outcome : WaitOutcome} {child : SubagentChildRef} {atMs : Option Nat}
    (hpromise : start.replyPromiseId = some replyPromiseId)
    (h : Closes start (some (child, atMs)) pending (.waited outcome) [] s)
    (hends : EndsOpening pending (.waited outcome)) :
    KeepsJournal start (fun _ t => Over sha256Hex start t.journal) (FailsOver sha256Hex start)
      (finish child replyPromiseId outcome) s := by
  have hclosed : ∀ {tail : List JournalEntry} {t : Execution},
      Closes start (some (child, atMs)) pending (.waited outcome) (tail ++ [.close child.sessionId]) t →
      TailKept start (.waited outcome) (tail ++ [.close child.sessionId]) →
      Over sha256Hex start t.journal := fun ht htail =>
    ht.closing.over_of_waited hends htail (List.mem_append_right _ (List.mem_singleton.mpr rfl))
  cases outcome with
  | terminal terminal =>
    have htail := TailKept.resolve start child terminal
    refine .bind (.act (.bind ?_))
    refine (keeps_ask (.resolve child terminal) (h.note rfl) hends htail).mono ?_ fun _ _ hfails => hfails
    rintro (error | resolution) t ht
    · have hclose := htail.close child.sessionId
      refine .bind ((keeps_closeChild ht hends hclose).mono ?_ fun _ _ hfails => hfails)
      exact fun _ u hu => .fail ⟨by rintro _ ⟨⟩, hclosed hu hclose⟩
    · have hemit := htail.emit hpromise rfl resolution
      have hclose := hemit.close child.sessionId
      refine .bind ((keeps_changeState ht rfl rfl).mono ?_ fun _ _ hfails => hfails)
      refine fun _ u hu => .bind ((keeps_emitResolution hu hends hemit).mono ?_ fun _ _ hfails => hfails)
      refine fun _ v hv => (keeps_closeChild hv hends hclose).mono ?_ fun _ _ hfails => hfails
      exact fun _ w hw => hclosed hw hclose
  | holderCancelled =>
    have hclose := (TailKept.nil start (.waited .holderCancelled) (by simp)).close
      child.sessionId
    refine .bind ((keeps_closeChild h hends hclose).mono ?_ fun _ _ hfails => hfails)
    refine fun _ t ht => (keeps_changeState ht rfl rfl).mono ?_ fun _ _ hfails => hfails
    exact fun _ u hu => hclosed hu hclose
  | cancelled =>
    have hclose := (TailKept.nil start (.waited .cancelled) (by simp)).close
      child.sessionId
    refine .bind ((keeps_closeChild h hends hclose).mono ?_ fun _ _ hfails => hfails)
    refine fun _ t ht => .bind ((keeps_changeState ht rfl rfl).mono ?_ fun _ _ hfails => hfails)
    exact fun _ u hu => .fail ⟨by simp, hclosed hu hclose⟩

/-! ## The wait -/

/-- How the wait leaves an execution: what is pending is what it ended with. -/
def WaitEnds (start : WorkflowToolStartArgs) (begun : Option (SubagentChildRef × Option Nat))
    (outcome : WaitOutcome) (s : Execution) : Prop :=
  ∃ pending, Opening begun pending s.journal ∧ EndsOpening pending (.waited outcome) ∧
    s.workflow.holderWorkflowId = some start.holderWorkflowId

/-- An execution that rolls over has nothing pending. -/
def RollsOver (begun : Option (SubagentChildRef × Option Nat)) (resume : SubagentExecutionResume)
    (failure : SubagentFailure) (s : Execution) : Prop :=
  failure = .continueAsNew resume ∧ Opening begun none s.journal

theorem keeps_takeTerminal (h : Opens start begun s) :
    KeepsJournal start
      (fun taken t => Opening begun taken t.journal ∧ t.workflow.pendingTerminal = none ∧
        t.workflow.holderWorkflowId = some start.holderWorkflowId) E takeTerminal s :=
  .act ⟨h.opening, rfl, h.holder⟩

/-- While the wait has not been woken nothing is pending. -/
theorem Opens.not_pending (h : Opens start begun s) (hnudged : s.workflow.nudged = false) :
    s.workflow.pendingTerminal = none := by
  by_contra hne
  rw [h.nudged hne] at hnudged
  cases hnudged

theorem keeps_waitPass {deadlineTimer : Option Nat} (h : Opens start begun s) :
    KeepsJournal start (afterRound (fun _ t => Opens start begun t) (WaitEnds start begun))
      (RollsOver begun resume) (waitPass resume deadlineTimer) s := by
  refine .bind ((keeps_takeTerminal h).mono ?_ fun _ _ hfails => hfails)
  rintro (_ | terminal) t ⟨hopening, hnone, hholder⟩
  · refine .bind (.act (.bind (.act ?_)))
    dsimp only
    split_ifs with hcancelled hrollover
    · exact .done ⟨none, hopening, .waited _ nofun, hholder⟩
    · exact .fail ⟨rfl, hopening⟩
    · have hopens : Opens start begun { t with workflow.nudged := false } :=
        ⟨by rw [hnone]; exact hopening, fun hne => absurd hnone hne, hholder⟩
      refine .bind (.act ?_)
      refine .bind (.wait _ (Opens start begun) hopens
        (fun s signal u hs hreceive => hs.signalled (receive_signalled hreceive))
        (fun s hs => hs.opening.journalKept) ?_)
      intro s branch hs hallows _
      -- Every branch but the first is taken only where nothing has woken the wait.
      have hpending : s.workflow.nudged = false → Opening begun none s.journal := fun hnudged =>
        hs.not_pending hnudged ▸ hs.opening
      rcases branch with _ | _ | _ | checked
      · exact .done hs
      · have hnudged : s.workflow.nudged = false ∧ s.cancelled = true := by
          simpa [subagentOutside, subagentAllows] using hallows
        exact .done ⟨none, hpending hnudged.1, .waited _ nofun, hs.holder⟩
      · have hnudged : (s.workflow.nudged = false ∧ s.cancelled = false) ∧
            deadlineTimer.any (fun due => due ≤ s.nowMs) = true := by
          simpa [subagentOutside, subagentAllows] using hallows
        exact .done ⟨none, hpending hnudged.1.1, .waited _ nofun, hs.holder⟩
      · have hnudged : s.workflow.nudged = false ∧ s.cancelled = false := by
          simpa [subagentOutside, subagentAllows] using hallows
        rcases checked with error | _ | reason
        · exact .done hs
        · exact .done hs
        · refine .bind (.act (.done ?_))
          rw [hs.not_pending hnudged.1]
          exact ⟨none, hpending hnudged.1, .waited _ nofun, hs.holder⟩
  · refine .done ⟨some terminal, hopening, .waited _ ?_, hholder⟩
    rintro other ⟨⟩
    rfl

theorem keeps_waitForChild (h : Opens start (some (resume.child, resume.deadlineAtMs)) s) :
    KeepsJournal start (WaitEnds start (some (resume.child, resume.deadlineAtMs)))
      (RollsOver (some (resume.child, resume.deadlineAtMs)) resume) (waitForChild resume) s := by
  refine .bind (.act (.bind (.act ?_)))
  refine .loop (fun _ t => Opens start (some (resume.child, resume.deadlineAtMs)) t) ?_ ?_
  · exact fun _ t ht => keeps_waitPass ht
  · exact ⟨h.opening.wait, h.nudged, h.holder⟩

/-- How a failure leaves an execution: it rolls over with the wait that it began, or it is over. -/
def Fails (sha256Hex : String → String) (start : WorkflowToolStartArgs) (failure : SubagentFailure)
    (s : Execution) : Prop :=
  FailsOver sha256Hex start failure s ∨ ∃ resume, resume.start = start ∧
    RollsOver (some (resume.child, resume.deadlineAtMs)) resume failure s

theorem keeps_supervise (hstart : resume.start = start)
    (hpromise : start.replyPromiseId = some replyPromiseId)
    (h : Opens start (some (resume.child, resume.deadlineAtMs)) s) :
    KeepsJournal start (fun _ t => Over sha256Hex start t.journal) (Fails sha256Hex start)
      (supervise resume replyPromiseId) s := by
  refine .bind ((keeps_waitForChild h).mono ?_ fun _ _ hrolls => .inr ⟨resume, hstart, hrolls⟩)
  rintro outcome t ⟨pending, hopening, hends, hholder⟩
  refine .bind (.act ?_)
  have hcloses : Closes start (some (resume.child, resume.deadlineAtMs)) pending (.waited outcome) []
      (t.note (.waited outcome)) := ⟨.of_opening hopening _, hholder⟩
  exact (keeps_finish hpromise hcloses hends).mono (fun _ _ hover => hover) fun _ _ hfails => .inl hfails

/-! ## Runs -/

theorem keeps_prepareChild (hpromise : start.replyPromiseId = some replyPromiseId)
    (h : Opens start none s) :
    KeepsJournal start (fun _ t => Over sha256Hex start t.journal) (Fails sha256Hex start)
      (prepareChild sha256Hex start replyPromiseId) s := by
  refine .bind (.wait (SubagentRequest.prepare start) (Opens start none) h
    (fun s signal t hs hreceive => hs.signalled (receive_signalled hreceive))
    (fun s hs => hs.opening.journalKept) ?_)
  rintro s (error | ⟨child, runTimeoutMs, wait⟩ | errorRef) hs - -
  all_goals refine .bind (.act (.bind (.act ?_)))
  · have hends : EndsOpening s.workflow.pendingTerminal (.prepared s.nowMs (.error error)) :=
      .failed s.nowMs error
    have hclose := (TailKept.nil start (.prepared s.nowMs (.error error)) (by simp)).close
        (subagentChildSessionId sha256Hex start.executionId)
    have hcloses : Closes start none s.workflow.pendingTerminal (.prepared s.nowMs (.error error)) []
        (s.note (.prepared s.nowMs (.error error))) := ⟨.of_opening hs.opening _, hs.holder⟩
    refine .bind ((keeps_closeChild hcloses hends hclose).mono ?_ fun _ _ hfails => hfails)
    refine fun _ t ht => .fail (.inl ⟨by rintro _ ⟨⟩, ht.closing.over_of_prepared hends hclose ?_⟩)
    rintro sessionId ⟨⟩
    exact List.mem_singleton.mpr rfl
  · refine .bind (.act (keeps_supervise rfl hpromise ⟨?_, hs.nudged, hs.holder⟩))
    exact hs.opening.prepare s.nowMs child runTimeoutMs wait
  · have hends : EndsOpening s.workflow.pendingTerminal
        (.prepared s.nowMs (.ok (.rejected errorRef))) := .rejected s.nowMs errorRef
    have hemit := (TailKept.nil start (.prepared s.nowMs (.ok (.rejected errorRef))) (by simp)).emit hpromise rfl
        (.failed (some errorRef))
    have hcloses : Closes start none s.workflow.pendingTerminal
        (.prepared s.nowMs (.ok (.rejected errorRef))) []
        (s.note (.prepared s.nowMs (.ok (.rejected errorRef)))) :=
      ⟨.of_opening hs.opening _, hs.holder⟩
    refine .bind ((keeps_changeState hcloses rfl rfl).mono ?_ fun _ _ hfails => hfails)
    refine fun _ t ht => (keeps_emitResolution ht hends hemit).mono ?_ fun _ _ hfails => hfails
    exact fun _ u hu => hu.closing.over_of_prepared hends hemit (by rintro _ ⟨⟩)

/-- A run that has not begun: nothing is pending, and what is signalled is held. -/
structure Unbegun (begun : Option (SubagentChildRef × Option Nat)) (s : Execution) : Prop where
  opening : Opening begun none s.journal
  pending : s.workflow.pendingTerminal = none
  identity : s.workflow.replyPromiseId = none

theorem Unbegun.receive {signal : SubagentSignal} (h : Unbegun begun s)
    (hreceive : s.receive signal = some t) : Unbegun begun t := by
  cases signal with
  | deliverEmission emission =>
    cases hreceive
    unfold Execution.deliverEmission
    split
    · exact h
    · rw [if_pos (by rw [h.identity]; rfl)]
      exact ⟨h.opening, h.pending, h.identity⟩
  | cancel | clock elapsedMs | history length suggested =>
    cases hreceive
    exact ⟨h.opening, h.pending, h.identity⟩

theorem foldl_applyEmission_signalled (emissions : List EmissionEnvelope) (s : Execution) :
    Signalled s (emissions.foldl .applyEmission s) := by
  induction emissions generalizing s with
  | nil => exact .refl s
  | cons envelope rest ih => exact (applyEmission_signalled s envelope).trans (ih _)

/-- A run begins with what was held. -/
theorem Unbegun.setIdentity (h : Unbegun begun s) (replyPromiseId : PromiseId)
    (child : Option SubagentChildRef) : Opens start begun (s.setIdentity start replyPromiseId child) := by
  have hopens : Opens start begun { s with workflow := s.workflow.identify start replyPromiseId child } :=
    ⟨by rw [SubagentExecutionWorkflow.identify, h.pending]; exact h.opening,
      fun hne => absurd h.pending hne, rfl⟩
  exact hopens.signalled (foldl_applyEmission_signalled s.workflow.earlyEmissions _)

/-- The wait that a run goes on with. -/
def SubagentExecutionInput.carriedWait : SubagentExecutionInput → Option (SubagentChildRef × Option Nat)
  | .start _ => none
  | .resume carried => some (carried.child, carried.deadlineAtMs)

/-- Whether an execution is started as it has to be: under its own id and universe, and with a promise
to resolve. -/
def WorkflowToolStartArgs.Fits (workflowId : String) (start : WorkflowToolStartArgs) : Prop :=
  start.identifies workflowId = true ∧ start.replyPromiseId ≠ none

instance : Decidable (start.Fits workflowId) := inferInstanceAs (Decidable (_ ∧ _))

/-- How a run that fails leaves an execution. -/
def RunFails (sha256Hex : String → String) (workflowId : String) (start : WorkflowToolStartArgs)
    (failure : SubagentFailure) (s : Execution) : Prop :=
  Fails sha256Hex start failure s ∨
    (¬ start.Fits workflowId ∧ (∀ resume, failure ≠ .continueAsNew resume) ∧
      JournalKept start s.journal)

theorem keeps_run {input : SubagentExecutionInput} (hargs : input.args = start)
    (h : Unbegun input.carriedWait s) :
    KeepsJournal start (fun _ t => Over sha256Hex start t.journal)
      (RunFails sha256Hex workflowId start) (run sha256Hex workflowId input) s := by
  refine .bind (.wait SubagentRequest.activation (Unbegun input.carriedWait) h
    (fun s signal t hs hreceive => hs.receive hreceive) (fun s hs => hs.opening.journalKept) ?_)
  intro s _ hs _ _
  rw [hargs]
  split_ifs with hidentifies
  · cases hpromise : start.replyPromiseId with
    | none => exact .fail (.inr ⟨fun hfits => hfits.2 hpromise, by simp, hs.opening.journalKept⟩)
    | some replyPromiseId =>
      refine .bind (.act ?_)
      have hopens : Opens start input.carriedWait (s.setIdentity start replyPromiseId input.child) :=
        hs.setIdentity replyPromiseId input.child
      cases input with
      | start args =>
        obtain rfl : args = start := hargs
        exact (keeps_prepareChild hpromise hopens).mono (fun _ _ hover => hover) fun _ _ => .inl
      | resume resume =>
        exact (keeps_supervise hargs hpromise hopens).mono (fun _ _ hover => hover) fun _ _ => .inl
  · exact .fail (.inr ⟨fun hfits => hidentifies hfits.1, by simp, hs.opening.journalKept⟩)

/-- How an execution that is over stands. -/
def EndsOver (sha256Hex : String → String) (workflowId : String) (start : WorkflowToolStartArgs)
    (s : Execution) : Prop :=
  JournalKept start s.journal ∧ (start.Fits workflowId → Closed sha256Hex start s.journal)

theorem Over.ends {journal : List JournalEntry} (h : Over sha256Hex start journal)
    (hjournal : s.journal = journal) : EndsOver sha256Hex workflowId start s := by
  obtain rfl := hjournal
  exact ⟨h.kept, fun _ => h.closed⟩

/-- Every run of an execution keeps its journal, and the last one closes the child. -/
theorem keeps_runs (h : s = { nowMs := s.nowMs }) :
    KeepsJournal start (fun _ t => EndsOver sha256Hex workflowId start t)
      (fun _ t => EndsOver sha256Hex workflowId start t) (runs sha256Hex workflowId start) s := by
  refine .loop (fun input t => input.args = start ∧ Unbegun input.carriedWait t) ?_ ?_
  · rintro input t ⟨hargs, ht⟩
    refine .bind (.attempt ((keeps_run hargs ht).mono ?_ ?_))
    · exact fun _ u hu => .done (hu.ends rfl)
    · rintro failure u ((⟨hnot, hover⟩ | ⟨resume, hresume, rfl, hopening⟩) | ⟨hnot, hfits, hkept⟩)
      · cases failure with
        | continueAsNew resume => exact absurd rfl (hnot resume)
        | application message | cancelled => exact .fail (hover.ends rfl)
      · exact .bind (.act (.done ⟨hresume, hopening.rollOver, rfl, rfl⟩))
      · cases failure with
        | continueAsNew resume => exact absurd rfl (hfits resume)
        | application message | cancelled => exact .fail ⟨hkept, fun hfit => absurd hfit hnot⟩
  · rw [h]
    exact ⟨rfl, .nil, rfl, rfl⟩

end Lightspeed.Subagents
