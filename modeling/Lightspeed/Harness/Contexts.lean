import Lightspeed.Harness.Boundary

/-!
# What is known of context

`ContextKnew` is what the proposer of a context event knew of the context that the event is applied to.
An append writes either entries without a key, which stand in nobody's way, or a single context event,
or the three events of a compaction, so the knowledge is that of the state that the append starts from.
-/

namespace Lightspeed.Harness

open Lib

variable {sessionId : SessionId} {s t : CoreAgentState} {input : DriveInput}
  {proposals : List CoreAgentEventProposal} {log : List CoreAgentEntry} {ms : Nat}
  {event : CoreAgentEvent} {proposal : CoreAgentEventProposal}

/-- An entry supersedes another only under a key, an entry under a key is neither a turn's output nor
a summary, and outside the reserved keys it is an edit of the context. -/
structure ContextEntry.WellKeyed (entry : ContextEntry) : Prop where
  supersedes : entry.key = none → entry.supersedes = none
  output : entry.key ≠ none → entry.outputTurn = none
  summary : entry.key ≠ none → isStandalonePrefix entry = false
  reserved : ∀ key, entry.key = some key → entry.source ≠ .contextEdit →
    contextKeyStartsWith key reservedRunContextKeyPrefix = true

/-- What the proposer of an event knew of the context that the event is applied to. -/
def ContextKnew (s : CoreAgentState) : CoreAgentEvent → Prop
  | .context (.entriesApplied _ entries) =>
    (∀ entry ∈ entries, entry.WellKeyed) ∧
      (s.context.compaction.isPending = false ∨ ∀ entry ∈ entries, entry.key = none)
  | .context (.entriesRemoved _ entryIds _) =>
    (∃ plan, s.context.compaction.pendingPlan = some plan ∧ entryIds = plan.coveredEntryIds) ∨
      (s.context.compaction.isPending = false ∧
        entryIds = (providerCompactedEntries s).map ContextEntry.entryId)
  | .context (.keysRemoved _ _) | .context (.keyPrefixReplaced _ _ _) =>
    s.context.compaction.isPending = false
  | .context (.entriesReplaced _ entries) =>
    s.context.compaction.isPending = false ∧ ∀ entry ∈ entries, ∀ active,
      entryById s entry.entryId = some active → entry.supersedes = active.supersedes
  | .context (.compactionRequested _ _ plan) => plan.coveredEntryIds = standalonePrefixIds s
  | _ => True

/-! ## Numbered entries -/

/-- Numbering commits each input under its key, with its source. -/
theorem mem_contextEntriesAfter {last : Nat} {inputs : List SourcedInput} {entry : ContextEntry}
    (h : entry ∈ contextEntriesAfter s last inputs) :
    ∃ sourced ∈ inputs, ∃ id, entry = sourced.2.2.commit id sourced.1 sourced.2.1
      (sourced.1.bind (fun key => supersedeTarget s key sourced.2.2.kind)) := by
  induction inputs generalizing last with
  | nil => cases h
  | cons first rest ih =>
    obtain ⟨key, source, input⟩ := first
    rcases List.mem_cons.mp h with rfl | h
    · exact ⟨_, List.mem_cons_self, last + 1, rfl⟩
    · obtain ⟨sourced, hmem, id, heq⟩ := ih h
      exact ⟨sourced, List.mem_cons_of_mem _ hmem, id, heq⟩

/-- Whether entries stand under no key, and so supersede nothing. -/
def Unkeyed (entries : List ContextEntry) : Prop :=
  ∀ entry ∈ entries, entry.key = none ∧ entry.supersedes = none

theorem unkeyed_after {last : Nat} {inputs : List SourcedInput}
    (h : ∀ sourced ∈ inputs, sourced.1 = none) : Unkeyed (contextEntriesAfter s last inputs) := by
  intro entry hentry
  obtain ⟨sourced, hmem, id, rfl⟩ := mem_contextEntriesAfter hentry
  have hkey := h sourced hmem
  exact ⟨hkey, by simp [ContextEntryInput.commit, hkey]⟩

theorem unkeyed_llm (result : LlmGenerationResult) (outcome : TurnOutcome) :
    Unkeyed (contextEntriesFromLlmResult s result outcome) := by
  refine unkeyed_after fun sourced hmem => ?_
  obtain ⟨_, -, rfl⟩ := List.mem_map.mp hmem
  rfl

theorem unkeyed_compaction (inputs : List ContextEntryInput) :
    Unkeyed (compactionEntries s inputs) := by
  refine unkeyed_after fun sourced hmem => ?_
  obtain ⟨_, -, rfl⟩ := List.mem_map.mp hmem
  rfl

theorem unkeyed_steering (last : Nat) : Unkeyed (missingSteeringEntriesAfter s last) := by
  unfold missingSteeringEntriesAfter
  split
  · rintro entry ⟨⟩
  · refine unkeyed_after fun sourced hmem => ?_
    obtain ⟨batch, -, hmem⟩ := List.mem_flatMap.mp hmem
    obtain ⟨_, -, rfl⟩ := List.mem_map.mp hmem
    rfl

theorem unkeyed_missingResults {runId : RunId} {turnId : TurnId} {batchId : Option ToolBatchId}
    {result : ToolCallResult} {inputs : List ContextEntryInput} {sourced : SourcedInput}
    (h : sourced ∈ missingResultInputs s runId turnId batchId result inputs) :
    sourced.1 = none := by
  obtain ⟨_, -, rfl⟩ := List.mem_map.mp h
  rfl

theorem unkeyed_results {batch : ActiveToolBatch} {entries : List ContextEntry}
    (h : toolResultContextEntries s batch = .ok entries) : Unkeyed entries := by
  simp only [toolResultContextEntries, bind_eq_ok, Except.ok.injEq] at h
  obtain ⟨inputs, hinputs, rfl⟩ := h
  refine unkeyed_after fun sourced hmem => ?_
  obtain ⟨list, hlist, hmem⟩ := List.mem_flatten.mp hmem
  obtain ⟨call, -, hcall⟩ := mem_of_mapM hinputs hlist
  simp only [callResultInputs, bind_eq_ok, require_eq_ok, orError_eq_ok, exists_unit,
    Except.ok.injEq] at hcall
  obtain ⟨result, -, -, _, -, rfl⟩ := hcall
  exact unkeyed_missingResults hmem

theorem unkeyed_closing {run : ActiveRun} {entries : List ContextEntry}
    (h : openToolGroupClosingEntries s run = .ok entries) : Unkeyed entries := by
  simp only [openToolGroupClosingEntries, bind_eq_ok] at h
  obtain ⟨group, -, h⟩ := h
  split at h
  · cases h
    rintro entry ⟨⟩
  · simp only [bind_eq_ok, Except.ok.injEq] at h
    obtain ⟨inputs, hinputs, rfl⟩ := h
    refine unkeyed_after fun sourced hmem => ?_
    obtain ⟨list, hlist, hmem⟩ := List.mem_flatten.mp hmem
    obtain ⟨⟨call, recorded⟩, -, hcall⟩ := mem_of_mapM hinputs hlist
    simp only [closingInputs, bind_eq_ok, Except.ok.injEq] at hcall
    obtain ⟨_, -, rfl⟩ := hcall
    exact unkeyed_missingResults hmem

/-! ## Appends -/

/-- An event about which nothing has to be known. -/
def ContextFree (event : CoreAgentEvent) : Prop := ∀ s, ContextKnew s event

theorem contextFree_of_other (h : event.isContext = false) : ContextFree event.stored := by
  intro s
  cases event with
  | context event => cases h
  | _ => trivial

theorem contextFree_finished (revision calls : Nat) (status : ContextCompactionStatus)
    (failureRef : Option BlobRef) (usage : Option LlmUsage) :
    ContextFree (.context (.compactionFinished revision status failureRef usage calls)) :=
  fun _ => trivial

theorem contextFree_applied {revision : Nat} {entries : List ContextEntry} (h : Unkeyed entries) :
    ContextFree (CoreAgentEvent.context (.entriesApplied revision entries)).stored := by
  have hstored : Unkeyed (entries.map ContextEntry.stored) := by
    intro entry hentry
    obtain ⟨active, hactive, rfl⟩ := List.mem_map.mp hentry
    exact h active hactive
  refine fun s => ⟨fun entry hentry => ?_, .inr fun entry hentry => (hstored entry hentry).1⟩
  obtain ⟨hkey, hsupersedes⟩ := hstored entry hentry
  exact ⟨fun _ => hsupersedes, fun hne => absurd hkey hne, fun hne => absurd hkey hne,
    fun key hsome => by simp [hkey] at hsome⟩

theorem isContext_of_quiet (h : event.isQuiet = true) : event.isContext = false := by
  cases event <;> first | rfl | cases h

theorem isContext_of_result {scope : ResultScope} (h : ResultEvent s scope event) :
    event.isContext = false := by
  cases h <;> first | rfl | exact isContext_of_quiet ‹_›

/-- An append whose events ask nothing of context. -/
theorem contexts_of_free (h : ∀ proposal ∈ proposals, ContextFree proposal.event.stored) :
    EventSource.Warranted applyEvent (fun u entry => ContextKnew u entry.event) s
      (uncommitted s ms proposals) := by
  refine EventSource.warranted_of_forall fun entry hentry u => ?_
  rcases mem_uncommitted hentry with ⟨proposal, hmem, heq⟩ | ⟨id, heq⟩
  · exact heq ▸ h proposal hmem u
  · exact heq ▸ trivial

/-- An append of one context event. -/
theorem contexts_of_one (hrun : proposal.event.terminalRunId = none)
    (h : ContextKnew s proposal.event.stored) :
    EventSource.Warranted applyEvent (fun u entry => ContextKnew u entry.event) s
      (uncommitted s ms [proposal]) := by
  rw [uncommitted_eq fun _ hmem => List.mem_singleton.mp hmem ▸ hrun]
  exact EventSource.warranted_singleton.mpr h

theorem contextFree_of_result {scope : ResultScope} (h : ResultEvent s scope proposal.event) :
    ContextFree proposal.event.stored :=
  contextFree_of_other (isContext_of_result h)

theorem runInputContextKey_reserved (runId : RunId) (index : Nat) :
    contextKeyStartsWith (runInputContextKey runId index) reservedRunContextKeyPrefix = true := by
  simp [contextKeyStartsWith, runInputContextKey, reservedRunContextKeyPrefix]

/-- The input of a run stands under the run's own keys. -/
theorem missingRunInputEntries_wellKeyed {run : ActiveRun} :
    ∀ entry ∈ (missingRunInputEntries s run).map ContextEntry.stored, entry.WellKeyed := by
  intro entry hentry
  obtain ⟨active, hactive, rfl⟩ := List.mem_map.mp hentry
  obtain ⟨sourced, hmem, id, rfl⟩ := mem_contextEntriesAfter hactive
  obtain ⟨⟨content, index⟩, -, rfl⟩ := List.mem_map.mp hmem
  refine ⟨nofun, fun _ => rfl, fun _ => rfl, fun key hkey _ => ?_⟩
  obtain rfl : runInputContextKey run.runId index = key := Option.some.inj hkey
  exact runInputContextKey_reserved run.runId index

theorem contextEdit_knew {event : ContextEvent} (hpending : s.context.compaction.isPending = false)
    (h : ContextEdit s event) : ContextKnew s (CoreAgentEvent.context event).stored := by
  cases h with
  | apply hedit =>
    refine ⟨fun entry hentry => ?_, .inl hpending⟩
    obtain ⟨active, hactive, rfl⟩ := List.mem_map.mp hentry
    obtain ⟨sourced, hmem, id, rfl⟩ := mem_contextEntriesAfter hactive
    rw [List.mem_singleton.mp hmem]
    exact ⟨nofun, fun _ => rfl, fun _ => rfl, fun _ _ hsource => absurd rfl hsource⟩
  | replacePrefix hedit | remove hkey => exact hpending
  | replace hkeeps =>
    refine ⟨hpending, fun entry hentry => ?_⟩
    obtain ⟨replacement, hreplacement, rfl⟩ := List.mem_map.mp hentry
    exact hkeeps replacement hreplacement

/-- What a planner proposes, it knows of the context that it read. -/
theorem planned_contexts (hplan : Planned s proposals) :
    EventSource.Warranted applyEvent (fun u entry => ContextKnew u entry.event) s
      (uncommitted s ms proposals) := by
  cases hplan with
  | startCalls | cancelCalls =>
    refine contexts_of_free fun proposal hmem => ?_
    obtain ⟨call, -, rfl⟩ := List.mem_map.mp hmem
    exact contextFree_of_other rfl
  | completeBatch hopen hactive hstatus hturn hid hbatch hparked hterminal hentries =>
    refine contexts_of_free fun proposal hmem => ?_
    rcases mem_batchProposals hmem with rfl | rfl
    · exact contextFree_applied (unkeyed_results hentries)
    · exact contextFree_of_other rfl
  | pruneContext hopen hcompaction hproposal =>
    obtain ⟨-, rfl⟩ := providerCompactedPrune_eq_some hproposal
    exact contexts_of_one rfl (.inr ⟨hcompaction, rfl⟩)
  | requestCompaction => exact contexts_of_one rfl rfl
  | applyInput hopen hactive hstatus hcompaction hentries =>
    exact contexts_of_one rfl ⟨missingRunInputEntries_wellKeyed, .inl hcompaction⟩
  | applySteering =>
    refine contexts_of_free fun proposal hmem => ?_
    rw [List.mem_singleton.mp hmem]
    exact contextFree_applied (unkeyed_steering _)
  | abandonCompaction =>
    refine contexts_of_free fun proposal hmem => ?_
    rw [List.mem_singleton.mp hmem]
    exact contextFree_finished _ _ _ _ _
  | _ =>
    refine contexts_of_free fun proposal hmem => ?_
    rw [List.mem_singleton.mp hmem]
    exact contextFree_of_other rfl

/-- What the drive proposes, it knows of the context that it is applied to. -/
theorem proposed_contexts (hproposed : Proposed sessionId s input proposals) :
    EventSource.Warranted applyEvent (fun u entry => ContextKnew u entry.event) s
      (uncommitted s ms proposals) := by
  cases hproposed with
  | quiet hquiet =>
    exact contexts_of_free fun proposal hmem =>
      contextFree_of_other (isContext_of_quiet (hquiet proposal hmem).1)
  | plan hplan => exact planned_contexts hplan
  | cancelRun hactive hstatus =>
    refine contexts_of_free fun proposal hmem => contextFree_of_other ?_
    rcases mem_cancelRunProposals hmem with heq | ⟨_, heq⟩ <;> rw [heq] <;> rfl
  | decide hactive hrun hrecord hstatus hresponse hunparked =>
    refine contexts_of_free fun proposal hmem => ?_
    rcases mem_decideProposals hunparked hmem with rfl | rfl | rfl
    · exact contextFree_of_other rfl
    · exact contextFree_of_other rfl
    · refine contextFree_applied (unkeyed_after fun sourced hsourced => ?_)
      obtain ⟨_, -, rfl⟩ := List.mem_map.mp hsourced
      rfl
  | edit hpending hedit => exact contexts_of_one rfl (contextEdit_knew hpending hedit)
  | compact hpending hqueued hcovers =>
    unfold manualCompactionRequestedProposal
    split_ifs
    · exact contexts_of_one rfl rfl
    · exact contexts_of_one rfl trivial
  | forceClose =>
    refine contexts_of_free fun proposal hmem => ?_
    rcases List.mem_append.mp hmem with hmem | hmem
    · rcases forceClose_event hmem with heq | ⟨_, _, heq⟩ | ⟨_, heq⟩ | ⟨_, heq⟩ | ⟨_, heq⟩ <;> rw [heq]
      · exact contextFree_finished _ _ _ _ _
      all_goals exact contextFree_of_other rfl
    · rw [List.mem_singleton.mp hmem]
      exact contextFree_of_other rfl
  | forceCancel hactive hclosing =>
    refine contexts_of_free fun proposal hmem => ?_
    rcases mem_forceCancelProposals hmem with rfl | rfl
    · exact contextFree_applied (unkeyed_closing hclosing)
    · exact contextFree_of_other rfl
  | failRun hactive hfail =>
    refine contexts_of_free fun proposal hmem => ?_
    rcases (mem_failRunProposals hfail).2 proposal hmem with
      ⟨_, contexts, heq, hclosing | ⟨last, hlast⟩⟩ | ⟨_, heq⟩ | heq <;> rw [heq]
    · exact contextFree_applied (unkeyed_closing hclosing)
    · simp only [List.mem_cons, List.not_mem_nil, or_false] at hlast
      rcases hlast with rfl | rfl
      · exact contextFree_applied (by rintro entry ⟨⟩)
      · exact contextFree_applied (unkeyed_steering last)
    · exact contextFree_of_other rfl
    · exact contextFree_of_other rfl
  | unpark hactive hparked hrun hbatch hclaim hresult hmatches hcompleted =>
    refine contexts_of_free fun proposal hmem => ?_
    rcases mem_unparkProposals hmem with ⟨_, rfl⟩ | rfl | hmem
    · exact contextFree_of_other rfl
    · exact contextFree_of_other rfl
    · exact contextFree_of_result ((toolCallCompletedProposals_spec hcompleted).1 proposal hmem)
  | generation hactive hrun hturn =>
    refine contexts_of_free fun proposal hmem => ?_
    rcases mem_generationProposals hmem with heq | heq | ⟨_, heq⟩ | heq <;> rw [heq]
    · refine contextFree_applied ?_
      split_ifs
      · rintro entry ⟨⟩
      · exact unkeyed_llm _ _
    · exact contextFree_of_other rfl
    · exact contextFree_of_other rfl
    · exact contextFree_of_other rfl
  | compacted hplan hstatus =>
    rw [uncommitted_eq]
    · refine ⟨.inl ⟨_, hplan, rfl⟩, fun _ _ => ⟨?_, fun _ _ => ⟨trivial, fun _ _ => trivial⟩⟩⟩
      exact contextFree_applied (unkeyed_compaction _) _
    · intro proposal hmem
      simp only [List.mem_cons, List.not_mem_nil, or_false] at hmem
      rcases hmem with rfl | rfl | rfl <;> rfl
  | compactionFailed hplan hrun =>
    refine contexts_of_free fun proposal hmem => ?_
    rw [List.mem_singleton.mp hmem]
    exact contextFree_finished _ _ _ _ _
  | overflowed hplan hstatus hactive htrigger =>
    refine contexts_of_free fun proposal hmem => ?_
    rcases mem_overflowedProposals hmem with rfl | rfl | rfl
    · exact contextFree_finished _ _ _ _ _
    · exact contextFree_applied (unkeyed_steering _)
    · exact contextFree_of_other rfl
  | results hmatches hproposals | codeResults hcall hstatus hparent hproposals =>
    exact contexts_of_free fun proposal hmem =>
      contextFree_of_result ((toolCallCompletedProposals_spec hproposals).1 proposal hmem)
  | park hactive hid hbatch hmatches hvalid hcompleted =>
    refine contexts_of_free fun proposal hmem => ?_
    rcases List.mem_append.mp hmem with hmem | hmem
    · exact contextFree_of_result ((toolCallCompletedProposals_spec hcompleted).1 proposal hmem)
    · rw [List.mem_singleton.mp hmem]
      exact contextFree_of_other rfl
  | approve hactive hid hbatch hrequested =>
    refine contexts_of_free fun proposal hmem => contextFree_of_other ?_
    rcases List.mem_append.mp hmem with hmem | hmem
    · obtain ⟨approval, heq⟩ := hrequested proposal hmem
      rw [heq]
      rfl
    · rw [List.mem_singleton.mp hmem]
      rfl
  | _ =>
    refine contexts_of_free fun proposal hmem => ?_
    rw [List.mem_singleton.mp hmem]
    exact contextFree_of_other rfl

/-- What every warranted event keeps that also knows its context holds in every state that a session
reaches. -/
theorem reachable_preserves_contexts {P : CoreAgentState → List CoreAgentEntry → Prop}
    (hinit : P CoreAgentState.new [])
    (hstep : ∀ base input s log entry t, Inv s → P s log → Warrant base input s entry →
      ContextKnew s entry.event → applyEvent s entry = .ok t → P t (log ++ [entry]))
    (h : Reachable sessionId s log) : P s log := by
  refine EventSource.Reaches.invariant hinit ?_ h
  rintro s log ⟨ms, input⟩ entries t hreached hs hpropose hcommit
  have hinv := (reachable_inv hreached).1
  have hw := append_warranted hreached hpropose
  obtain ⟨proposals, -, hproposed, rfl⟩ := proposeEntries_cases hpropose
  have hboth := (hw.and (proposed_contexts hproposed)).preserves
    (P := fun u log => Inv u ∧ P u log) log ?_ hcommit ⟨hinv, hs⟩
  · exact hboth.2
  · rintro u log a v ⟨hu, hp⟩ ⟨hwarrant, hcontext⟩ hv
    exact ⟨inv_step hu hwarrant hv, hstep s input u log a v hu hp hwarrant hcontext hv⟩

end Lightspeed.Harness
