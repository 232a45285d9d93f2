import Lightspeed.Harness.Boundary

/-!
# Code-tool scopes

A scope of code calls lives under one parked workflow call. `ScopesInv` says that its parent is still
recorded, that no other scope has the same parent, and that its calls keep to the scope's limits; `CodeInv`
adds that an open call's parent is the batch that the active run is parked on.
-/

namespace Lightspeed.Harness

open Lib

variable {sessionId : SessionId} {base s t : CoreAgentState} {input : DriveInput}
  {entry : CoreAgentEntry} {log : List CoreAgentEntry}

/-- The calls of a scope that are not terminal. -/
def CodeToolScope.inFlight (scope : CodeToolScope) : Nat :=
  scope.calls.values.countP (fun call => !call.status.isTerminal)

/-- A scope within its limits. -/
structure ScopeInv (scope : CodeToolScope) : Prop where
  calls : scope.calls.values.length ≤ scope.spec.maxCalls
  inFlight : scope.inFlight ≤ scope.spec.maxInFlight

/-- The invariant of the code-tool scopes. -/
structure ScopesInv (s : CoreAgentState) : Prop where
  parent : ∀ scope ∈ s.codeTools.scopes.values, ∃ parent, codeToolParent s scope.spec = .ok parent
  apart : (s.codeTools.scopes.values.map (fun scope => scope.spec.parentInvocationId)).Nodup
  within : ∀ scope ∈ s.codeTools.scopes.values, ScopeInv scope

theorem scopesInv_init : ScopesInv CoreAgentState.new := by
  refine ⟨?_, List.nodup_nil, ?_⟩
  · rintro scope ⟨⟩
  · rintro scope ⟨⟩

theorem codeToolParent_eq_ok {spec : CodeToolScopeSpec} :
    (∃ parent, codeToolParent s spec = .ok parent) ↔
      s.workflowTools.boundInvocations.contains spec.parentInvocationId = true ∨
        s.workflowTools.startRequests.contains spec.parentInvocationId = true := by
  simp only [codeToolParent, orError_eq_ok, Option.or_eq_some_iff, OrdMap.contains,
    Option.isSome_iff_exists]
  constructor
  · rintro ⟨parent, hbound | ⟨-, hstarted⟩⟩
    · exact .inl ⟨parent, hbound⟩
    · exact .inr ⟨parent, hstarted⟩
  · rintro (⟨parent, hbound⟩ | ⟨parent, hstarted⟩)
    · exact ⟨parent, .inl hbound⟩
    · cases hbound : s.workflowTools.boundInvocations.get? spec.parentInvocationId with
      | none => exact ⟨parent, .inr ⟨rfl, hstarted⟩⟩
      | some other => exact ⟨other, .inl rfl⟩

/-- The scopes and the invocations as they were. -/
theorem ScopesInv.of_same (h : ScopesInv s) (hscopes : t.codeTools = s.codeTools)
    (hbound : t.workflowTools.boundInvocations = s.workflowTools.boundInvocations)
    (hstarted : t.workflowTools.startRequests = s.workflowTools.startRequests) : ScopesInv t := by
  refine ⟨?_, hscopes ▸ h.apart, hscopes ▸ h.within⟩
  intro scope hscope
  rw [hscopes] at hscope
  have hparent := codeToolParent_eq_ok.mp (h.parent scope hscope)
  refine codeToolParent_eq_ok.mpr ?_
  rw [hbound, hstarted]
  exact hparent

/-- Scopes that are rewritten within their limits, under the same parents. -/
theorem ScopesInv.of_scopes (h : ScopesInv s) {scopes : OrdMap String CodeToolScope}
    (hspecs : scopes.values.map (fun scope => scope.spec.parentInvocationId) =
      s.codeTools.scopes.values.map (fun scope => scope.spec.parentInvocationId))
    (hwithin : ∀ scope ∈ scopes.values, ScopeInv scope) : ScopesInv (s.setScopes scopes) := by
  refine ⟨fun scope hscope => ?_, ?_, hwithin⟩
  · have hmem : scope.spec.parentInvocationId ∈
        s.codeTools.scopes.values.map (fun scope => scope.spec.parentInvocationId) := by
      rw [← hspecs]
      exact List.mem_map.mpr ⟨scope, hscope, rfl⟩
    obtain ⟨old, hold, heq⟩ := List.mem_map.mp hmem
    have hparent := codeToolParent_eq_ok.mp (h.parent old hold)
    rw [heq] at hparent
    exact codeToolParent_eq_ok.mpr hparent
  · change (scopes.values.map _).Nodup
    rw [hspecs]
    exact h.apart

/-- Rewriting the calls of a scope cannot open a closed one. -/
theorem inFlight_mapValues_le {calls : OrdMap String CodeToolCall}
    {f : String → CodeToolCall → CodeToolCall}
    (h : ∀ id call, calls.get? id = some call → (f id call).status.isTerminal = false →
      call.status.isTerminal = false) :
    (calls.mapValues f).values.countP (fun call => !call.status.isTerminal) ≤
      calls.values.countP (fun call => !call.status.isTerminal) := by
  simp only [OrdMap.values, OrdMap.mapValues, List.map_map, List.countP_map]
  refine List.countP_mono_left fun e he hopen => ?_
  have hopen' := h e.1 e.2 (OrdMap.get?_eq_some_iff.mpr he) (by simpa using hopen)
  simpa using hopen'

theorem length_mapValues (calls : OrdMap String CodeToolCall)
    (f : String → CodeToolCall → CodeToolCall) :
    (calls.mapValues f).values.length = calls.values.length := by
  simp [OrdMap.values, OrdMap.mapValues]

/-! ## Pruning and interrupting -/

/-- A scope goes with its parent, and stays with it. -/
theorem ScopesInv.prune (h : ScopesInv s) : ScopesInv (pruneFinishedWork s) := by
  have hscopes : (pruneFinishedWork s).codeTools.scopes.values.Sublist s.codeTools.scopes.values :=
    s.codeTools.scopes.values_filter_sublist _
  refine ⟨fun scope hscope => ?_, h.apart.sublist (hscopes.map _),
    fun scope hscope => h.within scope (hscopes.subset hscope)⟩
  obtain ⟨id, hget⟩ := OrdMap.mem_values.mp hscope
  have hkept : scope.spec.parentInvocationId ∉ finishedInvocations s := by
    have hfilter : (s.codeTools.scopes.filter (fun _ scope =>
        scope.spec.parentInvocationId ∉ finishedInvocations s)).get? id = some scope := hget
    rw [OrdMap.get?_filter, Option.filter_eq_some_iff] at hfilter
    simpa using hfilter.2
  have hfilter : ∀ m : OrdMap WorkflowToolInvocationId WorkflowToolInvocation,
      m.contains scope.spec.parentInvocationId = true →
      (m.filter (fun id _ => id ∉ finishedInvocations s)).contains
        scope.spec.parentInvocationId = true := by
    intro m hm
    obtain ⟨invocation, hinvocation⟩ := OrdMap.contains_iff.mp hm
    refine OrdMap.contains_iff.mpr ⟨invocation, ?_⟩
    rw [OrdMap.get?_filter, hinvocation]
    simp [hkept]
  rcases codeToolParent_eq_ok.mp (h.parent scope (hscopes.subset hscope)) with hbound | hstarted
  · exact codeToolParent_eq_ok.mpr (.inl (hfilter _ hbound))
  · exact codeToolParent_eq_ok.mpr (.inr (hfilter _ hstarted))

theorem ScopesInv.interrupt (h : ScopesInv s) (runId : RunId) :
    ScopesInv (interruptCodeToolsForRun s runId) := by
  refine h.of_scopes (OrdMap.map_values_mapValues _ _ fun id scope => ?_) fun scope hscope => ?_
  · split
    · split_ifs <;> rfl
    · rfl
  · obtain ⟨id, hget⟩ := OrdMap.mem_values.mp hscope
    rw [OrdMap.get?_mapValues, Option.map_eq_some_iff] at hget
    obtain ⟨old, hold, rfl⟩ := hget
    have hwithin := h.within old (OrdMap.mem_values.mpr ⟨id, hold⟩)
    split
    · split_ifs
      · refine ⟨?_, ?_⟩
        · rw [length_mapValues]
          exact hwithin.calls
        · refine (inFlight_mapValues_le fun _ call _ hopen => ?_).trans hwithin.inFlight
          unfold CodeToolCall.interrupt at hopen
          split_ifs at hopen with hterminal
          · exact hopen
          · cases hopen
      · exact hwithin
    · exact hwithin

theorem ScopesInv.finishRun (h : ScopesInv s) (run : ActiveRun) (outcome : RunOutcome)
    (seq ms : Nat) : ScopesInv (s.finishRun run outcome seq ms) := by
  have hinterrupted := h.interrupt run.runId
  have hruns : ∀ runs, ScopesInv ((interruptCodeToolsForRun s run.runId).setRuns runs) :=
    fun _ => hinterrupted.of_same rfl rfl rfl
  exact (hruns _).prune

/-! ## Events -/

/-- A call that was open takes another status. -/
theorem ScopesInv.setCodeCallStatus (h : ScopesInv s) {origin : CodeToolOrigin} {call : CodeToolCall}
    {status : CodeToolCallStatus} (hcall : codeToolCall s origin = some call)
    (hopen : call.status.isTerminal = false) : ScopesInv (setCodeCallStatus s origin status) := by
  obtain ⟨scope, hscope, hget⟩ := Option.bind_eq_some_iff.mp hcall
  refine h.of_scopes (OrdMap.map_values_modify _ _ _ fun _ => rfl) fun changed hchanged => ?_
  rcases mem_values_modify hchanged with hold | ⟨old, hold, rfl⟩
  · exact h.within changed hold
  · obtain rfl : scope = old := Option.mem_unique hscope hold
    have hwithin := h.within scope (OrdMap.mem_values.mpr ⟨_, hscope⟩)
    refine ⟨?_, ?_⟩
    · rw [OrdMap.modify, length_mapValues]
      exact hwithin.calls
    · refine (inFlight_mapValues_le fun id other hother hstatus => ?_).trans hwithin.inFlight
      split_ifs at hstatus with hid
      · subst hid
        obtain rfl : call = other := Option.mem_unique hget hother
        exact hopen
      · exact hstatus

/-- A call is admitted to a scope that has room for it. -/
theorem ScopesInv.reserve (h : ScopesInv s) {call : CodeToolCallSpec} {promiseIdBase : Nat}
    (hvalid : validateCall s call = .ok ()) (hnew : codeToolCall s call.origin = none) :
    ScopesInv (s.setScopes (s.codeTools.scopes.modify call.origin.executionId fun scope =>
      { scope with
        calls := scope.calls.insert call.origin.requestId (call.admitted promiseIdBase) })) := by
  simp only [validateCall, validateRecordedCall, bind_eq_ok, require_eq_ok, orError_eq_ok,
    exists_unit, Except.ok.injEq] at hvalid
  obtain ⟨-, _, ⟨scope, hget, -, -, -, -, rfl⟩, -, hcalls, hinFlight, -⟩ := hvalid
  refine h.of_scopes (OrdMap.map_values_modify _ _ _ fun _ => rfl) fun changed hchanged => ?_
  rcases mem_values_modify hchanged with hold | ⟨old, hold, rfl⟩
  · exact h.within changed hold
  · obtain rfl : scope = old := Option.mem_unique hget hold
    rw [codeToolCall, hget, Option.bind_some] at hnew
    have hfresh : scope.calls.contains call.origin.requestId = false := by
      unfold OrdMap.contains
      rw [hnew]
      rfl
    have hperm := OrdMap.values_insert_perm (call.admitted promiseIdBase) hfresh
    refine ⟨?_, ?_⟩
    · rw [hperm.length_eq, List.length_cons, OrdMap.values, List.length_map]
      exact hcalls
    · unfold CodeToolScope.inFlight
      rw [hperm.countP_eq, List.countP_cons_of_pos rfl]
      exact hinFlight

theorem scopes_codeTool {event : CodeToolEvent} (h : ScopesInv s)
    (hknew : Knew base input s (.codeTool event)) (happly : applyCodeToolEvent s event = .ok t) :
    ScopesInv t := by
  cases event with
  | scopeOpened scope =>
    obtain ⟨hfresh, hvalid, rfl⟩ := scopeOpened_eq_ok.mp happly
    simp only [validateRecordedScope, bind_eq_ok, require_eq_ok, exists_unit, Bool.not_eq_true,
      List.any_eq_false, beq_iff_eq] at hvalid
    obtain ⟨hlive, hother⟩ := hvalid
    obtain ⟨parent, -, -, hparent, -⟩ := validateLiveParent_ok hlive
    let opened : CodeToolScope :=
      { toolsetRevision := s.tooling.revision, spec := scope, closed := false, calls := ∅ }
    have hperm : (s.codeTools.scopes.insert scope.executionId opened).values.Perm
        (opened :: s.codeTools.scopes.values) := OrdMap.values_insert_perm opened hfresh
    refine ⟨fun scope' hscope => ?_, ?_, fun scope' hscope => ?_⟩
    · rcases mem_values_insert hscope with rfl | hscope
      · exact ⟨parent, hparent⟩
      · exact h.parent scope' hscope
    · refine (hperm.map _).nodup_iff.mpr (List.nodup_cons.mpr ⟨fun hmem => ?_, h.apart⟩)
      obtain ⟨existing, hexisting, heq⟩ := List.mem_map.mp hmem
      exact hother existing hexisting heq
    · rcases mem_values_insert hscope with rfl | hscope
      · exact ⟨Nat.zero_le _, Nat.zero_le _⟩
      · exact h.within scope' hscope
  | callAdmitted call promiseIdBase =>
    obtain ⟨_, last, -, hnew, -, -, rfl⟩ := callAdmitted_eq_ok.mp happly
    have hreserved : ScopesInv (s.setScopes (s.codeTools.scopes.modify call.origin.executionId
        fun scope => { scope with
          calls := scope.calls.insert call.origin.requestId (call.admitted promiseIdBase) })) :=
      h.reserve hknew hnew
    exact hreserved.of_same rfl rfl rfl
  | callCompleted origin result =>
    obtain ⟨call, hcall, -, hopen, rfl⟩ := codeCallCompleted_eq_ok.mp happly
    exact h.setCodeCallStatus hcall hopen
  | callDeferred origin suspension =>
    obtain ⟨call, hcall, hpending, -, rfl⟩ := codeCallDeferred_eq_ok.mp happly
    exact h.setCodeCallStatus hcall (by rw [hpending]; rfl)
  | scopeClosed executionId =>
    obtain ⟨-, rfl⟩ := scopeClosed_eq_ok.mp happly
    refine h.of_scopes (OrdMap.map_values_modify _ _ _ fun _ => rfl) fun changed hchanged => ?_
    rcases mem_values_modify hchanged with hold | ⟨old, hold, rfl⟩
    · exact h.within changed hold
    · have hwithin := h.within old (OrdMap.mem_values.mpr ⟨_, hold⟩)
      exact ⟨hwithin.calls, hwithin.inFlight⟩

/-- An invocation that is recorded leaves every parent recorded. -/
theorem scopes_workflowTool {event : WorkflowToolEvent} (h : ScopesInv s)
    (happly : applyWorkflowToolEvent s event = .ok t) : ScopesInv t := by
  have hinsert : ∀ (m : OrdMap WorkflowToolInvocationId WorkflowToolInvocation) id invocation key,
      m.contains key = true → (m.insert id invocation).contains key = true := by
    intro m id invocation key hkey
    rw [OrdMap.contains_iff_mem_keys, OrdMap.mem_keys_insert]
    exact .inr (OrdMap.contains_iff_mem_keys.mp hkey)
  cases event with
  | invoked invocation =>
    obtain ⟨-, rfl⟩ := invoked_ok happly
    refine ⟨fun scope hscope => codeToolParent_eq_ok.mpr ?_, h.apart, h.within⟩
    exact (codeToolParent_eq_ok.mp (h.parent scope hscope)).imp_left (hinsert _ _ _ _)
  | startRequested invocation executionId =>
    obtain ⟨-, rfl⟩ := startRequested_ok happly
    refine ⟨fun scope hscope => codeToolParent_eq_ok.mpr ?_, h.apart, h.within⟩
    exact (codeToolParent_eq_ok.mp (h.parent scope hscope)).imp_right (hinsert _ _ _ _)
  | deliveryFailed id ref =>
    obtain ⟨_, rfl, hbound, hstarted⟩ := invocationFailed_ok (.inl ⟨id, ref, rfl⟩) happly
    exact h.of_same rfl hbound hstarted
  | startFailed id ref =>
    obtain ⟨_, rfl, hbound, hstarted⟩ := invocationFailed_ok (.inr ⟨id, ref, rfl⟩) happly
    exact h.of_same rfl hbound hstarted

theorem scopes_run {seq ms : Nat} {event : RunEvent} (h : ScopesInv s)
    (happly : applyRunEvent s seq ms event = .ok t) : ScopesInv t := by
  cases applyRunEvent_moves happly with
  | queues hqueues hactive ht => exact h.of_same (by rw [ht]) (by rw [ht]) (by rw [ht])
  | starts | steers | stops => exact h.of_same rfl rfl rfl
  | ends => exact h.finishRun _ _ _ _

theorem scopes_tool {event : ToolEvent} (h : ScopesInv s)
    (happly : applyToolEvent s event = .ok t) : ScopesInv t := by
  cases applyToolEvent_moves happly with
  | works | parks | unparks => exact h.of_same rfl rfl rfl
  | completes =>
    have hactive : ∀ run, ScopesInv (s.setActive run) := fun _ => h.of_same rfl rfl rfl
    exact (hactive _).prune

/-- Every warranted event keeps the scopes. -/
theorem scopes_step (hinv : Inv s) (h : ScopesInv s) (hw : Warrant base input s entry)
    (happly : applyEvent s entry = .ok t) : ScopesInv t := by
  have hknew := hw.knew
  obtain ⟨-, m, hm, rfl⟩ := applyEvent_eq_ok.mp happly
  suffices hscopes : ScopesInv m from hscopes.of_same rfl rfl rfl
  cases applyEventKind_work hinv.entries hm with
  | prunes hprune =>
    cases applyEventKind_moves hm with
    | run heq hm => exact scopes_run h hm
    | tool heq hm => exact scopes_tool h hm
    | rests hspares => rw [mayPrune_of_sparesRuns hspares] at hprune; cases hprune
    | _ heq => rw [heq] at hprune; cases hprune
  | promise heq hm => rw [applyPromiseEvent_frame hm]; exact h.of_same rfl rfl rfl
  | codeTool heq hm => exact scopes_codeTool h (heq ▸ hknew) hm
  | workflowTool heq hm => exact scopes_workflowTool h hm
  | rests hpromises hscopes hbound hstarted => exact h.of_same hscopes hbound hstarted

/-- In every state that a session reaches, each code-tool scope has its parent recorded and to itself and
keeps to its limits, and a scope with an open call belongs to the batch that the active run is parked
on. -/
theorem code_calls_structured (h : Reachable sessionId s log) :
    (∀ scope ∈ s.codeTools.scopes.values,
      (s.workflowTools.boundInvocations.contains scope.spec.parentInvocationId = true ∨
        s.workflowTools.startRequests.contains scope.spec.parentInvocationId = true) ∧
      scope.calls.values.length ≤ scope.spec.maxCalls ∧ scope.inFlight ≤ scope.spec.maxInFlight ∧
      ∀ call ∈ scope.calls.values, call.status.isTerminal = false →
        ∃ parent run parked, codeToolParent s scope.spec = .ok parent ∧
          s.runs.active = some run ∧ run.runId = parent.runId ∧
          run.parkedToolBatch = some parked ∧ parked.batchId = parent.toolBatchId) ∧
    (s.codeTools.scopes.values.map (fun scope => scope.spec.parentInvocationId)).Nodup := by
  have hscopes : ScopesInv s := reachable_preserves (P := fun s _ => ScopesInv s) scopesInv_init
    (fun _ _ _ _ _ _ hinv hs hw ht => scopes_step hinv hs hw ht) h
  have hcode := (reachable_inv h).1.code
  refine ⟨fun scope hscope => ⟨?_, ?_, ?_, ?_⟩, hscopes.apart⟩
  · exact codeToolParent_eq_ok.mp (hscopes.parent scope hscope)
  · exact (hscopes.within scope hscope).calls
  · exact (hscopes.within scope hscope).inFlight
  · exact hcode scope hscope

/-! ## A run with an open code call -/

/-- A tool that runs a program, and one that the program may call. -/
def sampleCodeTool : ToolSpec where
  id := "run_code"
  kind := .function { inputSchemaRef := ⟨"schema"⟩ }

def sampleReadTool : ToolSpec where
  id := "read_file"
  kind := .function { inputSchemaRef := ⟨"schema"⟩ }

/-- The workflow tool behind the first, joined to its call. -/
def sampleDeclaration : WorkflowToolDeclaration where
  definition :=
    { workflowToolId := "code", schemaRevision := 1, semanticType := "acme.code.v1"
      tool := sampleCodeTool }
  target := .bound ⟨"receiver", "acme.code"⟩ .push
  completion := .joined none (some 1000)

/-- The fingerprint of its binding. -/
def sampleFingerprint : String :=
  match sampleDeclaration.toBinding "universe" with
  | .ok binding => binding.bindingFingerprint
  | .error error => error.message

def sampleInvocation : WorkflowToolInvocation where
  invocationId := invocationIdForCall "universe" "session" 1 1 1 "call" sampleFingerprint
  workflowToolId := "code"
  semanticType := "acme.code.v1"
  schemaRevision := 1
  bindingFingerprint := sampleFingerprint
  sessionUniverseId := "universe"
  sessionId := "session"
  runId := 1
  turnId := 1
  toolBatchId := 1
  toolCallId := "call"
  argumentsRef := ⟨"program"⟩
  completionPromises := some (OrdMap.ofList [(replyCompletionKey, ⟨1, by decide⟩)])

/-- The answer of a model that calls one tool. -/
def sampleCallAnswer (toolId : ToolId) (argument : String) : LlmGenerationResult where
  runId := 1
  turnId := 1
  status := .succeeded
  facts :=
    { finish := .toolCalls
      toolCalls := [{ callId := "call", toolId := some toolId, toolName := toolId
                      argumentsRef := ⟨argument⟩ }] }
  contextEntries := [{ kind := .toolCall "call" toolId, content := { contentRef := ⟨argument⟩ } }]

/-- A session that parks on the invocation of a joined workflow tool. -/
def parkedRun : List (Nat × DriveInput) :=
  [(0, .admitCommand (.openDeclaredSession sampleConfig "universe"
      { version := 1, tools := [sampleDeclaration] })),
    (1, .admitCommand (.replaceTools none
      (OrdMap.ofList [("run_code", sampleCodeTool), ("read_file", sampleReadTool)]))),
    (2, .admitCommand (.requestRun { source := ⟨[sampleMessage]⟩ })),
    (3, .nextAction), (4, .nextAction), (5, .nextAction), (6, .nextAction), (7, .nextAction),
    (8, .resumeGeneration (sampleCallAnswer "run_code" "program")), (9, .nextAction),
    (10, .nextAction),
    (11, .resumeToolBatch ⟨1, 1, 1, [{ callId := "call", status := .succeeded
                                       effects := [.workflowInvoke sampleInvocation (.ok (some 2000))] }]⟩)]

/-- The same session, with a program that has called a tool. -/
def codeRun : List (Nat × DriveInput) :=
  parkedRun ++
    [(12, .admitCommand (.openCodeToolScope
        { executionId := "execution", parentInvocationId := sampleInvocation.invocationId
          bindings := OrdMap.ofList [("read", ⟨"read_file", "read_file"⟩)]
          maxCalls := 4, maxInFlight := 2 })),
      (13, .admitCommand (.admitCodeToolCall
        { origin := ⟨"execution", "request"⟩, bindingId := "read", toolId := "read_file"
          toolName := "read_file", argumentsRef := ⟨"path"⟩ }))]

theorem code_calls_structured_codeRun : ∃ s log, (drive "session").exec codeRun = some (s, log) ∧
    s.codeTools.scopes.values.map CodeToolScope.inFlight = [1] ∧
    ∀ scope ∈ s.codeTools.scopes.values, scope.inFlight ≤ scope.spec.maxInFlight ∧
      ∀ call ∈ scope.calls.values, call.status.isTerminal = false →
        ∃ parent run parked, codeToolParent s scope.spec = .ok parent ∧
          s.runs.active = some run ∧ run.runId = parent.runId ∧
          run.parkedToolBatch = some parked ∧ parked.batchId = parent.toolBatchId := by
  have hsome : ((drive "session").exec codeRun).map
      (fun p => p.1.codeTools.scopes.values.map CodeToolScope.inFlight) = some [1] := by
    decide +kernel
  obtain ⟨⟨s, log⟩, hexec, hflight⟩ := Option.map_eq_some_iff.mp hsome
  have hscopes := (code_calls_structured (EventSource.exec_reaches hexec)).1
  exact ⟨s, log, hexec, hflight, fun scope hscope => (hscopes scope hscope).2.2⟩

end Lightspeed.Harness
